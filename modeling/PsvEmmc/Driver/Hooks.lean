/-
# `PsvEmmc.Driver.Hooks` — what the driver hooks at its start and releases at its end

`initialize_all_hooks` looks for ten kernel modules and, for each one that is
there, sets the hooks and injections meant for it: every one has a variable
of its own for the id that taiHEN answers, and a hook one for the reference.
`deinitialize_all_hooks` goes through a list of all these variables, those of
hooks no longer set included, and releases what has an id that is not
negative.

So what a variable holds before it is set matters.  All of them start at
`-1` except for the three arrays: `patch_uids` and `gen_init_hook_uids` have
no initializer, and the `{-1}` of `sdstor_dev_fs_ids` is for the first of its
thirteen elements.  Those that start at zero belong to SceSdif and SceSdstor,
and when one of the two is missing they are released without having been set.
-/
import PsvEmmc.Lib.Slots

namespace PsvEmmc

open Slots
open scoped List

/-! ## The variables -/

/-- The hooks with an `_id` and a `_ref` of their own. -/
inductive HookName where
  | gcHook | initMmcHook | initSdHook | cmd55_41Hook | loadMbrHook | mntPntChkHook
  | mbrTableInitHook | sysrootZeroHook | sceVfsMountHook | sceVfsAddVfsHook | sceVfsUnmountHook
  | sceVfsDeleteVfsHook | sceVfsGetNewNodeHook | genReadHook | sdReadHook
  | initPartitionTableHook | createDeviceHandleHook | sendCommandHook
  | sceErrorHistoryPostErrorHook | sceErrorHistoryUpdateSequenceInfoHook
  | sceErrorGetExternalStringKernelHook | sceErrorHistoryGetErrorHook
  | ksceKernelCreateThreadHook | sceKernelCreateThreadForUserHook | sceIoOpenForDriverHook
  | ksceKernelWaitSemaHook | ksceKernelSignalSemaHook | vshSblAuthMgrVerifySpsfoHook
  | debugPrintfCallbackInvoke | gc22fd5d23Hook | appmgr23D642CHook
  | sceAppMgrGameDataMountForDriverHook | appmgr23D9B50Hook
  | sceAppMgrGameDataVfsMountForDriverHook | sceFiosKernelOverlayRemoveForProcessForDriverHook
  | procReadSealedkey23D6EA0Hook | sblAcmgr0b6e6cd7Hook | procGenerateRandomPath23D4FBCHook
  | procGetClearsignStat23D9A4CHook | pfsMgrA772209cHook | pfsMgr2d48aea2Hook | pfsMgr2190AECHook
  | iofilemgrFeee44a9Hook | iofilemgrD220539dHook | iofilemgrBF3848Hook | iofilemgrBF3474Hook
  | iofilemgrSceVfsMountHook | iofilemgrSceVfsGetNewNodeHook | iofilemgrBF1AF0Hook
  | iofilemgrBE5B30Hook | iofilemgrBF18CCHook | iofilemgrBEDEB0Hook | iofilemgrBE62E8Hook
  | iofilemgrBE5F10Hook | iofilemgrBE6788Hook | iofilemgrBEE3C8Hook | iofilemgrBEBAC0Hook
  | iofilemgrBE61C4Hook | iofilemgrBE59BCHook | iofilemgrBEE364Hook | iofilemgrBEE2D4Hook
  | iofilemgrBEE2C4Hook | iofilemgrBEDF5CHook | iofilemgrBECE80Hook | iofilemgrBEC808Hook
  | iofilemgrBEC620Hook | iofilemgrBEC578Hook | iofilemgrBEC56CHook | iofilemgrBEC530Hook
  | iofilemgrBEC010Hook | iofilemgrBE5A38Hook | iofilemgrBE5814Hook | iofilemgrBEBB84Hook
  | iofilemgrBEC7C0Hook | iofilemgrBECE0CHook | iofilemgrExpAa45010bHook
  | iofilemgrExp21d57633Hook | iofilemgrExpDc2d8bceHook | iofilemgrExp6b3ca9f7Hook
  | pfsMgr219105CHook | pfsMgr2193624Hook | pfsMgr2198928Hook | pfsMgr2199064Hook
  | pfsMgr219DE44Hook | pfsMgr219DE7CHook | pfsMgr2199144Hook | appMgr23D5028Hook
  | appMgr23EF934Hook | appMgr75c96d25Hook | iofilemgrBE8444Hook | iofilemgr50a63acfHook
  | iofilemgrBE584CHook | iofilemgrBE5CC4Hook | iofilemgrF7dac0f5Hook | iofilemgrA5a6a55cHook
  | pfsMgr21910F4Hook | pfsMgr2193B44Hook | appMgr75192972Hook | iofilemgrBEA704Hook
  | iofilemgr9e347c7dHook | iofilemgr76b79becHook | pfsMgr219112CHook | pfsMgr2192190Hook
  | appMgrE17efc03Hook | pfsMgr219BF20Hook | iofilemgrBE7AECHook | iofilemgrBF57F8Hook
  | iofilemgrBF66E4Hook | iofilemgrBF6B6CHook | iofilemgrBF69B4Hook | iofilemgrBF651CHook
  | iofilemgrBF89ECHook | iofilemgrBF8BD4Hook | iofilemgrBF7C00Hook | iofilemgrBF8BB0Hook
  | iofilemgrBF7288Hook | iofilemgrBFB5F0Hook | iofilemgrBF88C4Hook | iofilemgrBFB794Hook
  | iofilemgrBF7268Hook | iofilemgrBF83A0Hook | iofilemgrBFB628Hook | iofilemgrBF7228Hook
  | iofilemgrBF83F8Hook | iofilemgrBFB748Hook | iofilemgrBE7F4CHook | iofilemgrBFB2A8Hook
  | pfsFacade4238d2d2Hook | iofilemgr0b54f9e0Hook | pfsFacade219C9E8Hook | pfsFacade21A179CHook
  | pfsFacade21A19A8Hook | pfsFacade219BB70Hook | pfsFacade219BDD4Hook | pfsFacade219BD88Hook
  | pfsFacadeC1dd4317Hook | pfsFacade219BEA0Hook | pfsFacade15c17487Hook
  deriving DecidableEq, Repr

/-- The injections with a `_uid` of their own. -/
inductive PatchName where
  | genInit2Patch | genInit1Patch | hsDisPatch1 | hsDisPatch2 | busSizePatch | mbrInitZeroPatch1
  | mbrInitZeroPatch2 | pfs219DE44CheckPatch1 | pfs219DE44CheckPatch2 | pfs219DE44CheckPatch3
  | pfs219DE44CheckPatch4 | pfs219DE44CheckPatch5 | pfs219DE44CheckPatch6 | pfs219DE44CheckPatch7
  | pfs80140f02TestPatch1 | pfs80140f02TestPatch2 | pfsFacade0219C328CryptoPatch1
  | pfsFacade0219C486CryptoPatch2 | pfsFacade0219C3F4CryptoPatch3 | pfsFacade0219C1F0CryptoPatch4
  deriving DecidableEq, Repr

/-- The variable of one hook or injection: its own, or an element of one of the arrays.  The
elements of `sdstor_dev_fs_ids` are in the order of `sdstor_dev_fs_functions`. -/
inductive Slot where
  | hook (h : HookName)
  | patch (p : PatchName)
  | patchUids (i : Fin 3)
  | genInitHookUids (i : Fin 3)
  | sdstorDevFsIds (f : Fin 13)
  deriving DecidableEq, Repr

/-- A hook, with a reference; the others are injections. -/
def Slot.isHook : Slot → Bool
  | .hook _ => true
  | .patch _ => false
  | .patchUids _ => false
  | .genInitHookUids _ => true
  | .sdstorDevFsIds _ => true

/-- What the variable holds when the module is loaded. -/
def Slot.initial : Slot → Int32
  | .hook _ => -1
  | .patch _ => -1
  | .patchUids _ => 0
  | .genInitHookUids _ => 0
  | .sdstorDevFsIds f => if f.val = 0 then -1 else 0

/-! ## The two lists -/

/-- The modules that `initialize_all_hooks` looks for. -/
inductive KernelModule where
  | scePfsMgr | sceAppMgr | sceSblGcAuthMgr | sceSdstor | sceSdif
  | sceSysmem | sceIofilemgr | sceError | sceKernelThreadMgr | sceVshBridge
  deriving DecidableEq, Repr

/-- The blocks of `initialize_all_hooks`, in their order. -/
def blocks : List KernelModule :=
  [.scePfsMgr, .sceAppMgr, .sceSblGcAuthMgr, .sceSdstor, .sceSdif, .sceSysmem, .sceIofilemgr,
    .sceError, .sceKernelThreadMgr, .sceVshBridge]

/-- What is set in the block of a module. -/
def KernelModule.slots : KernelModule → List Slot
  | .scePfsMgr =>
      [.hook .pfsMgr2d48aea2Hook, .hook .pfsMgr2190AECHook, .hook .iofilemgrFeee44a9Hook,
       .hook .iofilemgrD220539dHook, .hook .pfsMgr219105CHook, .hook .pfsMgr2193624Hook,
       .hook .pfsMgr2198928Hook, .patch .pfs219DE44CheckPatch1, .patch .pfs219DE44CheckPatch2,
       .hook .pfsMgr2193B44Hook, .patch .pfs219DE44CheckPatch3, .patch .pfs219DE44CheckPatch4,
       .hook .pfsMgr219112CHook, .hook .pfsMgr2192190Hook, .patch .pfs219DE44CheckPatch5,
       .hook .iofilemgr0b54f9e0Hook, .hook .pfsFacade219C9E8Hook, .hook .pfsFacade21A179CHook,
       .hook .pfsFacade21A19A8Hook, .hook .pfsFacade219BB70Hook, .hook .pfsFacade219BDD4Hook,
       .hook .pfsFacade219BD88Hook, .hook .pfsFacadeC1dd4317Hook, .hook .pfsFacade219BEA0Hook,
       .hook .pfsFacade15c17487Hook, .patch .pfsFacade0219C1F0CryptoPatch4]
  | .sceAppMgr =>
      [.hook .appmgr23D642CHook, .hook .sceAppMgrGameDataMountForDriverHook,
       .hook .appmgr23D9B50Hook, .hook .sceAppMgrGameDataVfsMountForDriverHook,
       .hook .procReadSealedkey23D6EA0Hook, .hook .sblAcmgr0b6e6cd7Hook,
       .hook .procGenerateRandomPath23D4FBCHook, .hook .procGetClearsignStat23D9A4CHook,
       .hook .pfsMgrA772209cHook, .hook .appMgr23D5028Hook, .hook .appMgr23EF934Hook,
       .hook .appMgr75c96d25Hook, .hook .appMgr75192972Hook, .hook .appMgrE17efc03Hook]
  | .sceSblGcAuthMgr =>
      [.hook .gc22fd5d23Hook]
  | .sceSdstor =>
      [.hook .gcHook, .genInitHookUids 0, .genInitHookUids 1, .genInitHookUids 2,
       .hook .loadMbrHook, .hook .mntPntChkHook, .hook .mbrTableInitHook] ++
      (List.finRange 13).map .sdstorDevFsIds ++
      [.hook .genReadHook, .hook .sdReadHook, .hook .initPartitionTableHook,
       .hook .createDeviceHandleHook, .patch .genInit2Patch, .patch .mbrInitZeroPatch1,
       .patch .mbrInitZeroPatch2, .patch .genInit1Patch]
  | .sceSdif =>
      [.hook .initMmcHook, .hook .initSdHook, .patchUids 0, .patchUids 1, .patchUids 2,
       .hook .cmd55_41Hook, .hook .sendCommandHook, .patch .busSizePatch]
  | .sceSysmem =>
      [.hook .sysrootZeroHook]
  | .sceIofilemgr =>
      [.hook .iofilemgrBF3474Hook, .hook .iofilemgrSceVfsMountHook,
       .hook .iofilemgrSceVfsGetNewNodeHook, .hook .iofilemgrBE5B30Hook, .hook .iofilemgrBF18CCHook,
       .hook .iofilemgrBEDEB0Hook, .hook .iofilemgrBE6788Hook, .hook .iofilemgrBE59BCHook,
       .hook .iofilemgrBEBB84Hook, .hook .iofilemgrBEC7C0Hook, .hook .iofilemgrBE61C4Hook,
       .hook .iofilemgrBE8444Hook, .hook .iofilemgrBE5CC4Hook, .hook .iofilemgrA5a6a55cHook,
       .hook .iofilemgrBEA704Hook, .hook .iofilemgrBE7AECHook, .hook .iofilemgrBF57F8Hook,
       .hook .iofilemgrBF66E4Hook, .hook .iofilemgrBF6B6CHook, .hook .iofilemgrBF651CHook,
       .hook .iofilemgrBF89ECHook, .hook .iofilemgrBF8BD4Hook, .hook .iofilemgrBF7C00Hook,
       .hook .iofilemgrBF8BB0Hook, .hook .iofilemgrBF7288Hook, .hook .iofilemgrBFB5F0Hook,
       .hook .iofilemgrBF88C4Hook, .hook .iofilemgrBFB794Hook, .hook .iofilemgrBF7268Hook,
       .hook .iofilemgrBF83A0Hook, .hook .iofilemgrBFB628Hook, .hook .iofilemgrBF7228Hook,
       .hook .iofilemgrBF83F8Hook, .hook .iofilemgrBFB748Hook, .hook .iofilemgrBE7F4CHook,
       .hook .iofilemgrBFB2A8Hook, .hook .pfsFacade4238d2d2Hook]
  | .sceError =>
      [.hook .sceErrorHistoryPostErrorHook, .hook .sceErrorHistoryUpdateSequenceInfoHook,
       .hook .sceErrorGetExternalStringKernelHook, .hook .sceErrorHistoryGetErrorHook]
  | .sceKernelThreadMgr =>
      []
  | .sceVshBridge =>
      [.hook .vshSblAuthMgrVerifySpsfoHook]

/-- What `deinitialize_all_hooks` looks at, in its order. -/
def releases : List Slot :=
  ([.hook .gcHook, .hook .initMmcHook, .hook .initSdHook, .patchUids 0, .patchUids 1,
    .patchUids 2, .hook .cmd55_41Hook, .genInitHookUids 0, .genInitHookUids 1, .genInitHookUids 2,
    .hook .loadMbrHook, .hook .mntPntChkHook, .hook .mbrTableInitHook,
    .hook .sysrootZeroHook] : List Slot) ++
  (List.finRange 13).map .sdstorDevFsIds ++
  ([.hook .sceVfsMountHook, .hook .sceVfsAddVfsHook, .hook .sceVfsUnmountHook,
    .hook .sceVfsDeleteVfsHook, .hook .sceVfsGetNewNodeHook, .patch .genInit2Patch,
    .patch .genInit1Patch, .hook .genReadHook, .hook .sdReadHook, .patch .hsDisPatch1,
    .patch .hsDisPatch2, .patch .busSizePatch, .patch .mbrInitZeroPatch1,
    .patch .mbrInitZeroPatch2, .hook .initPartitionTableHook, .hook .createDeviceHandleHook,
    .hook .sendCommandHook, .hook .sceErrorHistoryPostErrorHook,
    .hook .sceErrorHistoryUpdateSequenceInfoHook, .hook .sceErrorGetExternalStringKernelHook,
    .hook .sceErrorHistoryGetErrorHook, .hook .ksceKernelCreateThreadHook,
    .hook .sceKernelCreateThreadForUserHook, .hook .sceIoOpenForDriverHook,
    .hook .ksceKernelWaitSemaHook, .hook .ksceKernelSignalSemaHook,
    .hook .vshSblAuthMgrVerifySpsfoHook, .hook .debugPrintfCallbackInvoke, .hook .gc22fd5d23Hook,
    .hook .appmgr23D642CHook, .hook .sceAppMgrGameDataMountForDriverHook,
    .hook .appmgr23D9B50Hook, .hook .sceAppMgrGameDataVfsMountForDriverHook,
    .hook .sceFiosKernelOverlayRemoveForProcessForDriverHook, .hook .procReadSealedkey23D6EA0Hook,
    .hook .sblAcmgr0b6e6cd7Hook, .hook .procGenerateRandomPath23D4FBCHook,
    .hook .procGetClearsignStat23D9A4CHook, .hook .pfsMgrA772209cHook, .hook .pfsMgr2d48aea2Hook,
    .hook .pfsMgr2190AECHook, .hook .iofilemgrFeee44a9Hook, .hook .iofilemgrD220539dHook,
    .hook .iofilemgrBF3848Hook, .hook .iofilemgrBF3474Hook, .hook .iofilemgrSceVfsMountHook,
    .hook .iofilemgrSceVfsGetNewNodeHook, .hook .iofilemgrBF1AF0Hook, .hook .iofilemgrBE5B30Hook,
    .hook .iofilemgrBF18CCHook, .hook .iofilemgrBEDEB0Hook, .hook .iofilemgrBE62E8Hook,
    .hook .iofilemgrBE5F10Hook, .hook .iofilemgrBE6788Hook, .hook .iofilemgrBEE3C8Hook,
    .hook .iofilemgrBEBAC0Hook, .hook .iofilemgrBE61C4Hook, .hook .iofilemgrBE59BCHook,
    .hook .iofilemgrBEE364Hook, .hook .iofilemgrBEE2D4Hook, .hook .iofilemgrBEE2C4Hook,
    .hook .iofilemgrBEDF5CHook, .hook .iofilemgrBECE80Hook, .hook .iofilemgrBEC808Hook,
    .hook .iofilemgrBEC620Hook, .hook .iofilemgrBEC578Hook, .hook .iofilemgrBEC56CHook,
    .hook .iofilemgrBEC530Hook, .hook .iofilemgrBEC010Hook, .hook .iofilemgrBE5A38Hook,
    .hook .iofilemgrBE5814Hook, .hook .iofilemgrBEBB84Hook, .hook .iofilemgrBEC7C0Hook,
    .hook .iofilemgrBECE0CHook, .hook .iofilemgrExpAa45010bHook, .hook .iofilemgrExp21d57633Hook,
    .hook .iofilemgrExpDc2d8bceHook, .hook .iofilemgrExp6b3ca9f7Hook, .hook .pfsMgr219105CHook,
    .hook .pfsMgr2193624Hook, .hook .pfsMgr2198928Hook, .hook .pfsMgr2199064Hook,
    .hook .pfsMgr219DE44Hook, .hook .pfsMgr219DE7CHook, .hook .pfsMgr2199144Hook,
    .patch .pfs219DE44CheckPatch1, .patch .pfs219DE44CheckPatch2, .hook .appMgr23D5028Hook,
    .hook .appMgr23EF934Hook, .hook .appMgr75c96d25Hook, .hook .iofilemgrBE8444Hook,
    .hook .iofilemgr50a63acfHook, .hook .iofilemgrBE584CHook, .hook .iofilemgrBE5CC4Hook,
    .hook .iofilemgrF7dac0f5Hook, .hook .iofilemgrA5a6a55cHook, .hook .pfsMgr21910F4Hook,
    .hook .pfsMgr2193B44Hook, .patch .pfs219DE44CheckPatch3, .patch .pfs219DE44CheckPatch4,
    .hook .appMgr75192972Hook, .hook .iofilemgrBEA704Hook, .hook .iofilemgr9e347c7dHook,
    .hook .iofilemgr76b79becHook, .hook .pfsMgr219112CHook, .hook .pfsMgr2192190Hook,
    .patch .pfs219DE44CheckPatch5, .patch .pfs219DE44CheckPatch6, .patch .pfs219DE44CheckPatch7,
    .hook .appMgrE17efc03Hook, .patch .pfs80140f02TestPatch1, .patch .pfs80140f02TestPatch2,
    .hook .pfsMgr219BF20Hook, .hook .iofilemgrBE7AECHook, .hook .iofilemgrBF57F8Hook,
    .hook .iofilemgrBF66E4Hook, .hook .iofilemgrBF6B6CHook, .hook .iofilemgrBF69B4Hook,
    .hook .iofilemgrBF651CHook, .hook .iofilemgrBF89ECHook, .hook .iofilemgrBF8BD4Hook,
    .hook .iofilemgrBF7C00Hook, .hook .iofilemgrBF8BB0Hook, .hook .iofilemgrBF7288Hook,
    .hook .iofilemgrBFB5F0Hook, .hook .iofilemgrBF88C4Hook, .hook .iofilemgrBFB794Hook,
    .hook .iofilemgrBF7268Hook, .hook .iofilemgrBF83A0Hook, .hook .iofilemgrBFB628Hook,
    .hook .iofilemgrBF7228Hook, .hook .iofilemgrBF83F8Hook, .hook .iofilemgrBFB748Hook,
    .hook .iofilemgrBE7F4CHook, .hook .iofilemgrBFB2A8Hook, .hook .pfsFacade4238d2d2Hook,
    .hook .iofilemgr0b54f9e0Hook, .hook .pfsFacade219C9E8Hook, .hook .pfsFacade21A179CHook,
    .hook .pfsFacade21A19A8Hook, .hook .pfsFacade219BB70Hook, .hook .pfsFacade219BDD4Hook,
    .hook .pfsFacade219BD88Hook, .hook .pfsFacadeC1dd4317Hook, .hook .pfsFacade219BEA0Hook,
    .hook .pfsFacade15c17487Hook, .patch .pfsFacade0219C328CryptoPatch1,
    .patch .pfsFacade0219C486CryptoPatch2, .patch .pfsFacade0219C3F4CryptoPatch3,
    .patch .pfsFacade0219C1F0CryptoPatch4] : List Slot)

/-! ## The two functions -/

/-- The id and reference variables. -/
structure HookVars where
  uid : Slot → Int32 := Slot.initial
  ref : Slot → UInt32 := fun _ => 0

/-- What taiHEN answers to a hook or an injection: its id, and for a hook the reference. -/
structure TaiAnswer where
  uid : Int32
  ref : UInt32

/-- The reference is written when a hook is set. -/
def Slot.getsRef (answer : Slot → TaiAnswer) (s : Slot) : Bool :=
  s.isHook && decide (0 ≤ (answer s).uid)

/-- `name_id = taiHookFunction...(..., &name_ref, ...)` or `name_uid = taiInjectData...(...)`. -/
def HookVars.install (answer : Slot → TaiAnswer) (v : HookVars) (s : Slot) : HookVars where
  uid := Function.update v.uid s (answer s).uid
  ref :=
    if s.getsRef answer then Function.update v.ref s (answer s).ref else v.ref

def initializeAllHooks (found : KernelModule → Bool) (answer : Slot → TaiAnswer) (v : HookVars) :
    HookVars :=
  blocks.foldl (fun v m => if found m then m.slots.foldl (HookVars.install answer) v else v) v

/-- `taiHookReleaseForKernel` or `taiInjectReleaseForKernel`. -/
inductive Release where
  | hook (uid : Int32) (ref : UInt32)
  | inject (uid : Int32)
  deriving DecidableEq, Repr

def HookVars.release (v : HookVars) (s : Slot) : Release :=
  if s.isHook then .hook (v.uid s) (v.ref s) else .inject (v.uid s)

/-- The releases that `deinitialize_all_hooks` makes. -/
def deinitializeAllHooks (v : HookVars) : List Release :=
  (releases.filter (fun s => decide (0 ≤ v.uid s))).map v.release

/-! ## What was installed -/

/-- The slots of the modules that were found. -/
def attempted (found : KernelModule → Bool) : List Slot :=
  (blocks.filter found).flatMap KernelModule.slots

/-- The release that undoes an installation. -/
def TaiAnswer.undo (a : TaiAnswer) (isHook : Bool) : Release :=
  if isHook then .hook a.uid a.ref else .inject a.uid

/-- What taiHEN installed, as the releases that undo it. -/
def installed (found : KernelModule → Bool) (answer : Slot → TaiAnswer) : List Release :=
  ((attempted found).filter (fun s => decide (0 ≤ (answer s).uid))).map
    (fun s => (answer s).undo s.isHook)

theorem slots_nodup : (blocks.flatMap KernelModule.slots).Nodup := by decide +kernel

theorem releases_nodup : releases.Nodup := by decide +kernel

/-- Everything that is ever set is looked at in the end. -/
theorem slots_subset_releases : blocks.flatMap KernelModule.slots ⊆ releases := by
  decide +kernel

/-- What looks valid before it is set belongs to SceSdstor or to SceSdif. -/
theorem initial_valid : ∀ s ∈ releases, 0 ≤ s.initial →
    s ∈ KernelModule.sceSdstor.slots ∨ s ∈ KernelModule.sceSdif.slots := by
  decide +kernel

theorem attempted_nodup (found : KernelModule → Bool) : (attempted found).Nodup :=
  slots_nodup.sublist (List.filter_sublist.flatMap KernelModule.slots)

theorem attempted_subset_releases (found : KernelModule → Bool) : attempted found ⊆ releases :=
  List.Subset.trans (List.filter_sublist.flatMap KernelModule.slots).subset slots_subset_releases

/-! ## The variables after the start -/

/-- The slots whose reference is set. -/
def referenced (answer : Slot → TaiAnswer) (ss : List Slot) : List Slot :=
  ss.filter (Slot.getsRef answer)

theorem install_all (answer : Slot → TaiAnswer) (ss : List Slot) (v : HookVars) :
    ss.foldl (HookVars.install answer) v =
      ⟨setAll (fun s => (answer s).uid) ss v.uid,
        setAll (fun s => (answer s).ref) (referenced answer ss) v.ref⟩ := by
  induction ss generalizing v with
  | nil => rfl
  | cons s ss ih =>
      rw [List.foldl_cons, ih]
      by_cases hs : s.getsRef answer = true
      · rw [referenced, referenced, List.filter_cons_of_pos hs, HookVars.install, if_pos hs]
        rfl
      · rw [referenced, referenced, List.filter_cons_of_neg hs, HookVars.install, if_neg hs]
        rfl

/-- The blocks of the modules that were found, as one list of slots. -/
theorem initializeAllHooks_eq (found : KernelModule → Bool) (answer : Slot → TaiAnswer)
    (v : HookVars) :
    initializeAllHooks found answer v = (attempted found).foldl (HookVars.install answer) v := by
  unfold initializeAllHooks attempted
  induction blocks generalizing v with
  | nil => rfl
  | cons m ms ih =>
      rw [List.foldl_cons, ih]
      cases hm : found m with
      | true => rw [List.filter_cons_of_pos hm, List.flatMap_cons, List.foldl_append, if_pos rfl]
      | false =>
          rw [List.filter_cons_of_neg (ne_true_of_eq_false hm), if_neg Bool.false_ne_true]

theorem uid_initializeAllHooks (found : KernelModule → Bool) (answer : Slot → TaiAnswer)
    (s : Slot) : (initializeAllHooks found answer {}).uid s =
      if s ∈ attempted found then (answer s).uid else s.initial := by
  rw [initializeAllHooks_eq, install_all]
  exact setAll_apply _ _ _ _

/-- A slot with something installed has its own id and reference. -/
theorem release_initializeAllHooks {found : KernelModule → Bool} {answer : Slot → TaiAnswer}
    {s : Slot} (hs : s ∈ attempted found) (hvalid : 0 ≤ (answer s).uid) :
    (initializeAllHooks found answer {}).release s = (answer s).undo s.isHook := by
  have huid := uid_initializeAllHooks found answer s
  rw [if_pos hs] at huid
  rw [HookVars.release, TaiAnswer.undo, huid]
  cases hhook : s.isHook with
  | false => rfl
  | true =>
      have hmem : s ∈ referenced answer (attempted found) :=
        List.mem_filter.mpr ⟨hs, by rw [Slot.getsRef, hhook, decide_eq_true hvalid]; rfl⟩
      have href : (initializeAllHooks found answer {}).ref s = (answer s).ref := by
        rw [initializeAllHooks_eq, install_all]
        exact (setAll_apply _ _ _ _).trans (if_pos hmem)
      rw [if_pos rfl, if_pos rfl, href]

/-! ## What is released -/

/-- The slots that were never set and look valid. -/
def stale (found : KernelModule → Bool) : List Slot :=
  releases.filter (fun s => decide (s ∉ attempted found) && decide (0 ≤ s.initial))

/-- The releases are those of everything installed and those of the stale slots. -/
theorem released_perm (found : KernelModule → Bool) (answer : Slot → TaiAnswer) :
    deinitializeAllHooks (initializeAllHooks found answer {}) ~
      installed found answer ++
        (stale found).map (initializeAllHooks found answer {}).release := by
  have hsweep := sweep_perm (attempted_nodup found) releases_nodup
    (attempted_subset_releases found) (fun s => decide (0 ≤ (answer s).uid))
    (fun s => decide (0 ≤ s.initial))
  have hvalid : releases.filter
      (fun s => decide (0 ≤ (initializeAllHooks found answer {}).uid s)) =
      releases.filter (fun s => if s ∈ attempted found then decide (0 ≤ (answer s).uid)
        else decide (0 ≤ s.initial)) := by
    refine List.filter_congr fun s _ => ?_
    rw [uid_initializeAllHooks]
    split <;> rfl
  have hown : ((attempted found).filter (fun s => decide (0 ≤ (answer s).uid))).map
      (initializeAllHooks found answer {}).release = installed found answer := by
    refine List.map_congr_left fun s hs => ?_
    obtain ⟨hmem, huid⟩ := List.mem_filter.mp hs
    exact release_initializeAllHooks hmem (of_decide_eq_true huid)
  have hmapped := hsweep.map (initializeAllHooks found answer {}).release
  rw [List.map_append, hown, ← hvalid] at hmapped
  exact hmapped

/-- A slot is set in the block of its module. -/
theorem mem_attempted {found : KernelModule → Bool} {s : Slot} :
    s ∈ attempted found ↔ ∃ m ∈ blocks, found m = true ∧ s ∈ m.slots := by
  simp only [attempted, List.mem_flatMap, List.mem_filter, and_assoc]

theorem genInitHookUids_module : ∀ m ∈ blocks, Slot.genInitHookUids 0 ∈ m.slots →
    m = .sceSdstor := by
  decide +kernel

theorem patchUids_module : ∀ m ∈ blocks, Slot.patchUids 0 ∈ m.slots → m = .sceSdif := by
  decide +kernel

theorem stale_eq_nil_iff (found : KernelModule → Bool) :
    stale found = [] ↔ found .sceSdstor = true ∧ found .sceSdif = true := by
  have hstale : stale found = [] ↔ ∀ s ∈ releases, 0 ≤ s.initial → s ∈ attempted found := by
    simp only [stale, List.filter_eq_nil_iff, Bool.and_eq_true, decide_eq_true_eq, not_and]
    refine forall₂_congr fun s _ => ⟨fun h hinitial => ?_, fun h hnot hinitial => hnot (h hinitial)⟩
    by_contra hnot
    exact h hnot hinitial
  rw [hstale]
  constructor
  · intro h
    obtain ⟨m, hm, hfound, hslot⟩ := mem_attempted.mp
      (h (.genInitHookUids 0) (by decide +kernel) (by decide))
    obtain ⟨m', hm', hfound', hslot'⟩ := mem_attempted.mp
      (h (.patchUids 0) (by decide +kernel) (by decide))
    rw [genInitHookUids_module m hm hslot] at hfound
    rw [patchUids_module m' hm' hslot'] at hfound'
    exact ⟨hfound, hfound'⟩
  · rintro ⟨hsdstor, hsdif⟩ s hs hinitial
    rcases initial_valid s hs hinitial with hslot | hslot
    · exact mem_attempted.mpr ⟨.sceSdstor, by decide, hsdstor, hslot⟩
    · exact mem_attempted.mpr ⟨.sceSdif, by decide, hsdif, hslot⟩

/-- **Exactly what was installed is released**, each with its own id and reference, whatever
taiHEN answers, if and only if SceSdstor and SceSdif were found. -/
theorem hooks_released_iff (found : KernelModule → Bool) (answer : Slot → TaiAnswer) :
    deinitializeAllHooks (initializeAllHooks found answer {}) ~ installed found answer ↔
      found .sceSdstor = true ∧ found .sceSdif = true := by
  rw [← stale_eq_nil_iff]
  constructor
  · intro h
    have hlength := ((released_perm found answer).symm.trans h).length_eq
    rw [List.length_append, List.length_map] at hlength
    exact List.length_eq_zero_iff.mp (by omega)
  · intro h
    have hperm := released_perm found answer
    rw [h, List.map_nil, List.append_nil] at hperm
    exact hperm

/-- With no module found nothing is installed, and eighteen releases are made with id zero. -/
theorem releases_without_modules :
    ¬ ∀ (found : KernelModule → Bool) (answer : Slot → TaiAnswer),
      deinitializeAllHooks (initializeAllHooks found answer {}) ~ installed found answer := by
  intro h
  have hlength := (h (fun _ => false) (fun _ => ⟨-1, 0⟩)).length_eq
  exact absurd hlength (by decide +kernel)

end PsvEmmc
