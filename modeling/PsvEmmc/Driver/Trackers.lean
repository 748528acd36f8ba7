/-
# `PsvEmmc.Driver.Trackers` — which call made a read fail

Most hooks of the driver on SceIofilemgr and the PFS modules look for the call
that a certain error comes from.  Each counts the calls that it sees and keeps
the last negative code, and hooks on the calls of SceAppMgr print what the
others have found.

About half of them are meant for the calls that are made while `param.sfo` is
read: the hook on that procedure sets `log_iofilemgr_in_app_mgr` before it and
clears it after it.  In the same way `g_pfs_mount_enable_log` and
`g_iofilemgr_sceVfsMount_enable_log` are set around a mount, and the report of
the mount is printed when both are.  All three flags are one for all threads.

A hook is given here by the code that it looks at and by when it looks; the
hooks have one text for the rest.
-/
import PsvEmmc.Driver.Hooks
import PsvEmmc.ErrorLogger.Hooks
import PsvEmmc.Lib.Runs
import PsvEmmc.Lib.Windows
import PsvEmmc.SegmentTable.Find

namespace PsvEmmc

open ErrorLogger Runs Windows

/-! ## Counters -/

/-- An error and a counter. -/
structure Tracked where
  err : Int32 := 0
  cnt : Int32 := 0
  deriving DecidableEq

/-- What one call does to them. -/
structure Update where
  counts : Bool
  stores : Option Int32
  deriving DecidableEq

def Tracked.apply (v : Tracked) (u : Update) : Tracked where
  err := u.stores.getD v.err
  cnt := if u.counts then v.cnt + 1 else v.cnt

/-- What some calls leave: the last code that was stored, and how many were counted. -/
def Tracked.of (us : List Update) : Tracked where
  err := (us.filterMap Update.stores).getLast?.getD 0
  cnt := Int32.ofNat (us.countP Update.counts)

/-- A code is stored when it is the one that is looked for, and else when it is negative. -/
def stored (wanted code : Int32) : Option Int32 :=
  if code = wanted then some code else if code < 0 then some code else none

def counted (wanted code : Int32) : Update := ⟨true, stored wanted code⟩

/-- A code that is kept without a counter. -/
def noted (wanted code : Int32) : Update := ⟨false, stored wanted code⟩

/-! ## What the hooks look at -/

/-- What is read through the `vfs_node` of a call: the operations of its file system, where both
pointers to it are set, and its own. -/
structure NodeOps where
  funcs1 : Option Int32
  ops : Int32

/-- A call that has returned, as its hook sees it. -/
structure Seen where
  res : Int32 := 0
  /-- `op_result`, when there is an `io_context`. -/
  opResult : Option Int32 := none
  /-- The argument `err` of `iofilemgr_BFB628`. -/
  err : Int32 := 0
  /-- The second word of `outdata`. -/
  item1 : Int32 := 0
  /-- `unk_C`, when the argument is not null. -/
  probErr : Option Int32 := none
  /-- The data of `pfs_mgr_219DE7C` started with `sao_files_db_start` before the call. -/
  isSaoFilesDb : Bool := false
  ctx : Option NodeOps := none

/-- The code that a hook counts, and when. -/
inductive Watch where
  | result (wanted : Int32)
  | resultOfSaoFilesDb (wanted : Int32)
  | gatedResult (wanted : Int32)
  | gatedOpResult (wanted : Int32)
  /-- Only when `op_result` was `0` before the call. -/
  | gatedFirstOpResult (wanted : Int32)

/-- `gate` is `log_iofilemgr_in_app_mgr`, and `prevErr` what was read before the call. -/
def Watch.update (gate : Bool) (prevErr : Int32) (c : Seen) : Watch → Option Update
  | .result wanted => some (counted wanted c.res)
  | .resultOfSaoFilesDb wanted => if c.isSaoFilesDb then some (counted wanted c.res) else none
  | .gatedResult wanted => if gate then some (counted wanted c.res) else none
  | .gatedOpResult wanted => if gate then c.opResult.map (counted wanted) else none
  | .gatedFirstOpResult wanted =>
      if gate && prevErr == 0 then c.opResult.map (counted wanted) else none

def HookName.watch : HookName → Option Watch
  | .iofilemgrBE62E8Hook | .iofilemgrBE5F10Hook | .iofilemgrBE6788Hook | .iofilemgrBEE3C8Hook
  | .iofilemgrBEBAC0Hook | .iofilemgrSceVfsGetNewNodeHook | .iofilemgrBE61C4Hook
  | .iofilemgrBEDEB0Hook | .iofilemgrBE59BCHook | .iofilemgrBE5B30Hook | .iofilemgrBF18CCHook
  | .iofilemgrBF1AF0Hook | .iofilemgrBEE364Hook | .iofilemgrBEE2D4Hook | .iofilemgrBEE2C4Hook
  | .iofilemgrBEDF5CHook | .iofilemgrBECE80Hook | .iofilemgrBEC808Hook | .iofilemgrBEC620Hook
  | .iofilemgrBEC578Hook | .iofilemgrBEC56CHook | .iofilemgrBEC530Hook | .iofilemgrBEC010Hook
  | .iofilemgrBE5A38Hook | .iofilemgrBE5814Hook | .iofilemgrBEBB84Hook | .iofilemgrBEC7C0Hook
  | .iofilemgrBECE0CHook | .iofilemgrExpAa45010bHook | .iofilemgrExp21d57633Hook
  | .iofilemgrExpDc2d8bceHook | .iofilemgrExp6b3ca9f7Hook | .pfsMgr219105CHook
  | .pfsMgr2193624Hook | .pfsMgr2198928Hook | .pfsMgr2199064Hook | .pfsMgr219DE44Hook
  | .pfsMgr2199144Hook => some (.result 0x8001008F)
  | .pfsMgr219DE7CHook => some (.resultOfSaoFilesDb 0x8001008F)
  | .iofilemgrBE8444Hook | .iofilemgr50a63acfHook | .iofilemgrBE584CHook | .iofilemgrBE5CC4Hook
  | .iofilemgrF7dac0f5Hook | .iofilemgrA5a6a55cHook | .pfsMgr21910F4Hook | .pfsMgr2193B44Hook
  | .iofilemgrBEA704Hook | .iofilemgr9e347c7dHook | .iofilemgr76b79becHook | .pfsMgr219112CHook
  | .pfsMgr2192190Hook | .pfsMgr219BF20Hook | .iofilemgrBE7AECHook | .iofilemgrBF57F8Hook
  | .iofilemgrBF66E4Hook | .iofilemgrBF6B6CHook | .iofilemgrBF69B4Hook
  | .iofilemgrBF651CHook => some (.gatedResult 0x8001008F)
  | .iofilemgrBE7F4CHook | .iofilemgrBFB2A8Hook | .pfsFacade4238d2d2Hook | .iofilemgr0b54f9e0Hook
  | .pfsFacade219C9E8Hook | .pfsFacade21A179CHook | .pfsFacade21A19A8Hook | .pfsFacade219BB70Hook
  | .pfsFacade219BDD4Hook | .pfsFacade219BD88Hook | .pfsFacadeC1dd4317Hook | .pfsFacade219BEA0Hook
  | .pfsFacade15c17487Hook => some (.gatedResult 0x80140F02)
  | .iofilemgrBF89ECHook | .iofilemgrBF8BD4Hook | .iofilemgrBF7C00Hook | .iofilemgrBF8BB0Hook
  | .iofilemgrBF7288Hook | .iofilemgrBFB5F0Hook | .iofilemgrBF88C4Hook | .iofilemgrBF7268Hook
  | .iofilemgrBF83F8Hook => some (.gatedOpResult 0x80140F02)
  | .iofilemgrBFB794Hook | .iofilemgrBF83A0Hook | .iofilemgrBFB628Hook | .iofilemgrBF7228Hook
  | .iofilemgrBFB748Hook => some (.gatedFirstOpResult 0x80140F02)
  | _ => none

/-- The code that is looked for. -/
def Watch.wanted : Watch → Int32
  | .result wanted => wanted
  | .resultOfSaoFilesDb wanted => wanted
  | .gatedResult wanted => wanted
  | .gatedOpResult wanted => wanted
  | .gatedFirstOpResult wanted => wanted

/-- The variables: the error and the counter of each hook, a second pair where a hook keeps one
more code (`_result_error`, `_ioctl_result`, `_ret`, `_err_r2`, `_prob_err`), and the two pointers
of `iofilemgr_BE5CC4_hook`, as errors without a counter. -/
inductive Tracker where
  | err (h : HookName)
  | second (h : HookName)
  | ops1
  | ops2
  deriving DecidableEq

/-- The second code of a hook. -/
def HookName.second (gate : Bool) (prevErr : Int32) (c : Seen) : HookName → Option Update
  | .iofilemgrBF66E4Hook => if gate then c.opResult.map (counted 0x80140F02) else none
  | .iofilemgrBF651CHook =>
      if gate && decide (0 ≤ c.item1) && decide (c.item1.toInt16 ≠ 0x400) then
        some ⟨true, some 1⟩
      else none
  | .iofilemgrBF7C00Hook | .iofilemgrBFB794Hook =>
      if gate then some (noted 0x80140F02 c.res) else none
  | .iofilemgrBFB628Hook =>
      if gate && prevErr == 0 then some (noted 0x80140F02 c.err) else none
  | .pfsFacade219BEA0Hook => if gate then c.probErr.map (noted 0x80140F02) else none
  | _ => none

/-- The two pointers are stored for the code that is looked for only. -/
def HookName.ops (gate : Bool) (c : Seen) (h : HookName) : Option NodeOps :=
  if h = .iofilemgrBE5CC4Hook ∧ gate = true ∧ c.res = 0x8001008F then c.ctx else none

/-- What the hook of a call that has returned does to a variable. -/
def HookName.update (gate : Bool) (prevErr : Int32) (c : Seen) (h : HookName) :
    Tracker → Option Update
  | .err h' => if h' = h then h.watch.bind (Watch.update gate prevErr c) else none
  | .second h' => if h' = h then h.second gate prevErr c else none
  | .ops1 => (h.ops gate c).bind fun ops => ops.funcs1.map fun p => ⟨false, some p⟩
  | .ops2 => (h.ops gate c).map fun ops => ⟨false, some ops.ops⟩

/-! ## Reports -/

/-- What is written in one bracket of the log. -/
abbrev Report := List (List Char)

/-- What fits in `sprintfBuffer`. -/
def printed (text : List Char) : List Char := text.take 255

def separator : List Char := "======================================\n".toList

def hexInt (w : Int32) : List Char := hex8 w.toUInt32

/-- `"<label> error: %08x cnt: %08x\n"`. -/
def trackerLine (label : String) (v : Tracked) : List Char :=
  printed (label.toList ++ " error: ".toList ++ hexInt v.err ++ " cnt: ".toList ++ hexInt v.cnt ++
    ['\n'])

/-- `"<label> error: %08x cnt: %08x <last>: %08x\n"`. -/
def trackerLineWith (label last : String) (v w : Tracked) : List Char :=
  printed (label.toList ++ " error: ".toList ++ hexInt v.err ++ " cnt: ".toList ++ hexInt v.cnt ++
    ' ' :: last.toList ++ ": ".toList ++ hexInt w.err ++ ['\n'])

/-- The line for one of the pointers, when it is set and lies in a segment. -/
def opsLine (table : SegmentTable) (label : String) (ops : Tracked) : Report :=
  if ops.err = 0 then []
  else
    match table.entryAt (findInSegments segListSize table ops.err.toUInt32) with
    | none => []
    | some e =>
        [printed (label.toList ++ ": ".toList ++ hexInt ops.err ++ ' ' ::
          (e.moduleName.toList.takeWhile (· ≠ 0)).map (fun b => Char.ofNat b.toNat) ++ ' ' ::
          (toString e.seg.toInt).toList ++ ' ' :: hex8 e.range.start ++ ' ' ::
          hex8 (ops.err.toUInt32 - e.range.start) ++ ['\n'])]

/-- `app_mgr_23EF934_hook`. -/
def readProcReport (res : Int32) : Report :=
  [separator,
    printed ("called app_mgr_23EF934_hook:\nres: ".toList ++ hexInt res ++ ['\n']), separator]

/-- `iofilemgr_BF3474_hook`; the error is printed for operation 3. -/
def pfsMountReport (res : Int32) (error : Option Int32) : Report :=
  [separator, printed ("called iofilemgr_BF3474_hook:\nres: ".toList ++ hexInt res ++ ['\n'])] ++
    error.toList.map (fun e => printed ("20: ".toList ++ hexInt e ++ ['\n'])) ++ [separator]

/-- The fields of a `vfs_mount_point_info_base`, and of its block device, that are printed. -/
structure MountInfo where
  unixMount : List Char
  filesystem : List Char
  devMajor : UInt32
  devMinor : UInt32
  vitaMount : List Char
  blockDevFilesystem : List Char
  blockDevicePrimary : List Char
  vshMountId : UInt32

/-- The lines of the trackers in the report of a mount. -/
def vfsMountTrackers : List (String × HookName) :=
  [("g_iofilemgr_BE62E8_hook", .iofilemgrBE62E8Hook),
   ("g_iofilemgr_BE6788_hook", .iofilemgrBE6788Hook),
   ("g_iofilemgr_BE5F10_hook", .iofilemgrBE5F10Hook),
   ("g_iofilemgr_BEE3C8_hook", .iofilemgrBEE3C8Hook),
   ("g_iofilemgr_BEBAC0_hook", .iofilemgrBEBAC0Hook),
   ("g_iofilemgr_sceVfsGetNewNode_hook", .iofilemgrSceVfsGetNewNodeHook),
   ("g_iofilemgr_BE61C4_hook", .iofilemgrBE61C4Hook),
   ("g_iofilemgr_BEDEB0_hook", .iofilemgrBEDEB0Hook),
   ("g_iofilemgr_BE59BC_hook", .iofilemgrBE59BCHook),
   ("g_iofilemgr_BE5B30_hook", .iofilemgrBE5B30Hook),
   ("g_iofilemgr_BF18CC_hook", .iofilemgrBF18CCHook),
   ("g_iofilemgr_BF1AF0_hook", .iofilemgrBF1AF0Hook),
   ("g_pfs_mgr_219105C_hook", .pfsMgr219105CHook),
   ("g_pfs_mgr_2193624_hook", .pfsMgr2193624Hook),
   ("g_pfs_mgr_2198928_hook", .pfsMgr2198928Hook),
   ("g_pfs_mgr_2199064_hook", .pfsMgr2199064Hook),
   ("g_pfs_mgr_219DE44_hook", .pfsMgr219DE44Hook),
   ("g_pfs_mgr_219DE7C_hook", .pfsMgr219DE7CHook),
   ("g_pfs_mgr_2199144_hook", .pfsMgr2199144Hook)]

/-- `iofilemgr_sceVfsMount_hook`. -/
def vfsMountReport (info : MountInfo) (res : Int32) (values : Tracker → Tracked) : Report :=
  [separator,
    printed ("called iofilemgr_sceVfsMount_hook:\nres: ".toList ++ hexInt res ++ ['\n']),
    printed ("unixMount: ".toList ++ info.unixMount ++ " filesystem: ".toList ++
      info.filesystem ++ ['\n']),
    printed ("devMajor: ".toList ++ hex8 info.devMajor ++ " devMinor: ".toList ++
      hex8 info.devMinor ++ ['\n']),
    printed ("vitaMount: ".toList ++ info.vitaMount ++ " filesystem: ".toList ++
      info.blockDevFilesystem ++ ['\n']),
    printed ("blockDevicePrimary: ".toList ++ info.blockDevicePrimary ++ " vshMountId: ".toList ++
      hex8 info.vshMountId ++ ['\n'])] ++
  vfsMountTrackers.map (fun p => trackerLine p.1 (values (.err p.2))) ++ [separator]

/-- `app_mgr_75c96d25_hook`. -/
def getstatReport (table : SegmentTable) (file : List Char) (res : Int32)
    (values : Tracker → Tracked) : Report :=
  [separator,
    printed ("called ksceIoGetstat:\nfile: ".toList ++ file ++ " res: ".toList ++ hexInt res ++
      ['\n']),
    trackerLine "iofilemgr_BE8444_hook" (values (.err .iofilemgrBE8444Hook)),
    trackerLine "g_iofilemgr_BE6788_hook" (values (.err .iofilemgrBE6788Hook)),
    trackerLine "iofilemgr_BE5CC4_hook" (values (.err .iofilemgrBE5CC4Hook))] ++
  opsLine table "ops1" (values .ops1) ++ opsLine table "ops2" (values .ops2) ++
  [trackerLine "iofilemgr_a5a6a55c_hook" (values (.err .iofilemgrA5a6a55cHook)),
    trackerLine "pfs_mgr_21910F4_hook" (values (.err .pfsMgr21910F4Hook)),
    trackerLine "pfs_mgr_2193B44_hook" (values (.err .pfsMgr2193B44Hook)), separator]

/-- `app_mgr_75192972_hook`. -/
def openReport (name : List Char) (res : Int32) (values : Tracker → Tracked) : Report :=
  [separator,
    printed ("called ksceIoOpen:\nname: ".toList ++ name ++ " res: ".toList ++ hexInt res ++
      ['\n']),
    trackerLine "iofilemgr_BEA704_hook" (values (.err .iofilemgrBEA704Hook)),
    trackerLine "pfs_mgr_219112C_hook" (values (.err .pfsMgr219112CHook)),
    trackerLine "pfs_mgr_2192190_hook" (values (.err .pfsMgr2192190Hook)), separator]

/-- `"%02x "`, of a `char` without a sign. -/
def hexByte (b : UInt8) : List Char :=
  [Nat.digitChar (b.toNat / 16), Nat.digitChar (b.toNat % 16), ' ']

/-- `"pfs_facade_219BEA0_hook error: %08x error_C: %08x cnt: %08x\n"`. -/
def probErrLine (v w : Tracked) : List Char :=
  printed ("pfs_facade_219BEA0_hook error: ".toList ++ hexInt v.err ++ " error_C: ".toList ++
    hexInt w.err ++ " cnt: ".toList ++ hexInt v.cnt ++ ['\n'])

/-- `app_mgr_e17efc03_hook`; at most sixteen bytes of what was read are printed. -/
def readReport (fd : Int32) (size : Int32) (res : Int32) (data : List UInt8)
    (values : Tracker → Tracked) : Report :=
  [separator,
    printed ("called sceIoReadForDriver:\nfd: ".toList ++ hexInt fd ++ " size: ".toList ++
      hexInt size ++ " res: ".toList ++ hexInt res ++ ['\n']),
    trackerLine "iofilemgr_BE7AEC_hook (read)" (values (.err .iofilemgrBE7AECHook)),
    trackerLine "iofilemgr_BF57F8_hook (callback)" (values (.err .iofilemgrBF57F8Hook)),
    trackerLine "iofilemgr_BF66E4_hook" (values (.err .iofilemgrBF66E4Hook)),
    trackerLine "iofilemgr_BF66E4_hook_result" (values (.second .iofilemgrBF66E4Hook)),
    trackerLine "iofilemgr_BF6B6C_hook" (values (.err .iofilemgrBF6B6CHook)),
    trackerLine "iofilemgr_BF651C_hook (ioctl)" (values (.err .iofilemgrBF651CHook)),
    trackerLine "iofilemgr_BF651C_hook_ioctl_result" (values (.second .iofilemgrBF651CHook)),
    trackerLine "iofilemgr_BF89EC_hook" (values (.err .iofilemgrBF89ECHook)),
    trackerLine "iofilemgr_BF8BD4_hook" (values (.err .iofilemgrBF8BD4Hook)),
    trackerLineWith "iofilemgr_BF7C00_hook" "ret" (values (.err .iofilemgrBF7C00Hook))
      (values (.second .iofilemgrBF7C00Hook)),
    trackerLineWith "iofilemgr_BFB794_hook" "ret" (values (.err .iofilemgrBFB794Hook))
      (values (.second .iofilemgrBFB794Hook)),
    trackerLineWith "iofilemgr_BFB628_hook" "err2" (values (.err .iofilemgrBFB628Hook))
      (values (.second .iofilemgrBFB628Hook)),
    trackerLine "iofilemgr_BE7F4C_hook" (values (.err .iofilemgrBE7F4CHook)),
    trackerLine "iofilemgr_BFB2A8_hook" (values (.err .iofilemgrBFB2A8Hook)),
    trackerLine "pfs_facade_4238d2d2_hook" (values (.err .pfsFacade4238d2d2Hook)),
    trackerLine "iofilemgr_0b54f9e0_hook" (values (.err .iofilemgr0b54f9e0Hook)),
    trackerLine "pfs_facade_219C9E8_hook" (values (.err .pfsFacade219C9E8Hook)),
    probErrLine (values (.err .pfsFacade219BEA0Hook)) (values (.second .pfsFacade219BEA0Hook)),
    separator] ++
  (data.take (min 0x10 size.toInt).toNat).map hexByte ++ [['\n'], separator]

/-- The variables that are set to `0` when a read has been reported. -/
def resetByRead : List Tracker := [.err .iofilemgrBF651CHook, .second .iofilemgrBF651CHook]

end PsvEmmc
