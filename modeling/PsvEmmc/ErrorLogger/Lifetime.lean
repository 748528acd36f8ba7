/-
# `PsvEmmc.ErrorLogger.Lifetime` — what the error_logger leaves behind

`initialize_all_hooks` creates a mutex, sets the hooks of the modules that are
loaded, writes for each of thirty hooks whether it is set, and starts
`ListenerThread`.  `deinitialize_all_hooks` releases the hooks whose id is not
negative, waits for the thread, and deletes the thread and the mutex.

All ids start at `-1`, so exactly the hooks that were set are released, with
their own references, and the log has told the truth about each of them.  But
nothing ends the thread.  The wait has a timeout of `0` and returns at once,
and a thread that runs is not deleted: it polls the globals of a module that
is no longer there (`logger_unload`).
-/
import PsvEmmc.ErrorLogger.Hooks
import PsvEmmc.Lib.Ledger
import PsvEmmc.Lib.Slots

namespace PsvEmmc.ErrorLogger

open Runs Ledger Slots
open scoped List

/-! ## The hooks -/

/-- The hooks with an `_id` and a `_ref`, set or not. -/
inductive HookVar where
  | sceErrorGetExternalString | sceKernelCreateThread | paramSfoVerifySpsfo | sceKernelLoadModule
  | sceKernelLoadStartModule | paramSfoVerifySpsfoShell | procGcParamSfo83F2CEA0
  | procGcParamSfo83F6B554 | procGcParamSfo83F74B30 | proc83F258F8 | proc83F27424 | proc83F2407A
  | proc83F25592 | proc83F24534 | proc83F24D96 | proc8430F028 | queueWorkerEntry2834DED94
  | scePafAllocateMem | proc83F20D36 | scePafGraphicsB976a154 | scePafGraphicsB2eca849
  | scePafGraphics7c8b2a63 | scePafGraphicsA97584eb | scePafGraphicsC84832a2
  | scePafGraphicsB228a257 | scePafMiscB9fb9bd6 | proc83F23D5C | proc83F275CC | proc83F10C5A
  | sceAppMgrGameDataMount
  deriving DecidableEq

/-- The function that is set as a hook. -/
def HookVar.name : HookVar → String
  | .sceErrorGetExternalString => "sceErrorGetExternalString_hook"
  | .sceKernelCreateThread => "sceKernelCreateThread_hook"
  | .paramSfoVerifySpsfo => "param_sfo_verifySpsfo_hook"
  | .sceKernelLoadModule => "sceKernelLoadModule_hook"
  | .sceKernelLoadStartModule => "sceKernelLoadStartModule_hook"
  | .paramSfoVerifySpsfoShell => "param_sfo_verifySpsfo_shell_hook"
  | .procGcParamSfo83F2CEA0 => "proc_gc_param_sfo_83F2CEA0_hook"
  | .procGcParamSfo83F6B554 => "proc_gc_param_sfo_83F6B554_hook"
  | .procGcParamSfo83F74B30 => "proc_gc_param_sfo_83F74B30_hook"
  | .proc83F258F8 => "proc_83F258F8_hook"
  | .proc83F27424 => "proc_83F27424_hook"
  | .proc83F2407A => "proc_83F2407A_hook"
  | .proc83F25592 => "proc_83F25592_hook"
  | .proc83F24534 => "proc_83F24534_hook"
  | .proc83F24D96 => "proc_83F24D96_hook"
  | .proc8430F028 => "proc_8430F028_hook"
  | .queueWorkerEntry2834DED94 => "queue_worker_entry2_834DED94_hook"
  | .scePafAllocateMem => "scePafAllocateMem_hook"
  | .proc83F20D36 => "proc_83F20D36_hook"
  | .scePafGraphicsB976a154 => "scePafGraphics_b976a154_hook"
  | .scePafGraphicsB2eca849 => "scePafGraphics_b2eca849_hook"
  | .scePafGraphics7c8b2a63 => "scePafGraphics_7c8b2a63_hook"
  | .scePafGraphicsA97584eb => "scePafGraphics_a97584eb_hook"
  | .scePafGraphicsC84832a2 => "scePafGraphics_c84832a2_hook"
  | .scePafGraphicsB228a257 => "scePafGraphics_b228a257_hook"
  | .scePafMiscB9fb9bd6 => "scePafMisc_b9fb9bd6_hook"
  | .proc83F23D5C => "proc_83F23D5C_hook"
  | .proc83F275CC => "proc_83F275CC_hook"
  | .proc83F10C5A => "proc_83F10C5A_hook"
  | .sceAppMgrGameDataMount => "sceAppMgrGameDataMount_hook"

/-- The hooks in the order in which the log tells of them. -/
def reported : List HookVar :=
  [.sceErrorGetExternalString, .sceKernelCreateThread, .paramSfoVerifySpsfo, .sceKernelLoadModule,
    .sceKernelLoadStartModule, .paramSfoVerifySpsfoShell, .procGcParamSfo83F2CEA0,
    .procGcParamSfo83F6B554, .procGcParamSfo83F74B30, .proc83F258F8, .proc83F27424, .proc83F2407A,
    .proc83F25592, .proc83F24534, .proc83F24D96, .proc8430F028, .queueWorkerEntry2834DED94,
    .scePafAllocateMem, .proc83F20D36, .scePafGraphicsB976a154, .scePafGraphicsB2eca849,
    .scePafGraphics7c8b2a63, .scePafGraphicsA97584eb, .scePafGraphicsC84832a2,
    .scePafGraphicsB228a257, .scePafMiscB9fb9bd6, .proc83F23D5C, .proc83F275CC, .proc83F10C5A,
    .sceAppMgrGameDataMount]

/-- The hooks in the order in which they are released. -/
def swept : List HookVar :=
  [.sceErrorGetExternalString, .sceKernelCreateThread, .paramSfoVerifySpsfo, .sceKernelLoadModule,
    .sceKernelLoadStartModule, .paramSfoVerifySpsfoShell, .procGcParamSfo83F2CEA0,
    .procGcParamSfo83F6B554, .procGcParamSfo83F74B30, .proc83F258F8, .proc83F27424, .proc83F2407A,
    .proc83F25592, .proc83F24D96, .proc83F24534, .proc8430F028, .queueWorkerEntry2834DED94,
    .scePafAllocateMem, .proc83F20D36, .scePafGraphicsB976a154, .scePafGraphicsB2eca849,
    .scePafGraphics7c8b2a63, .scePafGraphicsA97584eb, .scePafGraphicsC84832a2,
    .scePafGraphicsB228a257, .scePafMiscB9fb9bd6, .proc83F23D5C, .proc83F275CC, .proc83F10C5A,
    .sceAppMgrGameDataMount]

/-- The modules that `initialize_all_hooks` looks for. -/
inductive UserModule where
  | sceShell | scePaf | sceDriverUser | sceLibKernel | sceGameCardInstallerPlugin
  deriving DecidableEq

def userModules : List UserModule :=
  [.sceShell, .scePaf, .sceDriverUser, .sceLibKernel, .sceGameCardInstallerPlugin]

/-- What is set for a module; the other hooks are commented out. -/
def UserModule.hooks : UserModule → List HookVar
  | .sceShell =>
      [.paramSfoVerifySpsfoShell, .procGcParamSfo83F2CEA0, .procGcParamSfo83F6B554,
        .procGcParamSfo83F74B30, .proc83F258F8, .proc83F24534, .sceAppMgrGameDataMount]
  | .scePaf => [.scePafGraphicsB976a154, .scePafGraphicsB228a257]
  | .sceDriverUser => []
  | .sceLibKernel => []
  | .sceGameCardInstallerPlugin => [.paramSfoVerifySpsfo]

/-! ## The two functions -/

/-- The id of a hook and its reference. -/
structure HookAnswer where
  uid : Int32
  ref : UInt32
  deriving DecidableEq

inductive LoggerResource where
  | mutex (id : Int32)
  | hook (h : HookAnswer)
  | thread (id : Int32)
  deriving DecidableEq

/-- What the kernel and taiHEN answer; `printError` is what `print_error` writes for a code. -/
structure LoggerAnswers where
  mutex : Int32
  moduleInfo : UserModule → Int32
  hook : HookVar → HookAnswer
  thread : Int32
  startThread : Int32
  printError : Int32 → List (List Char)

/-- `taiGetModuleInfo` finds the module. -/
def LoggerAnswers.finds (k : LoggerAnswers) (m : UserModule) : Bool := decide (0 ≤ k.moduleInfo m)

/-- taiHEN sets the hook. -/
def LoggerAnswers.sets (k : LoggerAnswers) (h : HookVar) : Bool := decide (0 ≤ (k.hook h).uid)

/-- The variables, whether the thread runs, the lines of the log, and what was acquired and
released. -/
structure LoggerSt where
  hookId : HookVar → Int32 := fun _ => -1
  hookRef : HookVar → UInt32 := fun _ => 0
  createThreadMutex : Int32 := 0
  listenerThread : Int32 := 0
  listens : Bool := false
  log : List (List Char) := []
  books : List (Entry LoggerResource) := []

namespace LoggerSt

def logs (s : LoggerSt) (lines : List (List Char)) : LoggerSt := { s with log := s.log ++ lines }

def keepsBooks (s : LoggerSt) (es : List (Entry LoggerResource)) : LoggerSt :=
  { s with books := s.books ++ es }

/-- `name_id = taiHookFunction...(&name_ref, ...)`. -/
def install (k : LoggerAnswers) (s : LoggerSt) (h : HookVar) : LoggerSt :=
  { s with
    hookId := Function.update s.hookId h (k.hook h).uid
    hookRef := if k.sets h then Function.update s.hookRef h (k.hook h).ref else s.hookRef
    books := s.books ++ if k.sets h then [.acquire (.hook (k.hook h))] else [] }

def createsMutex (k : LoggerAnswers) (s : LoggerSt) : LoggerSt :=
  let s := { s with createThreadMutex := k.mutex }
  if k.mutex < 0 then s.logs ["failed to create CreateThreadMutex\n".toList]
  else s.keepsBooks [.acquire (.mutex k.mutex)]

def installs (k : LoggerAnswers) (s : LoggerSt) : LoggerSt :=
  userModules.foldl
    (fun s m => if k.finds m then m.hooks.foldl (install k) s else s) s

def setLine (h : HookVar) : List Char := "set ".toList ++ h.name.toList ++ ['\n']

def failedLines (k : LoggerAnswers) (h : HookVar) (id : Int32) : List (List Char) :=
  ("failed to set ".toList ++ h.name.toList ++ ':' :: ' ' :: hex8 id.toUInt32 ++ ['\n']) ::
    k.printError id

/-- What is written for a hook with this id. -/
def report (k : LoggerAnswers) (h : HookVar) (id : Int32) : List (List Char) :=
  if 0 ≤ id then [setLine h] else failedLines k h id

/-- What is written when `SceGameCardInstallerPlugin` is not there. -/
def pluginReport (k : LoggerAnswers) : List (List Char) :=
  if k.finds .sceGameCardInstallerPlugin then []
  else
    ("failed to get SceGameCardInstallerPlugin module info : ".toList ++
        hex8 (k.moduleInfo .sceGameCardInstallerPlugin).toUInt32 ++ ['\n']) ::
      k.printError (k.moduleInfo .sceGameCardInstallerPlugin)

def reports (k : LoggerAnswers) (s : LoggerSt) : LoggerSt :=
  s.logs (pluginReport k ++ reported.flatMap fun h => report k h (s.hookId h))

def startsThread (k : LoggerAnswers) (s : LoggerSt) : LoggerSt :=
  let s := { s with listenerThread := k.thread }
  if 0 ≤ k.thread then
    { s.keepsBooks [.acquire (.thread k.thread)] with listens := decide (0 ≤ k.startThread) }
  else s.logs ["failed to create ListenerThread\n".toList]

def initializeAllHooks (k : LoggerAnswers) (s : LoggerSt) : LoggerSt :=
  (((s.createsMutex k).installs k).reports k).startsThread k

/-- `taiHookRelease`. -/
def release (s : LoggerSt) (h : HookVar) : Entry LoggerResource :=
  .release (.hook ⟨s.hookId h, s.hookRef h⟩)

/-- `sceKernelWaitThreadEnd` does not wait, and `sceKernelDeleteThread` fails while the thread
runs. -/
def deletesThread (s : LoggerSt) : List (Entry LoggerResource) :=
  .use (.thread s.listenerThread) ::
    if s.listens then [] else [.release (.thread s.listenerThread)]

def deinitializeAllHooks (s : LoggerSt) : LoggerSt :=
  s.keepsBooks ((swept.filter fun h => decide (0 ≤ s.hookId h)).map s.release ++
    (s.deletesThread ++ [.release (.mutex s.createThreadMutex)]))

end LoggerSt

/-! ## What was set -/

/-- The hooks of the modules that are there. -/
def attempted (k : LoggerAnswers) : List HookVar :=
  (userModules.filter k.finds).flatMap UserModule.hooks

/-- The hooks that are set. -/
def installed (k : LoggerAnswers) : List HookVar :=
  (attempted k).filter k.sets

theorem hooks_nodup : (userModules.flatMap UserModule.hooks).Nodup := by decide

theorem attempted_nodup (k : LoggerAnswers) : (attempted k).Nodup :=
  hooks_nodup.sublist (List.filter_sublist.flatMap UserModule.hooks)

namespace LoggerSt

theorem install_all (k : LoggerAnswers) (hs : List HookVar) (s : LoggerSt) :
    hs.foldl (install k) s =
      { s with
        hookId := setAll (fun h => (k.hook h).uid) hs s.hookId
        hookRef := setAll (fun h => (k.hook h).ref) (hs.filter k.sets) s.hookRef
        books := s.books ++ ((hs.filter k.sets).map
          fun h => LoggerResource.hook (k.hook h)).map .acquire } := by
  induction hs generalizing s with
  | nil => rw [List.filter_nil, List.map_nil, List.map_nil, List.append_nil]; rfl
  | cons h hs ih =>
      rw [List.foldl_cons, ih]
      by_cases hsets : k.sets h = true
      · rw [List.filter_cons_of_pos hsets, install, if_pos hsets, if_pos hsets, List.map_cons,
          List.map_cons]
        dsimp only
        rw [List.append_assoc]
        rfl
      · rw [List.filter_cons_of_neg hsets, install, if_neg hsets, if_neg hsets, List.append_nil]
        rfl

/-- What the hooks that are set are to taiHEN. -/
def hookResources (k : LoggerAnswers) : List LoggerResource :=
  (installed k).map fun h => .hook (k.hook h)

/-- What the kernel and taiHEN gave at the start. -/
def acquired (k : LoggerAnswers) : List LoggerResource :=
  (if k.mutex < 0 then [] else [.mutex k.mutex]) ++ hookResources k ++
    if 0 ≤ k.thread then [.thread k.thread] else []

/-- The state after the start. -/
structure Started (k : LoggerAnswers) (s : LoggerSt) : Prop where
  hookId : s.hookId = setAll (fun h => (k.hook h).uid) (attempted k) fun _ => -1
  hookRef : s.hookRef = setAll (fun h => (k.hook h).ref) (installed k) fun _ => 0
  createThreadMutex : s.createThreadMutex = k.mutex
  listenerThread : s.listenerThread = k.thread
  listens : s.listens = (decide (0 ≤ k.thread) && decide (0 ≤ k.startThread))
  books : s.books = (acquired k).map .acquire

/-- What is left when the mutex and the thread were given. -/
def left (k : LoggerAnswers) : List LoggerResource :=
  if 0 ≤ k.startThread then [.thread k.thread] else []

end LoggerSt

end PsvEmmc.ErrorLogger
