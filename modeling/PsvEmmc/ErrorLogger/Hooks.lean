/-
# `PsvEmmc.ErrorLogger.Hooks` — hooks that leave their record in globals

A hook of the error_logger does not log.  It copies what it was called with
and the result to globals of its own and sets its `called` flag, and the
listener thread prints the globals when it finds the flag set.

A hook is given here by the order in which it stores the fields of its record
and sets the flag, and by the lines that the listener prints for it.  A store
copies fields that are written with nothing between them; the hooked function
runs where a hook stores fields both before and after it.  The hook of
`scePafAllocateMem` is not among them: its stores and its flag are commented
out.
-/
import Mathlib

namespace PsvEmmc.ErrorLogger

/-! ## Records and lines -/

/-- The fields of the records of all hooks. -/
inductive Field where
  | arg0 | arg1 | arg2 | arg3 | arg4 | unk | ctx | arg | ctx14 | file | path | result | res
  deriving DecidableEq

/-- A record: a word for each field, and the string of a path. -/
structure Record where
  word : Field → UInt32 := fun _ => 0
  path : List Char := []

/-- Globals after some fields of a record were stored. -/
def Record.store (globals r : Record) (fields : List Field) : Record where
  word f := if f ∈ fields then r.word f else globals.word f
  path := if Field.path ∈ fields then r.path else globals.path

/-- `%08x`. -/
def hex8 (w : UInt32) : List Char :=
  (List.range 8).map fun i => Nat.digitChar (w.toNat / 16 ^ (7 - i) % 16)

/-- A call of `sceClibSnprintf`: its format and the globals it prints. -/
structure Format where
  format : String
  args : List Field
  deriving DecidableEq

/-- The text of a format. -/
def expand (r : Record) : List Char → List Field → List Char
  | '%' :: '0' :: '8' :: 'x' :: cs, f :: fs => hex8 (r.word f) ++ expand r cs fs
  | '%' :: 's' :: cs, .path :: fs => r.path ++ expand r cs fs
  | c :: cs, fs => c :: expand r cs fs
  | [], _ => []

def Format.text (f : Format) (r : Record) : List Char := expand r f.format.toList f.args

/-- What fits in `sprintfBuffer`. -/
def Format.print (f : Format) (r : Record) : List Char := (f.text r).take 255

/-! ## Hooks -/

/-- A step of a hook. -/
inductive Action where
  | stores (fields : List Field)
  | calls
  deriving DecidableEq

structure Hook where
  program : List Action
  lines : List Format
  deriving DecidableEq

/-- A hook that stores all fields in one go, sets its flag and prints one line. -/
def Hook.storing (fields : List Field) (format : String) (args : List Field) : Hook where
  program := [.stores fields, .calls]
  lines := [⟨format, args⟩]

def paramSfoVerifySpsfoHook : Hook :=
  .storing [.path, .file, .res] "called param_sfo_verifySpsfo_hook:\npath: %s res: %08x\n"
    [.path, .res]

def paramSfoVerifySpsfoShellHook : Hook :=
  .storing [.path, .file, .res] "called param_sfo_verifySpsfo_shell_hook:\npath: %s res: %08x\n"
    [.path, .res]

def procGcParamSfo83F2CEA0Hook : Hook :=
  .storing [.unk, .res] "called proc_gc_param_sfo_83F2CEA0_hook:\narg: %08x res: %08x\n"
    [.unk, .res]

def proc83F2407AHook : Hook :=
  .storing [.arg0, .arg1, .arg2, .res]
    "called proc_83F2407A_hook:\n arg0: %08x arg1: %08x arg2: %08x res: %08x\n"
    [.arg0, .arg1, .arg2, .res]

def proc83F25592Hook : Hook where
  program := [.stores [.ctx14], .stores [.arg0, .arg1, .res], .calls]
  lines :=
    [⟨"called proc_83F25592_hook:\n arg0: %08x arg1: %08x ctx14: %08x res: %08x\n",
      [.arg0, .arg1, .ctx14, .res]⟩]

def proc83F24534Hook : Hook where
  program := [.stores [.ctx14], .stores [.arg0, .arg1, .arg2, .arg3, .arg4, .res], .calls]
  lines :=
    [⟨"called proc_83F24534_hook:\n arg0: %08x arg1: %08x arg2: %08x arg3: %08x arg4: %08x ctx14: %08x res: %08x\n",
      [.arg0, .arg1, .arg2, .arg3, .arg4, .ctx14, .res]⟩]

def proc83F24D96Hook : Hook where
  program := [.stores [.ctx14], .stores [.arg0, .arg1, .arg2, .arg3, .arg4, .res], .calls]
  lines :=
    [⟨"called proc_83F24D96_hook:\n arg0: %08x arg1: %08x arg2: %08x arg3: %08x arg4: %08x ctx14: %08x res: %08x\n",
      [.arg0, .arg1, .arg2, .arg3, .arg4, .ctx14, .res]⟩]

def proc83F258F8Hook : Hook where
  program := [.stores [.arg0, .arg1, .arg2, .ctx14], .stores [.res], .calls]
  lines :=
    [⟨"called proc_83F258F8_hook:\narg0: %08x arg1: %08x arg2: %08x ctx14: %08x res: %08x\n",
      [.arg0, .arg1, .arg2, .ctx14, .res]⟩]

/-- Sets its flag before it stores its record. -/
def proc83F27424Hook : Hook where
  program := [.calls, .stores [.arg0, .arg1, .res]]
  lines :=
    [⟨"called proc_83F27424_hook:\narg0: %08x arg1: %08x res: %08x\n", [.arg0, .arg1, .res]⟩]

def proc8430F028Hook : Hook where
  program := [.stores [.ctx, .arg, .ctx14], .stores [.res], .calls]
  lines :=
    [⟨"called proc_8430F028_hook:\nctx: %08x arg: %08x ctx14: %08x res: %08x\n",
      [.ctx, .arg, .ctx14, .res]⟩]

/-- Sets its flag before it stores its record, and is printed in two lines. -/
def proc83F20D36Hook : Hook where
  program := [.calls, .stores [.ctx, .arg1, .arg2, .res, .arg, .ctx14]]
  lines :=
    [⟨"called proc_83F20D36_hook:\nctx: %08x arg: %08x ctx14: %08x\n", [.ctx, .arg, .ctx14]⟩,
      ⟨"arg1: %08x arg2: %08x res: %08x\n", [.arg1, .arg2, .res]⟩]

def queueWorkerEntry2834DED94Hook : Hook :=
  .storing [.ctx, .arg, .ctx14, .res]
    "called queue_worker_entry2_834DED94_hook:\nctx: %08x arg: %08x ctx14: %08x res: %08x\n"
    [.ctx, .arg, .ctx14, .res]

def scePafGraphicsB976a154Hook : Hook :=
  .storing [.ctx14] "called scePafGraphics_b976a154_hook:\nctx14: %08x\n" [.ctx14]

def scePafGraphicsB2eca849Hook : Hook :=
  .storing [.ctx14] "called scePafGraphics_b2eca849_hook:\nctx14: %08x\n" [.ctx14]

def scePafGraphics7c8b2a63Hook : Hook :=
  .storing [.ctx14] "called scePafGraphics_7c8b2a63_hook:\nctx14: %08x\n" [.ctx14]

def scePafGraphicsA97584ebHook : Hook :=
  .storing [] "called scePafGraphics_a97584eb_hook:\n" []

def scePafGraphicsC84832a2Hook : Hook :=
  .storing [] "called scePafGraphics_c84832a2_hook:\n" []

def scePafGraphicsB228a257Hook : Hook :=
  .storing [] "called scePafGraphics_b228a257_hook:\n" []

def proc83F23D5CHook : Hook :=
  .storing [] "called Shell proc_83F23D5C_hook:\n" []

def proc83F275CCHook : Hook :=
  .storing [.res] "called Shell proc_83F275CC_hook:\nres: %08x\n" [.res]

def proc83F10C5AHook : Hook :=
  .storing [.res] "called Shell proc_83F10C5A_hook:\nres: %08x\n" [.res]

def scePafMiscB9fb9bd6Hook : Hook :=
  .storing [.result, .res] "called scePafMisc_b9fb9bd6_hook:\nresult: %08x res: %08x\n"
    [.result, .res]

def sceAppMgrGameDataMountHook : Hook :=
  .storing [.res] "called AppMgr sceAppMgrGameDataMount_hook:\nres: %08x\n" [.res]

def hooks : List Hook :=
  [paramSfoVerifySpsfoHook, paramSfoVerifySpsfoShellHook, procGcParamSfo83F2CEA0Hook,
    proc83F2407AHook, proc83F25592Hook, proc83F24534Hook, proc83F24D96Hook, proc83F258F8Hook,
    proc83F27424Hook, proc8430F028Hook, proc83F20D36Hook, queueWorkerEntry2834DED94Hook,
    scePafGraphicsB976a154Hook, scePafGraphicsB2eca849Hook, scePafGraphics7c8b2a63Hook,
    scePafGraphicsA97584ebHook, scePafGraphicsC84832a2Hook, scePafGraphicsB228a257Hook,
    proc83F23D5CHook, proc83F275CCHook, proc83F10C5AHook, scePafMiscB9fb9bd6Hook,
    sceAppMgrGameDataMountHook]

/-! ## What the hooks have in common -/

/-- The fields that some steps store. -/
def storedFields (program : List Action) : List Field :=
  program.flatMap fun a =>
    match a with
    | .stores fields => fields
    | .calls => []

/-- What is printed was stored. -/
def Hook.PrintsStored (h : Hook) : Prop :=
  ∀ f ∈ h.lines, ∀ a ∈ f.args, a ∈ storedFields h.program

/-- The flag is set behind all stores. -/
def Hook.CallsLast (h : Hook) : Prop :=
  h.program.getLast? = some .calls ∧ .calls ∉ h.program.dropLast

instance (h : Hook) : Decidable h.PrintsStored :=
  inferInstanceAs (Decidable (∀ f ∈ h.lines, ∀ a ∈ f.args, _))

instance (h : Hook) : Decidable h.CallsLast := inferInstanceAs (Decidable (_ ∧ _))

theorem hooks_printsStored : ∀ h ∈ hooks, h.PrintsStored := by decide

/-- All but two set their flag behind all stores. -/
theorem hooks_callsLast_iff :
    ∀ h ∈ hooks, h.CallsLast ↔ h ∉ [proc83F27424Hook, proc83F20D36Hook] := by
  decide

/-- A text depends on the fields it prints. -/
theorem expand_congr {r r' : Record} {cs : List Char} {fs : List Field}
    (hword : ∀ f ∈ fs, r.word f = r'.word f) (hpath : Field.path ∈ fs → r.path = r'.path) :
    expand r cs fs = expand r' cs fs := by
  fun_induction expand r cs fs with
  | case1 cs f fs ih =>
      rw [expand, hword f List.mem_cons_self,
        ih (fun g hg => hword g (List.mem_cons_of_mem f hg))
          (fun hp => hpath (List.mem_cons_of_mem f hp))]
  | case2 cs fs ih =>
      rw [expand, hpath List.mem_cons_self,
        ih (fun g hg => hword g (List.mem_cons_of_mem _ hg))
          (fun hp => hpath (List.mem_cons_of_mem _ hp))]
  | case3 c cs fs h h' ih =>
      rw [expand, ih hword hpath]
      · exact h
      · exact h'
  | case4 fs => rfl

/-- After its fields were stored the globals print a record as it is. -/
theorem Format.text_congr {f : Format} {globals r : Record}
    (hword : ∀ a ∈ f.args, globals.word a = r.word a)
    (hpath : Field.path ∈ f.args → globals.path = r.path) : f.text globals = f.text r :=
  expand_congr hword hpath

end PsvEmmc.ErrorLogger
