/-
# `PsvEmmc.Driver.TrackerRuns` — reports on calls of several threads

A report is right when it shows what the hooks saw of the calls that were made
while `param.sfo` was being read, or a mount was being made, and when it is
printed because one is.  The hooks ask a flag for that, and the first of
several calls that returns clears the flag for the others.

So the state of a run holds next to the variables of the driver what they
should be: the calls in progress that set a flag, what was to be counted, and
the reports that were due.  The reports are right whatever is called next
exactly when each flag is cleared by the last of these calls, and is cleared
by it (`reports_right_iff`).  A mount looks at its arguments again when it
returns, so it may also leave the flag of `param.sfo` alone and its own set.

What a hook does after its original function is one step here, with the whole
report; it is written through the shared buffer of the log, and two threads
that write there at a time lose messages (`PsvEmmc.Driver.LogBuffer`).
-/
import PsvEmmc.Driver.Trackers

namespace PsvEmmc

open ErrorLogger Runs Windows

/-! ## Runs of the hooks -/

/-- The three flags. -/
inductive Gate where
  | logIofilemgrInAppMgr
  | gPfsMountEnableLog
  | gIofilemgrSceVfsMountEnableLog
  deriving DecidableEq

/-- A call in progress, and where its hook is. -/
inductive HookCall where
  | readProc
  | pfsMount
  | vfsMount
  | vfsMountReturned
  | tracked (h : HookName)
  deriving DecidableEq

/-- The steps of the hooks; calls are numbered.  What a hook does after its call is one step, or
two for `iofilemgr_sceVfsMount_hook`. -/
inductive TrackStep where
  | readProcBegins (t : Nat)
  | readProcEnds (t : Nat) (res : Int32)
  /-- With the `operation`, when the argument is not null. -/
  | pfsMountBegins (t : Nat) (operation : Option UInt32)
  | pfsMountEnds (t : Nat) (res : Int32) (ctx : Option (UInt32 × Int32))
  /-- With the `filesystem`, when the argument has one. -/
  | vfsMountBegins (t : Nat) (filesystem : Option String)
  | vfsMountReturns (t : Nat) (info : MountInfo) (res : Int32)
  | vfsMountEnds (t : Nat) (filesystem : Option String)
  | trackedBegins (t : Nat) (h : HookName) (opResult : Option Int32)
  | trackedEnds (t : Nat) (h : HookName) (c : Seen)
  | getstat (file : List Char) (res : Int32)
  | opens (name : List Char) (res : Int32)
  | reads (fd size res : Int32) (data : List UInt8)

structure TrackSt where
  windows : Gate → Window Nat := fun _ => {}
  calls : Nat → Option HookCall := fun _ => none
  /-- `prev_err` of the hooks that look before the call. -/
  prevErr : Nat → Int32 := fun _ => -1
  values : Tracker → Tracked := fun _ => {}
  log : List Report := []
  /-- What `prev_err` was to be. -/
  begun : Nat → Int32 := fun _ => -1
  /-- What was to be counted and stored. -/
  history : Tracker → List Update := fun _ => []
  /-- What was to be printed. -/
  due : List Report := []

namespace TrackSt

def flag (s : TrackSt) (g : Gate) : Bool := (s.windows g).flag

def busy (s : TrackSt) (g : Gate) : Bool := (s.windows g).busy

/-- The values that were to be there. -/
def dueValues (s : TrackSt) (k : Tracker) : Tracked := .of (s.history k)

def onWindow (s : TrackSt) (g : Gate) (f : Window Nat → Window Nat) : TrackSt :=
  { s with windows := Function.update s.windows g (f (s.windows g)) }

def onCall (s : TrackSt) (t : Nat) (c : Option HookCall) : TrackSt :=
  { s with calls := Function.update s.calls t c }

/-- A report is printed, and was to be. -/
def reports (s : TrackSt) (printed isDue : Bool) (r : (Tracker → Tracked) → Report) : TrackSt :=
  { s with
    log := if printed then s.log ++ [r s.values] else s.log
    due := if isDue then s.due ++ [r s.dueValues] else s.due }

/-- A call is recorded, and was to be. -/
def records (s : TrackSt) (u u' : Tracker → Option Update) : TrackSt :=
  { s with
    values := fun k => (u k).elim (s.values k) (s.values k).apply
    history := fun k => s.history k ++ (u' k).toList }

/-- Some variables are reset, and were to be. -/
def resets (s : TrackSt) (ks : List Tracker) (reset isDue : Bool) : TrackSt :=
  { s with
    values := fun k => if reset && decide (k ∈ ks) then {} else s.values k
    history := fun k => if isDue && decide (k ∈ ks) then [] else s.history k }

/-- What a hook that looks before the call finds. -/
def before (s : TrackSt) (t : Nat) (gate isDue : Bool) (opResult : Option Int32) : TrackSt :=
  { s with
    prevErr := Function.update s.prevErr t (if gate then opResult.getD (-1) else -1)
    begun := Function.update s.begun t (if isDue then opResult.getD (-1) else -1) }

/-- A report on reading `param.sfo`. -/
def reportsRead (s : TrackSt) (r : (Tracker → Tracked) → Report) : TrackSt :=
  s.reports (s.flag .logIofilemgrInAppMgr) (s.busy .logIofilemgrInAppMgr) r

end TrackSt

/-- `ctx > 0` and `ctx->operation == 3`. -/
def isPfsMount (operation : Option UInt32) : Bool := operation == some 3

/-- The comparison with `"PFS_GDSD_INF"`. -/
def isGameDataMount (filesystem : Option String) : Bool := filesystem == some "PFS_GDSD_INF"

/-- `table` is the table of the kernel's segments. -/
def TrackSt.step (table : SegmentTable) (s : TrackSt) : TrackStep → TrackSt
  | .readProcBegins t =>
      (s.onWindow .logIofilemgrInAppMgr (·.enter t true)).onCall t (some .readProc)
  | .readProcEnds t res =>
      ((s.onWindow .logIofilemgrInAppMgr (·.leave t true)).onCall t none).reports true true
        fun _ => readProcReport res
  | .pfsMountBegins t operation =>
      (s.onWindow .gPfsMountEnableLog (·.enter t (isPfsMount operation))).onCall t (some .pfsMount)
  | .pfsMountEnds t res ctx =>
      let error := if isPfsMount (ctx.map (·.1)) then ctx.map (·.2) else none
      ((s.reports true true fun _ => pfsMountReport res error).onWindow .gPfsMountEnableLog
        (·.leave t (isPfsMount (ctx.map (·.1))))).onCall t none
  | .vfsMountBegins t filesystem =>
      (s.onWindow .gIofilemgrSceVfsMountEnableLog
        (·.enter t (isGameDataMount filesystem))).onCall t (some .vfsMount)
  | .vfsMountReturns t info res =>
      (s.onCall t (some .vfsMountReturned)).reports
        (s.flag .gPfsMountEnableLog && s.flag .gIofilemgrSceVfsMountEnableLog)
        (s.busy .gPfsMountEnableLog && s.busy .gIofilemgrSceVfsMountEnableLog)
        (vfsMountReport info res)
  | .vfsMountEnds t filesystem =>
      (s.onWindow .gIofilemgrSceVfsMountEnableLog
        (·.leave t (isGameDataMount filesystem))).onCall t none
  | .trackedBegins t h opResult =>
      (s.before t (s.flag .logIofilemgrInAppMgr) (s.busy .logIofilemgrInAppMgr) opResult).onCall t
        (some (.tracked h))
  | .trackedEnds t h c =>
      (s.records (h.update (s.flag .logIofilemgrInAppMgr) (s.prevErr t) c)
        (h.update (s.busy .logIofilemgrInAppMgr) (s.begun t) c)).onCall t none
  | .getstat file res => s.reportsRead (getstatReport table file res)
  | .opens name res => s.reportsRead (openReport name res)
  | .reads fd size res data =>
      (s.reportsRead (readReport fd size res data)).resets resetByRead
        (s.flag .logIofilemgrInAppMgr) (s.busy .logIofilemgrInAppMgr)

/-- The steps of a call follow one another, and `iofilemgr_BF66E4_hook` is called with a context,
which it does not test. -/
def TrackSt.Follows (s : TrackSt) : TrackStep → Prop
  | .readProcBegins t => s.calls t = none
  | .readProcEnds t _ => s.calls t = some .readProc
  | .pfsMountBegins t _ => s.calls t = none
  | .pfsMountEnds t _ _ => s.calls t = some .pfsMount
  | .vfsMountBegins t _ => s.calls t = none
  | .vfsMountReturns t _ _ => s.calls t = some .vfsMount
  | .vfsMountEnds t _ => s.calls t = some .vfsMountReturned
  | .trackedBegins t _ _ => s.calls t = none
  | .trackedEnds t h c =>
      s.calls t = some (.tracked h) ∧ (h = .iofilemgrBF66E4Hook → c.opResult.isSome = true)
  | _ => True

/-- The flag that a step may clear, and whether it does. -/
def TrackStep.lowers : TrackStep → Option (Gate × Nat × Bool)
  | .readProcEnds t _ => some (.logIofilemgrInAppMgr, t, true)
  | .pfsMountEnds t _ ctx => some (.gPfsMountEnableLog, t, isPfsMount (ctx.map (·.1)))
  | .vfsMountEnds t filesystem =>
      some (.gIofilemgrSceVfsMountEnableLog, t, isGameDataMount filesystem)
  | _ => none

/-- A flag is cleared by the last call in progress that has set it, and is cleared by it. -/
def ClearsInTurn (s : TrackSt) (e : TrackStep) : Prop :=
  ∀ g t lowers, e.lowers = some (g, t, lowers) → (s.windows g).InTurn t lowers

/-- The variables and the log are what they should be. -/
def TrackSt.Right (s : TrackSt) : Prop :=
  (∀ k, s.values k = s.dueValues k) ∧ s.log = s.due

/-! ## The counters count -/

theorem Tracked.of_append (us : List Update) (u : Update) :
    Tracked.of (us ++ [u]) = (Tracked.of us).apply u := by
  have herr : ((us ++ [u]).filterMap Update.stores).getLast?.getD 0 =
      u.stores.getD ((us.filterMap Update.stores).getLast?.getD 0) := by
    rw [List.filterMap_append]
    cases hu : u.stores with
    | none => simp [hu]
    | some code => simp [hu]
  have hcnt : Int32.ofNat ((us ++ [u]).countP Update.counts) =
      if u.counts then Int32.ofNat (us.countP Update.counts) + 1
      else Int32.ofNat (us.countP Update.counts) := by
    rw [List.countP_append]
    cases hu : u.counts with
    | false => simp [hu]
    | true => simp [hu, Int32.ofNat_add]
  rw [Tracked.of, Tracked.apply, herr, hcnt, Tracked.of]

theorem Tracked.of_append_toList (us : List Update) (u : Option Update) :
    Tracked.of (us ++ u.toList) = u.elim (Tracked.of us) (Tracked.of us).apply := by
  cases u with
  | none => rw [Option.toList_none, List.append_nil, Option.elim_none]
  | some u => exact Tracked.of_append us u

theorem TrackSt.Right.values_eq {s : TrackSt} (h : s.Right) : s.values = s.dueValues :=
  funext h.1

theorem TrackSt.Right.reports {s : TrackSt} (h : s.Right) (b : Bool)
    (r : (Tracker → Tracked) → Report) : (s.reports b b r).Right := by
  refine ⟨h.1, ?_⟩
  rw [TrackSt.reports]
  dsimp only
  rw [h.2, h.values_eq]

theorem TrackSt.Right.records {s : TrackSt} (h : s.Right) (u : Tracker → Option Update) :
    (s.records u u).Right := by
  refine ⟨fun k => ?_, h.2⟩
  rw [TrackSt.records, TrackSt.dueValues]
  dsimp only
  rw [Tracked.of_append_toList, h.1 k, TrackSt.dueValues]

theorem TrackSt.Right.resets {s : TrackSt} (h : s.Right) (ks : List Tracker) (b : Bool) :
    (s.resets ks b b).Right := by
  refine ⟨fun k => ?_, h.2⟩
  rw [TrackSt.resets, TrackSt.dueValues]
  dsimp only
  by_cases hk : (b && decide (k ∈ ks)) = true
  · rw [if_pos hk, if_pos hk]
    rfl
  · rw [if_neg hk, if_neg hk]
    exact h.1 k

/-- A report that is printed and not due, or due and not printed. -/
theorem TrackSt.Right.not_reports {s : TrackSt} (h : s.Right) {printed isDue : Bool}
    (hne : printed ≠ isDue) (r : (Tracker → Tracked) → Report) :
    ¬ (s.reports printed isDue r).Right := by
  intro hright
  have hlog := congrArg List.length hright.2
  have hbefore := congrArg List.length h.2
  rw [TrackSt.reports] at hlog
  cases printed <;> cases isDue
  · exact hne rfl
  · simp only [Bool.false_eq_true, if_false, if_true, List.length_append, List.length_cons,
      List.length_nil] at hlog
    omega
  · simp only [Bool.false_eq_true, if_false, if_true, List.length_append, List.length_cons,
      List.length_nil] at hlog
    omega
  · exact hne rfl

theorem ne_add_one (n : Int32) : n ≠ n + 1 := by
  grind

/-- A call that is counted and was not to be, or was to be and is not. -/
theorem TrackSt.Right.not_records {s : TrackSt} (h : s.Right) {gate isDue : Bool}
    (hne : gate ≠ isDue) {u u' : Tracker → Option Update} {k : Tracker} {stores : Option Int32}
    (hu : u k = if gate then some ⟨true, stores⟩ else none)
    (hu' : u' k = if isDue then some ⟨true, stores⟩ else none) : ¬ (s.records u u').Right := by
  intro hright
  have hvalue := hright.1 k
  rw [TrackSt.records, TrackSt.dueValues] at hvalue
  dsimp only at hvalue
  rw [Tracked.of_append_toList, h.1 k, TrackSt.dueValues, hu, hu'] at hvalue
  have hcnt := congrArg Tracked.cnt hvalue
  cases gate <;> cases isDue
  · exact hne rfl
  · exact ne_add_one _ hcnt
  · exact ne_add_one _ hcnt.symm
  · exact hne rfl

/-! ## While the flags tell the truth -/

structure TrackInv (s : TrackSt) : Prop where
  honest : ∀ g, (s.windows g).Honest
  right : s.Right
  prevErr : s.prevErr = s.begun
  fresh : ∃ n, ∀ t, n ≤ t → s.calls t = none

theorem TrackInv.flag {s : TrackSt} (h : TrackInv s) (g : Gate) : s.flag g = s.busy g :=
  h.honest g

theorem trackInv_boot : TrackInv {} where
  honest _ := Window.honest_empty
  right := ⟨fun _ => rfl, rfl⟩
  prevErr := rfl
  fresh := ⟨0, fun _ _ => rfl⟩

theorem windows_onWindow (s : TrackSt) (g : Gate) (f : Window Nat → Window Nat) :
    (s.onWindow g f).windows g = f (s.windows g) :=
  Function.update_self ..

theorem windows_onWindow_of_ne (s : TrackSt) {g g' : Gate} (hne : g' ≠ g)
    (f : Window Nat → Window Nat) : (s.onWindow g f).windows g' = s.windows g' :=
  Function.update_of_ne hne ..

theorem TrackInv.onWindow {s : TrackSt} (h : TrackInv s) (g : Gate) {f : Window Nat → Window Nat}
    (hf : (f (s.windows g)).Honest) : TrackInv (s.onWindow g f) where
  honest g' := by
    rcases eq_or_ne g' g with rfl | hne
    · rw [windows_onWindow]
      exact hf
    · rw [windows_onWindow_of_ne s hne]
      exact h.honest g'
  right := h.right
  prevErr := h.prevErr
  fresh := h.fresh

theorem fresh_onCall {s : TrackSt} (h : ∃ n, ∀ t, n ≤ t → s.calls t = none) (t : Nat)
    (c : Option HookCall) : ∃ n, ∀ u, n ≤ u → (s.onCall t c).calls u = none := by
  obtain ⟨n, hn⟩ := h
  refine ⟨max n (t + 1), fun u hu => ?_⟩
  have hne : u ≠ t := by omega
  exact (Function.update_of_ne hne ..).trans (hn u (by omega))

theorem TrackInv.onCall {s : TrackSt} (h : TrackInv s) (t : Nat) (c : Option HookCall) :
    TrackInv (s.onCall t c) :=
  ⟨h.honest, h.right, h.prevErr, fresh_onCall h.fresh t c⟩

theorem TrackInv.reports {s : TrackSt} (h : TrackInv s) (b : Bool)
    (r : (Tracker → Tracked) → Report) : TrackInv (s.reports b b r) :=
  ⟨h.honest, h.right.reports b r, h.prevErr, h.fresh⟩

theorem TrackInv.records {s : TrackSt} (h : TrackInv s) (u : Tracker → Option Update) :
    TrackInv (s.records u u) :=
  ⟨h.honest, h.right.records u, h.prevErr, h.fresh⟩

theorem TrackInv.resets {s : TrackSt} (h : TrackInv s) (ks : List Tracker) (b : Bool) :
    TrackInv (s.resets ks b b) :=
  ⟨h.honest, h.right.resets ks b, h.prevErr, h.fresh⟩

theorem TrackInv.before {s : TrackSt} (h : TrackInv s) (t : Nat) (b : Bool)
    (opResult : Option Int32) : TrackInv (s.before t b b opResult) := by
  refine ⟨h.honest, h.right, ?_, h.fresh⟩
  rw [TrackSt.before, h.prevErr]

theorem TrackInv.leaves {s : TrackSt} (h : TrackInv s) {g : Gate} {t : Nat} {lowers : Bool}
    (hturn : (s.windows g).InTurn t lowers) : TrackInv (s.onWindow g (·.leave t lowers)) :=
  h.onWindow g ((Window.honest_leave_iff (h.honest g) t lowers).mpr hturn)

theorem TrackInv.enters {s : TrackSt} (h : TrackInv s) (g : Gate) (t : Nat) (raises : Bool) :
    TrackInv (s.onWindow g (·.enter t raises)) :=
  h.onWindow g ((h.honest g).enter t raises)

theorem TrackInv.step {table : SegmentTable} {s : TrackSt} (h : TrackInv s) {e : TrackStep}
    (he : ClearsInTurn s e) : TrackInv (s.step table e) := by
  cases e with
  | readProcBegins t => exact (h.enters _ t true).onCall t _
  | readProcEnds t res =>
      exact ((h.leaves (he _ _ _ rfl)).onCall t _).reports true fun _ => readProcReport res
  | pfsMountBegins t operation => exact (h.enters _ t _).onCall t _
  | pfsMountEnds t res ctx =>
      exact ((h.reports true _).leaves (he _ _ _ rfl)).onCall t _
  | vfsMountBegins t filesystem => exact (h.enters _ t _).onCall t _
  | vfsMountReturns t info res =>
      rw [TrackSt.step, h.flag, h.flag]
      exact (h.onCall t _).reports _ _
  | vfsMountEnds t filesystem => exact (h.leaves (he _ _ _ rfl)).onCall t _
  | trackedBegins t hook opResult =>
      rw [TrackSt.step, h.flag]
      exact (h.before t _ opResult).onCall t _
  | trackedEnds t hook c =>
      rw [TrackSt.step, h.flag, h.prevErr]
      exact (h.records _).onCall t _
  | getstat file res =>
      rw [TrackSt.step, TrackSt.reportsRead, h.flag]
      exact h.reports _ _
  | opens name res =>
      rw [TrackSt.step, TrackSt.reportsRead, h.flag]
      exact h.reports _ _
  | reads fd size res data =>
      rw [TrackSt.step, TrackSt.reportsRead, h.flag]
      exact (h.reports _ _).resets _ _

/-! ## When a flag does not tell the truth -/

/-- The flag `g` is wrong, and nothing else is yet. -/
structure Astray (g : Gate) (s : TrackSt) : Prop where
  lies : s.flag g ≠ s.busy g
  honest : ∀ g', g' ≠ g → s.flag g' = s.busy g'
  right : s.Right
  fresh : ∃ n, ∀ t, n ≤ t → s.calls t = none

theorem TrackInv.astray {s : TrackSt} (h : TrackInv s) {g : Gate} {t : Nat} {lowers : Bool}
    (hturn : ¬ (s.windows g).InTurn t lowers) : Astray g (s.onWindow g (·.leave t lowers)) where
  lies := by
    rw [TrackSt.flag, TrackSt.busy, windows_onWindow]
    exact mt (Window.honest_leave_iff (h.honest g) t lowers).mp hturn
  honest g' hne := by
    rw [TrackSt.flag, TrackSt.busy, windows_onWindow_of_ne s hne]
    exact h.honest g'
  right := h.right
  fresh := h.fresh

theorem Astray.onCall {g : Gate} {s : TrackSt} (h : Astray g s) (t : Nat) (c : Option HookCall) :
    Astray g (s.onCall t c) :=
  ⟨h.lies, h.honest, h.right, fresh_onCall h.fresh t c⟩

theorem Astray.reports {g : Gate} {s : TrackSt} (h : Astray g s)
    (r : (Tracker → Tracked) → Report) : Astray g (s.reports true true r) :=
  ⟨h.lies, h.honest, h.right.reports true r, h.fresh⟩

/-- A step that is not in turn leads astray. -/
theorem TrackInv.astray_step (table : SegmentTable) {s : TrackSt} (h : TrackInv s) {e : TrackStep}
    (he : ¬ ClearsInTurn s e) : ∃ g, Astray g (s.step table e) := by
  simp only [ClearsInTurn, not_forall] at he
  obtain ⟨g, t, lowers, hlowers, hturn⟩ := he
  cases e with
  | readProcEnds u res =>
      cases hlowers
      exact ⟨_, ((h.astray hturn).onCall t _).reports fun _ => readProcReport res⟩
  | pfsMountEnds u res ctx =>
      cases hlowers
      exact ⟨_, ((h.reports true _).astray hturn).onCall t _⟩
  | vfsMountEnds u filesystem =>
      cases hlowers
      exact ⟨_, (h.astray hturn).onCall t _⟩
  | _ => cases hlowers

/-- A call of `iofilemgr_BE8444` that fails. -/
def failingCall (t : Nat) : List TrackStep :=
  [.trackedBegins t .iofilemgrBE8444Hook none, .trackedEnds t .iofilemgrBE8444Hook { res := -1 }]

theorem update_failingCall (gate : Bool) (prevErr : Int32) :
    HookName.update gate prevErr { res := -1 } .iofilemgrBE8444Hook (.err .iofilemgrBE8444Hook) =
      if gate then some ⟨true, some (-1)⟩ else none := by
  cases gate <;> rfl

/-- A call that fails while the flag is wrong. -/
theorem Astray.failingCall {table : SegmentTable} {s : TrackSt}
    (h : Astray .logIofilemgrInAppMgr s) {t : Nat} (ht : s.calls t = none) :
    Along (TrackSt.step table) TrackSt.Follows s (failingCall t) ∧
      ¬ (run (TrackSt.step table) s (failingCall t)).Right := by
  refine ⟨⟨ht, ⟨Function.update_self .., fun hook => by cases hook⟩, trivial⟩, ?_⟩
  exact TrackSt.Right.not_records h.right h.lies (update_failingCall ..) (update_failingCall ..)

/-- A mount of game data that has returned. -/
def gameDataMount (t : Nat) (info : MountInfo) : List TrackStep :=
  [.vfsMountBegins t (some "PFS_GDSD_INF"), .vfsMountReturns t info 0]

theorem Astray.gameDataMount {table : SegmentTable} {s : TrackSt}
    (h : Astray .gPfsMountEnableLog s) {t : Nat} (ht : s.calls t = none) (info : MountInfo) :
    Along (TrackSt.step table) TrackSt.Follows s (gameDataMount t info) ∧
      ¬ (run (TrackSt.step table) s (gameDataMount t info)).Right := by
  refine ⟨⟨ht, Function.update_self .., trivial⟩, ?_⟩
  refine TrackSt.Right.not_reports h.right ?_ _
  change (s.flag .gPfsMountEnableLog && true) ≠ (s.busy .gPfsMountEnableLog && true)
  rw [Bool.and_true, Bool.and_true]
  exact h.lies

/-- A mount of something else, while operation 3 is in progress. -/
def otherMount (t u : Nat) (info : MountInfo) : List TrackStep :=
  [.pfsMountBegins t (some 3), .vfsMountBegins u none, .vfsMountReturns u info 0]

theorem Astray.otherMount {table : SegmentTable} {s : TrackSt}
    (h : Astray .gIofilemgrSceVfsMountEnableLog s) {t u : Nat} (ht : s.calls t = none)
    (hu : s.calls u = none) (hne : u ≠ t) (info : MountInfo) :
    Along (TrackSt.step table) TrackSt.Follows s (otherMount t u info) ∧
      ¬ (run (TrackSt.step table) s (otherMount t u info)).Right := by
  refine ⟨⟨ht, ?_, Function.update_self .., trivial⟩, ?_⟩
  · exact (Function.update_of_ne hne ..).trans hu
  refine TrackSt.Right.not_reports h.right ?_ _
  change (true && s.flag .gIofilemgrSceVfsMountEnableLog) ≠
    (true && s.busy .gIofilemgrSceVfsMountEnableLog)
  rw [Bool.true_and, Bool.true_and]
  exact h.lies

/-- What shows that a flag is wrong. -/
theorem Astray.shows {table : SegmentTable} {g : Gate} {s : TrackSt} (h : Astray g s) :
    ∃ ws, (∀ w ∈ ws, w.lowers = none) ∧ Along (TrackSt.step table) TrackSt.Follows s ws ∧
      ¬ (run (TrackSt.step table) s ws).Right := by
  obtain ⟨n, hn⟩ := h.fresh
  have hfree : s.calls n = none := hn n (le_refl n)
  have hfree' : s.calls (n + 1) = none := hn (n + 1) (Nat.le_succ n)
  let info : MountInfo := ⟨[], [], 0, 0, [], [], [], 0⟩
  cases g with
  | logIofilemgrInAppMgr =>
      refine ⟨_, ?_, h.failingCall hfree⟩
      simp [PsvEmmc.failingCall, TrackStep.lowers]
  | gPfsMountEnableLog =>
      refine ⟨_, ?_, h.gameDataMount hfree info⟩
      simp [PsvEmmc.gameDataMount, TrackStep.lowers]
  | gIofilemgrSceVfsMountEnableLog =>
      refine ⟨_, ?_, h.otherMount hfree hfree' (Nat.succ_ne_self n) info⟩
      simp [PsvEmmc.otherMount, TrackStep.lowers]

/-- **Are the reports right?**  When no two reports are written at a time: at every moment of a
run, and whatever is called next until a flag may be cleared, the counters are those of the calls made while the flag's procedure was in
progress and the log has the reports that were due, with these counters: exactly when every
flag is cleared by the last call in progress that has set it, and cleared by it. -/
theorem reports_right_iff (table : SegmentTable) {es : List TrackStep}
    (hes : Along (TrackSt.step table) TrackSt.Follows {} es) :
    (∀ p ws, p <+: es → (∀ w ∈ ws, w.lowers = none) →
        Along (TrackSt.step table) TrackSt.Follows {} (p ++ ws) →
      (run (TrackSt.step table) {} (p ++ ws)).Right) ↔
    Along (TrackSt.step table) ClearsInTurn {} es := by
  refine along_iff_completions (I := TrackInv) (fun s e h he => h.step he.2) (fun s h => h.right)
    (fun s e he g t lowers hlowers => ?_) (fun s e h _ he => ?_) trackInv_boot hes
  · cases he.symm.trans hlowers
  · obtain ⟨g, hastray⟩ := h.astray_step table he
    exact hastray.shows

instance decFollowsTrackSt (s : TrackSt) (e : TrackStep) : Decidable (s.Follows e) := by
  cases e <;> unfold TrackSt.Follows <;> infer_instance

/-- Two threads read a `param.sfo`, and the first returns. -/
def twoReads : List TrackStep := [.readProcBegins 0, .readProcBegins 1, .readProcEnds 0 0]

/-- From then on what the second calls is not counted. -/
theorem report_missed :
    ¬ ∀ p ws, p <+: twoReads → (∀ w ∈ ws, w.lowers = none) →
        Along (TrackSt.step ⟨fun _ => SegmentInfo.filler, 0⟩) TrackSt.Follows {} (p ++ ws) →
      (run (TrackSt.step ⟨fun _ => SegmentInfo.filler, 0⟩) {} (p ++ ws)).Right := by
  have hfollows :
      Along (TrackSt.step ⟨fun _ => SegmentInfo.filler, 0⟩) TrackSt.Follows {} twoReads := by
    decide
  refine (reports_right_iff _ hfollows).not.mpr ?_
  rintro ⟨-, -, hturn, -⟩
  have hlast := hturn .logIofilemgrInAppMgr 0 true rfl
  exact absurd hlast (by decide)

end PsvEmmc
