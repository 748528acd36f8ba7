/-
# `PsvEmmc.Driver.VfsHooks` — the hooks on the file system of the storage driver

`driver/hooks_vfs_ops.c` hooks thirteen operations of `sdstor_dev_fs`.  A
hook lets the original function run with `TAI_CONTINUE`, logs the call and
returns the original's result.  Eleven of them guard the logging with a flag
of their own, which is set while the first lines are written, and return `-1`
at once when they find it set: a log write comes back through the same file
system.  Behind the update that clears the flag they log again, a blank line
at least, and nothing guards that.  The two hooks on reads and writes have the
guard and the logging commented out.

A call goes through five steps, the test of the flag, the original function,
the two updates of the flag and the return, with log writes between the two
updates and behind them.  Other calls, of other threads, may come between any
two, and a log write may make calls of its own (`VfsCall.parent`): the call
that logs waits until they have returned.

A call has its original invoked once and returns that result unless it was
refused at the flag (`VfsSt.Settled`).
-/
import PsvEmmc.Lib.Runs

namespace PsvEmmc

open Runs

/-! ## The thirteen hooks -/

/-- A hook: the entry of `sdstor_dev_fs_refs` that it continues with, and whether it has an
`entered` flag. -/
structure VfsHook where
  ref : Fin 13
  guarded : Bool
  deriving DecidableEq, Repr

/-- Test the flag, continue, set the flag, log, clear it. -/
def loggingHook (ref : Fin 13) : VfsHook := ⟨ref, true⟩

/-- Continue and count the call. -/
def countingHook (ref : Fin 13) : VfsHook := ⟨ref, false⟩

def vfsFunc1 := loggingHook 0
def vfsFunc3 := loggingHook 1
def vfsFunc12 := loggingHook 2
def vfsFunc13 := loggingHook 3
def vfsNodeFunc1 := loggingHook 4
def vfsNodeFunc3 := loggingHook 5
def vfsNodeFunc4 := loggingHook 6
def vfsNodeFunc5 := countingHook 7
def vfsNodeFunc6 := countingHook 8
def vfsNodeFunc7 := loggingHook 9
def vfsNodeFunc9 := loggingHook 10
def vfsNodeFunc19 := loggingHook 11
def vfsNodeFunc20 := loggingHook 12

/-- `sdstor_dev_fs_functions`: the hook that stands before each operation. -/
def sdstorDevFsFunctions : Vector VfsHook 13 :=
  #v[vfsFunc1, vfsFunc3, vfsFunc12, vfsFunc13, vfsNodeFunc1, vfsNodeFunc3, vfsNodeFunc4,
    vfsNodeFunc5, vfsNodeFunc6, vfsNodeFunc7, vfsNodeFunc9, vfsNodeFunc19, vfsNodeFunc20]

/-- The hook before an operation continues with that operation. -/
theorem sdstorDevFsFunctions_ref : ∀ op : Fin 13, (sdstorDevFsFunctions.get op).ref = op := by
  decide

/-! ## Calls under way -/

/-- A call of the file system: the operation, its argument, and the call whose log write makes it,
if it is one. -/
structure VfsCall (κ γ : Type*) where
  op : Fin 13
  ctx : γ
  parent : Option κ := none

def VfsCall.hook {κ γ : Type*} (c : VfsCall κ γ) : VfsHook := sdstorDevFsFunctions.get c.op

theorem VfsCall.hook_ref {κ γ : Type*} (c : VfsCall κ γ) : c.hook.ref = c.op :=
  sdstorDevFsFunctions_ref c.op

/-- Where a call is, with the result of the original function once it has one. -/
inductive Phase where
  | fresh
  | passed
  | continued (res : Int32)
  | logging (res : Int32)
  | logged (res : Int32)
  | returned (res : Int32)
  deriving DecidableEq, Repr

/-- The call was made and has not returned. -/
def Phase.underWay : Phase → Bool
  | .fresh => false
  | .returned _ => false
  | _ => true

/-- The call writes to the log: between the two updates of the flag, or behind them. -/
def Phase.writes : Phase → Bool
  | .logging _ => true
  | .logged _ => true
  | _ => false

/-- An invocation of an original function. -/
structure Invocation (κ γ : Type*) where
  call : κ
  op : Fin 13
  ctx : γ
  res : Int32
  deriving DecidableEq

/-- A step of a call; the original function answers `res`. -/
inductive VfsStep (κ : Type*) where
  | enters (c : κ)
  | continues (c : κ) (res : Int32)
  | sets (c : κ)
  | clears (c : κ)
  | returns (c : κ)

/-- The flags, the phase of every call, the call that each waits for, and the invocations of
original functions. -/
structure VfsSt (κ γ : Type*) where
  entered : Fin 13 → Bool := fun _ => false
  phase : κ → Phase := fun _ => .fresh
  awaits : κ → Option κ := fun _ => none
  originals : List (Invocation κ γ) := []

section
variable {κ γ : Type*} [DecidableEq κ] (call : κ → VfsCall κ γ)

/-- The state with a call in a new phase. -/
def VfsSt.move (s : VfsSt κ γ) (c : κ) (p : Phase) : VfsSt κ γ :=
  { s with phase := Function.update s.phase c p }

omit [DecidableEq κ] in
/-- A call from a log write comes while that call writes and waits for no other. -/
def VfsSt.mayEnter (s : VfsSt κ γ) (c : κ) : Bool :=
  match (call c).parent with
  | none => true
  | some p => (s.phase p).writes && (s.awaits p).isNone

/-- The call that `c` comes from waits for `d`. -/
def VfsSt.parentAwaits (s : VfsSt κ γ) (c : κ) (d : Option κ) : κ → Option κ :=
  match (call c).parent with
  | none => s.awaits
  | some p => Function.update s.awaits p d

/-- One step of a call; a step that is not due does nothing. -/
def VfsSt.step (s : VfsSt κ γ) : VfsStep κ → VfsSt κ γ
  | .enters c =>
      match s.phase c, s.mayEnter call c with
      | .fresh, true =>
          if (call c).hook.guarded && s.entered (call c).hook.ref then s.move c (.returned (-1))
          else { s.move c .passed with awaits := s.parentAwaits call c (some c) }
      | _, _ => s
  | .continues c res =>
      match s.phase c with
      | .passed =>
          { s.move c (.continued res) with
            originals := ⟨c, (call c).hook.ref, (call c).ctx, res⟩ :: s.originals }
      | _ => s
  | .sets c =>
      match s.phase c, (call c).hook.guarded with
      | .continued res, true =>
          { s.move c (.logging res) with
            entered := Function.update s.entered (call c).hook.ref true }
      | _, _ => s
  | .clears c =>
      match s.phase c, s.awaits c with
      | .logging res, none =>
          { s.move c (.logged res) with
            entered := Function.update s.entered (call c).hook.ref false }
      | _, _ => s
  | .returns c =>
      match s.phase c, (call c).hook.guarded, s.awaits c with
      | .logged res, _, none =>
          { s.move c (.returned res) with awaits := s.parentAwaits call c none }
      | .continued res, false, _ =>
          { s.move c (.returned res) with awaits := s.parentAwaits call c none }
      | _, _, _ => s

/-- The invocations made for a call. -/
def VfsSt.invocations (s : VfsSt κ γ) (c : κ) : List (Invocation κ γ) :=
  s.originals.filter (fun i => i.call = c)

/-- A call of a hook with a flag finds it clear. -/
def VfsSt.FindsClear (s : VfsSt κ γ) : VfsStep κ → Prop
  | .enters c => s.phase c = .fresh → s.mayEnter call c = true →
      (call c).hook.guarded = true → s.entered (call c).hook.ref = false
  | _ => True

/-! ## What a step does -/

/-- The six things that a step can do. -/
inductive VfsSt.Moves (s : VfsSt κ γ) : VfsStep κ → VfsSt κ γ → Prop
  | idles {e : VfsStep κ} : s.FindsClear call e → Moves s e s
  | refuses {c : κ} : s.phase c = .fresh → s.mayEnter call c = true →
      (call c).hook.guarded = true → s.entered (call c).hook.ref = true →
      Moves s (.enters c) (s.move c (.returned (-1)))
  | passes {c : κ} : s.phase c = .fresh → s.mayEnter call c = true →
      s.FindsClear call (.enters c) →
      Moves s (.enters c) { s.move c .passed with awaits := s.parentAwaits call c (some c) }
  | continues {c : κ} {res : Int32} : s.phase c = .passed →
      Moves s (.continues c res)
        { s.move c (.continued res) with
          originals := ⟨c, (call c).op, (call c).ctx, res⟩ :: s.originals }
  | sets {c : κ} {res : Int32} : s.phase c = .continued res → (call c).hook.guarded = true →
      Moves s (.sets c)
        { s.move c (.logging res) with entered := Function.update s.entered (call c).op true }
  | clears {c : κ} {res : Int32} : s.phase c = .logging res → s.awaits c = none →
      Moves s (.clears c)
        { s.move c (.logged res) with entered := Function.update s.entered (call c).op false }
  | returns {c : κ} {res : Int32} :
      (s.phase c = .logged res ∧ s.awaits c = none) ∨
        (s.phase c = .continued res ∧ (call c).hook.guarded = false) →
      Moves s (.returns c)
        { s.move c (.returned res) with awaits := s.parentAwaits call c none }

theorem VfsSt.step_moves (s : VfsSt κ γ) (e : VfsStep κ) : s.Moves call e (s.step call e) := by
  cases e with
  | enters c =>
      simp only [step]
      split
      · rename_i hp hmay
        split
        · rename_i hset
          obtain ⟨hguard, hflag⟩ := Bool.and_eq_true_iff.mp hset
          exact .refuses hp hmay hguard hflag
        · rename_i hclear
          refine .passes hp hmay fun _ _ hguard => ?_
          rw [hguard, Bool.true_and] at hclear
          exact Bool.eq_false_iff.mpr hclear
      · rename_i hnot
        exact .idles fun hp hmay => absurd hmay (hnot hp)
  | continues c res =>
      simp only [step]
      split
      · rename_i hp
        rw [VfsCall.hook_ref]
        exact .continues hp
      · exact .idles trivial
  | sets c =>
      simp only [step]
      split
      · rename_i hp hguard
        rw [VfsCall.hook_ref]
        exact .sets hp hguard
      · exact .idles trivial
  | clears c =>
      simp only [step]
      split
      · rename_i hp hwaits
        rw [VfsCall.hook_ref]
        exact .clears hp hwaits
      · exact .idles trivial
  | returns c =>
      simp only [step]
      split
      · rename_i hp hwaits
        exact .returns (Or.inl ⟨hp, hwaits⟩)
      · rename_i hp hguard
        exact .returns (Or.inr ⟨hp, hguard⟩)
      · exact .idles trivial

/-! ## Refused calls -/

/-- The invocations that a call in this phase should have made. -/
def Phase.due (c : κ) (v : VfsCall κ γ) : Phase → List (Invocation κ γ)
  | .fresh => []
  | .passed => []
  | .continued res => [⟨c, v.op, v.ctx, res⟩]
  | .logging res => [⟨c, v.op, v.ctx, res⟩]
  | .logged res => [⟨c, v.op, v.ctx, res⟩]
  | .returned res => [⟨c, v.op, v.ctx, res⟩]

/-- The call was refused at the flag: it returned `-1` and its original did not run. -/
def VfsSt.Refused (s : VfsSt κ γ) (c : κ) : Prop :=
  s.phase c = .returned (-1) ∧ s.invocations c = []

/-- Every call has made the invocations due, or was refused. -/
def VfsSt.Settled (s : VfsSt κ γ) : Prop :=
  ∀ c, s.invocations c = (s.phase c).due c (call c) ∨ s.Refused c

omit [DecidableEq κ] in
theorem Phase.due_returned_ne_nil (c : κ) (v : VfsCall κ γ) (res : Int32) :
    (Phase.returned res).due c v ≠ [] :=
  List.cons_ne_nil _ _

/-- Another call is as it was. -/
theorem VfsSt.move_of_ne (s : VfsSt κ γ) {c c' : κ} (h : c' ≠ c) (p : Phase) :
    (s.move c p).phase c' = s.phase c' :=
  Function.update_of_ne h _ _

theorem VfsSt.move_self (s : VfsSt κ γ) (c : κ) (p : Phase) : (s.move c p).phase c = p :=
  Function.update_self _ _ _

/-- A call that goes on, with the invocations due in its new phase, leaves every call settled and
none newly refused. -/
theorem VfsSt.settled_of_progress {s s' : VfsSt κ γ} (h : s.Settled call) {c : κ} {p : Phase}
    (hp : ∀ res, s.phase c ≠ .returned res) (hphase : s'.phase = Function.update s.phase c p)
    (hself : s'.invocations c = p.due c (call c))
    (hother : ∀ c', c' ≠ c → s'.invocations c' = s.invocations c') :
    s'.Settled call ∧ ((∀ c, ¬ s'.Refused c) ↔ ∀ c, ¬ s.Refused c) := by
  have hkept : ∀ c', c' ≠ c → (s'.Refused c' ↔ s.Refused c') := by
    intro c' hne
    rw [Refused, Refused, hother c' hne, hphase, Function.update_of_ne hne]
  have hnot : ¬ s'.Refused c := by
    rw [Refused, hself, hphase, Function.update_self]
    rintro ⟨rfl, hnil⟩
    exact Phase.due_returned_ne_nil _ _ _ hnil
  refine ⟨fun c' => ?_, ⟨fun hall c' hc' => ?_, fun hall c' hc' => ?_⟩⟩
  · rcases eq_or_ne c' c with rfl | hne
    · rw [hself, hphase, Function.update_self]
      exact Or.inl rfl
    · rw [hkept c' hne, hother c' hne, hphase, Function.update_of_ne hne]
      exact h c'
  · rcases eq_or_ne c' c with rfl | hne
    · exact hp _ hc'.1
    · exact hall c' ((hkept c' hne).mpr hc')
  · rcases eq_or_ne c' c with rfl | hne
    · exact hnot hc'
    · exact hall c' ((hkept c' hne).mp hc')

/-- A call that has not gone past the flag has invoked nothing. -/
theorem VfsSt.Settled.invocations_eq_nil {s : VfsSt κ γ} (h : s.Settled call) {c : κ}
    (hdue : (s.phase c).due c (call c) = []) : s.invocations c = [] := by
  rcases h c with hc | hc
  · exact hc.trans hdue
  · exact hc.2

theorem VfsSt.settled_boot : ({} : VfsSt κ γ).Settled call :=
  fun _ => Or.inl rfl

theorem VfsSt.settled_step (s : VfsSt κ γ) (e : VfsStep κ) (h : s.Settled call) :
    (s.step call e).Settled call ∧
      ((∀ c, ¬ (s.step call e).Refused c) ↔ (∀ c, ¬ s.Refused c) ∧ s.FindsClear call e) := by
  have hmoves := s.step_moves call e
  revert hmoves
  generalize hs' : s.step call e = s'
  intro hmoves
  -- a call that goes on with the invocations it has
  have hgoes : ∀ {c p}, s.FindsClear call e → (∀ res, s.phase c ≠ .returned res) →
      p.due c (call c) = (s.phase c).due c (call c) → s'.phase = Function.update s.phase c p →
      s'.originals = s.originals →
      s'.Settled call ∧ ((∀ c, ¬ s'.Refused c) ↔ (∀ c, ¬ s.Refused c) ∧ s.FindsClear call e) := by
    intro c p hclear hp hdue hphase horiginals
    have hsame : ∀ c', s'.invocations c' = s.invocations c' := by
      intro c'
      rw [invocations, horiginals]
      rfl
    have hself : s'.invocations c = p.due c (call c) := by
      rw [hsame, hdue]
      exact (h c).resolve_right fun hc => hp _ hc.1
    obtain ⟨hsettled, hiff⟩ := VfsSt.settled_of_progress call h hp hphase hself
      (fun c' _ => hsame c')
    exact ⟨hsettled, hiff.trans (and_iff_left hclear).symm⟩
  cases hmoves with
  | idles hclear => exact ⟨h, (and_iff_left hclear).symm⟩
  | @refuses c hp hmay hguard hflag =>
      -- nothing was invoked for the call, and nothing will be
      have hrefused : (s.move c (.returned (-1))).Refused c :=
        ⟨s.move_self c _, h.invocations_eq_nil call (by rw [hp]; rfl)⟩
      refine ⟨fun c' => ?_, iff_of_false (fun hall => hall c hrefused) (fun hall => ?_)⟩
      · rcases eq_or_ne c' c with rfl | hne
        · exact Or.inr hrefused
        · rw [Refused, s.move_of_ne hne]
          exact h c'
      · exact absurd hflag (ne_true_of_eq_false (hall.2 hp hmay hguard))
  | passes hp _ hclear =>
      exact hgoes hclear (by simp [hp]) (by rw [hp]; rfl) rfl rfl
  | @continues c res hp =>
      have hself : VfsSt.invocations { s.move c (.continued res) with
          originals := ⟨c, (call c).op, (call c).ctx, res⟩ :: s.originals } c =
            [⟨c, (call c).op, (call c).ctx, res⟩] := by
        rw [← h.invocations_eq_nil call (c := c) (by rw [hp]; rfl)]
        exact List.filter_cons_of_pos (decide_eq_true rfl)
      obtain ⟨hsettled, hiff⟩ := VfsSt.settled_of_progress call h (p := .continued res)
        (by simp [hp]) rfl hself
        (fun c' hne => List.filter_cons_of_neg (by simpa using hne.symm))
      exact ⟨hsettled, hiff.trans (and_iff_left trivial).symm⟩
  | sets hp _ => exact hgoes trivial (by simp [hp]) (by rw [hp]; rfl) rfl rfl
  | clears hp _ => exact hgoes trivial (by simp [hp]) (by rw [hp]; rfl) rfl rfl
  | returns hp =>
      rcases hp with ⟨hp, _⟩ | ⟨hp, _⟩
      · exact hgoes trivial (by simp [hp]) (by rw [hp]; rfl) rfl rfl
      · exact hgoes trivial (by simp [hp]) (by rw [hp]; rfl) rfl rfl

/-- Nothing happens any more to a call that has returned. -/
theorem VfsSt.returned_step {s : VfsSt κ γ} {c : κ} {res : Int32} (e : VfsStep κ)
    (hc : s.phase c = .returned res) :
    (s.step call e).phase c = .returned res ∧
      (s.step call e).invocations c = s.invocations c := by
  have hother : ∀ {c' p}, s.phase c' ≠ .returned res → (s.move c' p).phase c = .returned res := by
    intro c' p hp
    rw [s.move_of_ne (by rintro rfl; exact hp hc), hc]
  have hmoves := s.step_moves call e
  revert hmoves
  generalize s.step call e = s'
  intro hmoves
  cases hmoves with
  | idles _ => exact ⟨hc, rfl⟩
  | refuses hp _ _ _ => exact ⟨hother (by simp [hp]), rfl⟩
  | passes hp _ _ => exact ⟨hother (by simp [hp]), rfl⟩
  | @continues c' res' hp =>
      refine ⟨hother (by simp [hp]), List.filter_cons_of_neg ?_⟩
      have hne : c' ≠ c := by
        rintro rfl
        rw [hc] at hp
        cases hp
      simpa using hne
  | sets hp _ => exact ⟨hother (by simp [hp]), rfl⟩
  | clears hp _ => exact ⟨hother (by simp [hp]), rfl⟩
  | returns hp =>
      refine ⟨hother ?_, rfl⟩
      rcases hp with ⟨hp, _⟩ | ⟨hp, _⟩ <;> simp [hp]

/-! ## Who set the flag -/

/-- A flag that is set was set by a call of its operation that is still logging. -/
def VfsSt.FlagsLogging (s : VfsSt κ γ) : Prop :=
  ∀ op, s.entered op = true → ∃ c res, (call c).op = op ∧ s.phase c = .logging res

/-- No call of an operation starts while another call of it is logging. -/
def VfsSt.NoneLogging (s : VfsSt κ γ) : VfsStep κ → Prop
  | .enters c => ∀ c' res, (call c').op = (call c).op → s.phase c' ≠ .logging res
  | _ => True

/-- A call that is not logging before a step may move without touching the flags. -/
theorem VfsSt.FlagsLogging.move {s s' : VfsSt κ γ} (h : s.FlagsLogging call) {c : κ} {p : Phase}
    (hp : ∀ res, s.phase c ≠ .logging res) (hphase : s'.phase = Function.update s.phase c p)
    {op : Fin 13} (hset : s.entered op = true) :
    ∃ c' res, (call c').op = op ∧ s'.phase c' = .logging res := by
  obtain ⟨c', res, hop, hlog⟩ := h op hset
  have hne : c' ≠ c := by
    rintro rfl
    exact hp res hlog
  refine ⟨c', res, hop, ?_⟩
  rw [hphase, Function.update_of_ne hne]
  exact hlog

theorem VfsSt.flagsLogging_step (s : VfsSt κ γ) (e : VfsStep κ) (h : s.FlagsLogging call) :
    (s.step call e).FlagsLogging call := by
  have hmoves := s.step_moves call e
  revert hmoves
  generalize s.step call e = s'
  intro hmoves
  cases hmoves with
  | idles _ => exact h
  | refuses hp _ _ _ => exact fun op => h.move call (by simp [hp]) rfl
  | passes hp _ _ => exact fun op => h.move call (by simp [hp]) rfl
  | continues hp => exact fun op => h.move call (by simp [hp]) rfl
  | @sets c res hp _ =>
      intro op hset
      rcases eq_or_ne op (call c).op with rfl | hne
      · exact ⟨c, res, rfl, s.move_self c _⟩
      · dsimp only at hset
        rw [Function.update_of_ne hne] at hset
        exact h.move call (by simp [hp]) rfl hset
  | @clears c res hp _ =>
      intro op hset
      dsimp only at hset
      rcases eq_or_ne op (call c).op with rfl | hne
      · rw [Function.update_self] at hset
        cases hset
      · rw [Function.update_of_ne hne] at hset
        obtain ⟨c', res', hop, hlog⟩ := h op hset
        refine ⟨c', res', hop, (s.move_of_ne ?_ _).trans hlog⟩
        rintro rfl
        exact hne hop.symm
  | returns hp =>
      intro op hset
      rcases hp with ⟨hp, _⟩ | ⟨hp, _⟩
      · exact h.move call (by simp [hp]) rfl hset
      · exact h.move call (by simp [hp]) rfl hset

omit [DecidableEq κ] in
/-- A call that starts while no other call of its operation is logging finds the flag clear. -/
theorem VfsSt.FlagsLogging.findsClear {s : VfsSt κ γ} (h : s.FlagsLogging call) {e : VfsStep κ}
    (hnone : s.NoneLogging call e) : s.FindsClear call e := by
  cases e with
  | enters c =>
      intro _ _ _
      by_contra hset
      obtain ⟨c', res, hop, hlog⟩ := h _ (Bool.not_eq_false _ ▸ hset)
      exact hnone c' res (hop.trans (call c).hook_ref) hlog
  | continues c res => trivial
  | sets c => trivial
  | clears c => trivial
  | returns c => trivial

/-! ## Who waits for whom -/

/-- Calls from log writes are waited for by the call that writes, one at a time. -/
structure VfsSt.Nested (s : VfsSt κ γ) : Prop where
  waits : ∀ {p d}, (call d).parent = some p → (s.phase d).underWay = true → s.awaits p = some d
  awaited : ∀ {p d}, s.awaits p = some d →
    (call d).parent = some p ∧ (s.phase d).underWay = true ∧ (s.phase p).writes = true

omit [DecidableEq κ] in
theorem VfsSt.nested_boot : ({} : VfsSt κ γ).Nested call :=
  ⟨fun _ hway => (by cases hway), fun hawaits => (by cases hawaits)⟩

/-- A call under way that goes on, writing if it wrote, leaves the nesting as it is. -/
theorem VfsSt.Nested.moves {s s' : VfsSt κ γ} (h : s.Nested call) {c : κ} {p : Phase}
    (hc : (s.phase c).underWay = true) (hp : p.underWay = true)
    (hwrites : (s.phase c).writes = true → p.writes = true)
    (hphase : s'.phase = Function.update s.phase c p) (hawaits : s'.awaits = s.awaits) :
    s'.Nested call := by
  have hway : ∀ d, (s'.phase d).underWay = (s.phase d).underWay := by
    intro d
    rw [hphase]
    rcases eq_or_ne d c with rfl | hne
    · rw [Function.update_self, hp, hc]
    · rw [Function.update_of_ne hne]
  refine ⟨fun {q d} hparent hd => ?_, fun {q d} hd => ?_⟩
  · rw [hawaits]
    exact h.waits hparent ((hway d) ▸ hd)
  · rw [hawaits] at hd
    obtain ⟨hparent, hd, hq⟩ := h.awaited hd
    refine ⟨hparent, (hway d).trans hd, ?_⟩
    rw [hphase]
    rcases eq_or_ne q c with rfl | hne
    · rw [Function.update_self]
      exact hwrites hq
    · rw [Function.update_of_ne hne]
      exact hq

/-- A call that is refused is neither waited for nor waiting. -/
theorem VfsSt.Nested.refuses {s : VfsSt κ γ} (h : s.Nested call) {c : κ}
    (hp : s.phase c = .fresh) (res : Int32) : (s.move c (.returned res)).Nested call := by
  refine ⟨fun {q d} hparent hd => ?_, fun {q d} hd => ?_⟩
  · have hne : d ≠ c := by
      rintro rfl
      rw [s.move_self] at hd
      cases hd
    rw [s.move_of_ne hne] at hd
    exact h.waits hparent hd
  · obtain ⟨hparent, hway, hq⟩ := h.awaited hd
    refine ⟨hparent, ?_, ?_⟩
    · rwa [s.move_of_ne (by rintro rfl; rw [hp] at hway; cases hway)]
    · rwa [s.move_of_ne (by rintro rfl; rw [hp] at hq; cases hq)]

/-- A call that starts is waited for by the call it comes from, which waited for none. -/
theorem VfsSt.Nested.passes {s : VfsSt κ γ} (h : s.Nested call) {c : κ}
    (hp : s.phase c = .fresh) (hmay : s.mayEnter call c = true) :
    VfsSt.Nested call { s.move c .passed with awaits := s.parentAwaits call c (some c) } := by
  have hother : ∀ {d}, (s.phase d).underWay = true ∨ (s.phase d).writes = true →
      (s.move c .passed).phase d = s.phase d := by
    intro d hd
    refine s.move_of_ne ?_ _
    rintro rfl
    rw [hp] at hd
    rcases hd with hd | hd <;> cases hd
  have hkept : ∀ {q d}, s.awaits q = some d → s.parentAwaits call c (some c) q = some d := by
    intro q d hd
    rw [parentAwaits]
    cases hparent : (call c).parent with
    | none => exact hd
    | some p =>
        rw [mayEnter, hparent] at hmay
        refine (Function.update_of_ne ?_ ..).trans hd
        rintro rfl
        have hnone := (Bool.and_eq_true_iff.mp hmay).2
        rw [hd] at hnone
        cases hnone
  refine ⟨fun {q d} hparent hd => ?_, fun {q d} hd => ?_⟩
  · rcases eq_or_ne d c with rfl | hne
    · dsimp only
      rw [parentAwaits, hparent]
      exact Function.update_self ..
    · exact hkept (h.waits hparent ((s.move_of_ne hne _) ▸ hd))
  · dsimp only at hd ⊢
    rw [parentAwaits] at hd
    have hold : s.awaits q = some d →
        (call d).parent = some q ∧ ((s.move c .passed).phase d).underWay = true ∧
          ((s.move c .passed).phase q).writes = true := by
      intro hd
      obtain ⟨hparent, hway, hq⟩ := h.awaited hd
      rw [hother (Or.inl hway), hother (Or.inr hq)]
      exact ⟨hparent, hway, hq⟩
    cases hparent : (call c).parent with
    | none =>
        rw [hparent] at hd
        exact hold hd
    | some p =>
        rw [hparent] at hd
        rcases eq_or_ne q p with rfl | hne
        · obtain rfl := Option.some.inj
            ((Function.update_self q (some c) s.awaits).symm.trans hd)
          rw [mayEnter, hparent] at hmay
          have hq := (Bool.and_eq_true_iff.mp hmay).1
          rw [hother (Or.inr hq), s.move_self]
          exact ⟨hparent, rfl, hq⟩
        · exact hold ((Function.update_of_ne hne ..).symm.trans hd)

/-- A call that returns is not waited for any more. -/
theorem VfsSt.Nested.returns {s : VfsSt κ γ} (h : s.Nested call) {c : κ}
    (hway : (s.phase c).underWay = true) (hfree : s.awaits c = none) (res : Int32) :
    VfsSt.Nested call
      { s.move c (.returned res) with awaits := s.parentAwaits call c none } := by
  refine ⟨fun {q d} hparent hd => ?_, fun {q d} hd => ?_⟩
  · have hne : d ≠ c := by
      rintro rfl
      rw [show VfsSt.phase _ d = _ from s.move_self d _] at hd
      cases hd
    have hd := h.waits hparent ((s.move_of_ne hne _) ▸ hd)
    dsimp only
    rw [parentAwaits]
    cases hparent' : (call c).parent with
    | none => exact hd
    | some p =>
        refine (Function.update_of_ne ?_ ..).trans hd
        rintro rfl
        have hc := h.waits hparent' hway
        rw [hd] at hc
        exact hne (Option.some.inj hc)
  · dsimp only at hd ⊢
    rw [parentAwaits] at hd
    have hold : s.awaits q = some d ∧ d ≠ c := by
      cases hparent : (call c).parent with
      | none =>
          rw [hparent] at hd
          refine ⟨hd, ?_⟩
          rintro rfl
          rw [(h.awaited hd).1] at hparent
          cases hparent
      | some p =>
          rw [hparent] at hd
          rcases eq_or_ne q p with rfl | hne
          · cases (Function.update_self q none s.awaits).symm.trans hd
          · have hd := (Function.update_of_ne hne ..).symm.trans hd
            refine ⟨hd, ?_⟩
            rintro rfl
            rw [(h.awaited hd).1] at hparent
            exact hne (Option.some.inj hparent)
    obtain ⟨hawaits, hne⟩ := hold
    obtain ⟨hparent, hway', hq⟩ := h.awaited hawaits
    have hqc : q ≠ c := by
      rintro rfl
      rw [hfree] at hawaits
      cases hawaits
    rw [s.move_of_ne hne, s.move_of_ne hqc]
    exact ⟨hparent, hway', hq⟩

theorem VfsSt.nested_step (s : VfsSt κ γ) (e : VfsStep κ) (h : s.Nested call) :
    (s.step call e).Nested call := by
  have hmoves := s.step_moves call e
  revert hmoves
  generalize s.step call e = s'
  intro hmoves
  cases hmoves with
  | idles _ => exact h
  | refuses hp _ _ _ => exact h.refuses call hp _
  | passes hp hmay _ => exact h.passes call hp hmay
  | continues hp =>
      exact h.moves call (by rw [hp]; rfl) rfl (by rw [hp]; exact nofun) rfl rfl
  | sets hp _ => exact h.moves call (by rw [hp]; rfl) rfl (by rw [hp]; exact nofun) rfl rfl
  | clears hp _ => exact h.moves call (by rw [hp]; rfl) rfl (fun _ => rfl) rfl rfl
  | @returns c res hp =>
      rcases hp with ⟨hp, hfree⟩ | ⟨hp, _⟩
      · exact h.returns call (by rw [hp]; rfl) hfree res
      · refine h.returns call (by rw [hp]; rfl) ?_ res
        -- only a call that writes waits
        cases hd : s.awaits c with
        | none => rfl
        | some d =>
            have hwrites := (h.awaited hd).2.2
            rw [hp] at hwrites
            cases hwrites

/-! ## How a call goes on -/

/-- How far a call has come. -/
def Phase.rank : Phase → ℕ
  | .fresh => 0
  | .passed => 1
  | .continued _ => 2
  | .logging _ => 3
  | .logged _ => 4
  | .returned _ => 5

theorem Phase.rank_le (p : Phase) : p.rank ≤ 5 := by
  cases p <;> simp [rank]

theorem Phase.ne_fresh_iff {p : Phase} : p ≠ .fresh ↔ 0 < p.rank := by
  cases p <;> simp [rank]

/-- A step leaves a call where it is or brings it forward. -/
theorem VfsSt.phase_step (s : VfsSt κ γ) (e : VfsStep κ) (c : κ) :
    (s.step call e).phase c = s.phase c ∨
      (s.phase c).rank < ((s.step call e).phase c).rank := by
  have hforward : ∀ {c' p}, (s.phase c').rank < p.rank →
      (s.move c' p).phase c = s.phase c ∨ (s.phase c).rank < ((s.move c' p).phase c).rank := by
    intro c' p hp
    rcases eq_or_ne c c' with rfl | hne
    · rw [s.move_self]
      exact Or.inr hp
    · exact Or.inl (s.move_of_ne hne p)
  have hmoves := s.step_moves call e
  revert hmoves
  generalize s.step call e = s'
  intro hmoves
  cases hmoves with
  | idles _ => exact Or.inl rfl
  | refuses hp _ _ _ => exact hforward (by simp [hp, Phase.rank])
  | passes hp _ _ => exact hforward (by simp [hp, Phase.rank])
  | continues hp => exact hforward (by simp [hp, Phase.rank])
  | sets hp _ => exact hforward (by simp [hp, Phase.rank])
  | clears hp _ => exact hforward (by simp [hp, Phase.rank])
  | returns hp =>
      rcases hp with ⟨hp, _⟩ | ⟨hp, _⟩ <;> exact hforward (by simp [hp, Phase.rank])

/-- The call whose step it is. -/
def VfsStep.subject : VfsStep κ → κ
  | .enters c => c
  | .continues c _ => c
  | .sets c => c
  | .clears c => c
  | .returns c => c

/-- A step moves one call. -/
theorem VfsSt.phase_of_ne (s : VfsSt κ γ) {e : VfsStep κ} {d : κ} (hd : d ≠ e.subject) :
    (s.step call e).phase d = s.phase d := by
  have hmoves := s.step_moves call e
  revert hmoves
  generalize s.step call e = s'
  intro hmoves
  cases hmoves with
  | idles _ => rfl
  | refuses _ _ _ _ => exact s.move_of_ne hd _
  | passes _ _ _ => exact s.move_of_ne hd _
  | continues _ => exact s.move_of_ne hd _
  | sets _ _ => exact s.move_of_ne hd _
  | clears _ _ => exact s.move_of_ne hd _
  | returns _ => exact s.move_of_ne hd _

/-- A call from a log write starts while its parent writes. -/
theorem VfsSt.writes_of_enters {s : VfsSt κ γ} {e : VfsStep κ} {d p : κ}
    (hparent : (call d).parent = some p) (hd : s.phase d = .fresh)
    (hd' : (s.step call e).phase d ≠ .fresh) : (s.phase p).writes = true := by
  have hsame : ∀ {c q}, (s.move c q).phase d ≠ .fresh → d = c := by
    intro c q hne
    by_contra hother
    rw [s.move_of_ne hother] at hne
    exact hne hd
  have hwrites : s.mayEnter call d = true → (s.phase p).writes = true := by
    intro hmay
    rw [mayEnter, hparent] at hmay
    exact (Bool.and_eq_true_iff.mp hmay).1
  have hmoves := s.step_moves call e
  revert hmoves hd'
  generalize s.step call e = s'
  intro hd' hmoves
  cases hmoves with
  | idles _ => exact absurd hd hd'
  | refuses _ hmay _ _ =>
      obtain rfl := hsame hd'
      exact hwrites hmay
  | passes _ hmay _ =>
      obtain rfl := hsame hd'
      exact hwrites hmay
  | continues hp =>
      obtain rfl := hsame hd'
      cases hd.symm.trans hp
  | sets hp _ =>
      obtain rfl := hsame hd'
      cases hd.symm.trans hp
  | clears hp _ =>
      obtain rfl := hsame hd'
      cases hd.symm.trans hp
  | returns hp =>
      obtain rfl := hsame hd'
      rcases hp with ⟨hp, _⟩ | ⟨hp, _⟩ <;> cases hd.symm.trans hp

end

end PsvEmmc
