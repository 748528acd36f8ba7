/-
# `PsvEmmc.Driver.VfsRuns` — do the hooked calls come to an end?

A call of a hooked file system behaves as the unhooked one when it comes back,
with the result of its original, which has run once with its argument.  That
is about runs without an end.  A call goes on when its thread is scheduled and
its original function answers (`Fair`), but while a log write of it makes a
call it waits.

So there are two ways to go wrong.  A call is refused when it finds the flag
of its hook set.  And the log writes behind the update of the flag find it
clear: they can make a call of the same operation, which logs in its turn, and
so on without an end, and then none of these calls comes back.  The hooks are
transparent exactly when neither happens (`vfs_hooks_transparent_iff`).
-/
import PsvEmmc.Driver.VfsHooks

namespace PsvEmmc

open Runs

section

variable {κ γ : Type*} [DecidableEq κ] (call : κ → VfsCall κ γ) (es : ℕ → VfsStep κ)

/-- The state at a moment of an endless run. -/
abbrev vfsAt (n : ℕ) : VfsSt κ γ := states (VfsSt.step call) {} es n

/-- The call is made at some time. -/
def Made (c : κ) : Prop := ∃ n, (vfsAt call es n).phase c ≠ .fresh

omit [DecidableEq κ] in
/-- Nothing but its thread or its original function keeps the call from its next step. -/
def VfsSt.Ready (s : VfsSt κ γ) (c : κ) : Prop :=
  (s.phase c).underWay = true ∧ s.awaits c = none

/-- Threads are scheduled and original functions answer: no call that can go on is left where it
is for ever. -/
def Fair : Prop :=
  ∀ c n, (∀ m ≥ n, (vfsAt call es m).Ready c) →
    ∃ m ≥ n, (vfsAt call es (m + 1)).phase c ≠ (vfsAt call es m).phase c

/-- The file system behaves as the unhooked one: every call that is made returns, having invoked
the original of its operation once, with its argument, and with that result. -/
def Transparent : Prop :=
  ∀ c, Made call es c → ∃ n res, ∀ m ≥ n, (vfsAt call es m).phase c = .returned res ∧
    (vfsAt call es m).invocations c = [⟨c, (call c).op, (call c).ctx, res⟩]

/-- A call and the calls that come from its log writes, from the log writes of these, and so on. -/
def nest (c : κ) : Set κ :=
  {d | Relation.ReflTransGen (fun p d => (call d).parent = some p) c d ∧ Made call es d}

/-! ## What stays as it is -/

variable {call es}

theorem VfsSt.settled_at (n : ℕ) :
    (vfsAt call es n).Settled call ∧ ((∀ c, ¬ (vfsAt call es n).Refused c) ↔
      ∀ m < n, (vfsAt call es m).FindsClear call (es m)) := by
  induction n with
  | zero =>
      exact ⟨VfsSt.settled_boot call, iff_of_true (fun c hc => by cases hc.1) (by simp)⟩
  | succ n ih =>
      obtain ⟨hsettled, hiff⟩ := ih
      obtain ⟨hstep, hstep'⟩ := VfsSt.settled_step call _ (es n) hsettled
      refine ⟨hstep, hstep'.trans ?_⟩
      rw [hiff]
      constructor
      · rintro ⟨hbefore, hnow⟩ m hm
        rcases Nat.lt_succ_iff_lt_or_eq.mp hm with hm | rfl
        · exact hbefore m hm
        · exact hnow
      · exact fun hall => ⟨fun m hm => hall m (Nat.lt_succ_of_lt hm), hall n (Nat.lt_succ_self n)⟩

theorem VfsSt.nested_at (n : ℕ) : (vfsAt call es n).Nested call :=
  inv_states (fun s e h => VfsSt.nested_step call s e h) (VfsSt.nested_boot call) es n

theorem returned_at {c : κ} {res : Int32} {l : List (Invocation κ γ)} {n m : ℕ} (hnm : n ≤ m)
    (hc : (vfsAt call es n).phase c = .returned res ∧ (vfsAt call es n).invocations c = l) :
    (vfsAt call es m).phase c = .returned res ∧ (vfsAt call es m).invocations c = l := by
  refine states_persist (P := fun s : VfsSt κ γ => s.phase c = .returned res ∧
    s.invocations c = l) ?_ hnm hc
  rintro s e ⟨hp, hl⟩
  obtain ⟨hp', hl'⟩ := VfsSt.returned_step call e hp
  exact ⟨hp', hl'.trans hl⟩

theorem made_at {c : κ} {n m : ℕ} (hnm : n ≤ m) (hc : (vfsAt call es n).phase c ≠ .fresh) :
    (vfsAt call es m).phase c ≠ .fresh := by
  refine states_persist (P := fun s : VfsSt κ γ => s.phase c ≠ .fresh) ?_ hnm hc
  intro s e hp
  rcases VfsSt.phase_step call s e c with hsame | hrise
  · rwa [hsame]
  · exact Phase.ne_fresh_iff.mpr (Nat.lt_of_le_of_lt (Nat.zero_le _) hrise)

/-- There is a step with which a call is made. -/
theorem Made.enters {c : κ} (hc : Made call es c) :
    ∃ n, (vfsAt call es n).phase c = .fresh ∧ (vfsAt call es (n + 1)).phase c ≠ .fresh := by
  classical
  obtain ⟨n, hn⟩ : ∃ n, Nat.find hc = n + 1 := by
    refine Nat.exists_eq_succ_of_ne_zero fun hzero => ?_
    have hmade := Nat.find_spec hc
    rw [hzero] at hmade
    exact hmade rfl
  refine ⟨n, ?_, hn ▸ Nat.find_spec hc⟩
  exact not_not.mp (Nat.find_min hc (by omega))

/-- A call from a log write is made after the call that writes, which has not returned then. -/
theorem made_of_child {c d : κ} (hparent : (call d).parent = some c) {n : ℕ}
    (hn : (vfsAt call es n).phase d = .fresh ∧ (vfsAt call es (n + 1)).phase d ≠ .fresh) :
    ((vfsAt call es n).phase c).writes = true :=
  VfsSt.writes_of_enters call hparent hn.1 hn.2

theorem Made.parent {c d : κ} (hparent : (call d).parent = some c) (hd : Made call es d) :
    Made call es c := by
  obtain ⟨n, hn⟩ := hd.enters
  refine ⟨n, fun hfresh => ?_⟩
  have hwrites := made_of_child hparent hn
  rw [hfresh] at hwrites
  cases hwrites

/-! ## Refused calls and endless nests -/

/-- Transparent hooks find their flags clear. -/
theorem Transparent.findsClear (h : Transparent call es) (n : ℕ) :
    (vfsAt call es n).FindsClear call (es n) := by
  by_contra hset
  have hrefused : ∃ c, (vfsAt call es (n + 1)).Refused c := by
    by_contra hnone
    exact hset ((VfsSt.settled_at (n + 1)).2.mp (not_exists.mp hnone) n (Nat.lt_succ_self n))
  obtain ⟨c, hc⟩ := hrefused
  obtain ⟨m, res, hm⟩ := h c ⟨n + 1, by rw [hc.1]; exact nofun⟩
  obtain ⟨_, hinvoked⟩ := hm (max m (n + 1)) (Nat.le_max_left ..)
  rw [(returned_at (Nat.le_max_right m (n + 1)) hc).2] at hinvoked
  cases hinvoked

/-- At any moment finitely many calls have been made. -/
theorem finite_made_at (n : ℕ) : {d | (vfsAt call es n).phase d ≠ .fresh}.Finite := by
  induction n with
  | zero => exact Set.finite_empty.subset fun d hd => hd rfl
  | succ n ih =>
      refine (ih.insert (es n).subject).subset fun d hd => ?_
      by_cases hne : d = (es n).subject
      · exact Set.mem_insert_iff.mpr (Or.inl hne)
      · refine Set.mem_insert_of_mem _ ?_
        rw [Set.mem_ofPred_eq, ← VfsSt.phase_of_ne call _ hne]
        exact hd

/-- When a call has returned, so have all calls of its nest that are ever made. -/
theorem nest_returned {c d : κ} {n : ℕ} {res : Int32}
    (hc : (vfsAt call es n).phase c = .returned res)
    (hd : Relation.ReflTransGen (fun p d => (call d).parent = some p) c d)
    (hmade : Made call es d) : ∃ res', (vfsAt call es n).phase d = .returned res' := by
  induction hd with
  | refl => exact ⟨res, hc⟩
  | @tail p d _ hparent ih =>
      obtain ⟨res', hp⟩ := ih (hmade.parent hparent)
      -- it was made before its parent returned, and its parent waited for it
      have hentered : (vfsAt call es n).phase d ≠ .fresh := by
        intro hfresh
        obtain ⟨m, hm⟩ := hmade.enters
        have hnm : n ≤ m := by
          by_contra hlt
          exact made_at (by omega) hm.2 hfresh
        have hwrites := made_of_child hparent hm
        rw [(returned_at hnm ⟨hp, rfl⟩).1] at hwrites
        cases hwrites
      cases hphase : (vfsAt call es n).phase d with
      | fresh => exact absurd hphase hentered
      | returned res'' => exact ⟨res'', rfl⟩
      | _ =>
          have hawaits := (VfsSt.nested_at n).waits hparent (by rw [hphase]; rfl)
          have hwrites := ((VfsSt.nested_at n).awaited hawaits).2.2
          rw [hp] at hwrites
          cases hwrites

theorem Transparent.finite_nest (h : Transparent call es) (c : κ) : (nest call es c).Finite := by
  by_cases hmade : Made call es c
  · obtain ⟨n, res, hn⟩ := h c hmade
    have hmade_at : {d | (vfsAt call es n).phase d ≠ .fresh}.Finite := finite_made_at n
    refine hmade_at.subset ?_
    rintro d ⟨hd, hd'⟩
    obtain ⟨res', hres⟩ := nest_returned (hn n (Nat.le_refl n)).1 hd hd'
    rw [Set.mem_ofPred_eq, hres]
    exact nofun
  · refine Set.finite_empty.subset ?_
    rintro d ⟨hd, hd'⟩
    refine hmade ?_
    induction hd with
    | refl => exact hd'
    | tail _ hparent ih => exact ih (hd'.parent hparent)

/-! ## Calls that come back -/

/-- A call that never returns waits for one of its own that never returns, if there are only
finitely many of them. -/
theorem exists_stuck_child (hfair : Fair call es) {c : κ} (hmade : Made call es c)
    (hfin : {d | (call d).parent = some c ∧ Made call es d}.Finite)
    (hstuck : ∀ n res, (vfsAt call es n).phase c ≠ .returned res) :
    ∃ d, (call d).parent = some c ∧ Made call es d ∧
      ∀ n res, (vfsAt call es n).phase d ≠ .returned res := by
  by_contra hnone
  have hback : ∀ d ∈ {d | (call d).parent = some c ∧ Made call es d},
      ∃ n res, (vfsAt call es n).phase d = .returned res := by
    rintro d ⟨hparent, hd⟩
    by_contra hnot
    exact hnone ⟨d, hparent, hd, fun n res hp => hnot ⟨n, res, hp⟩⟩
  choose! time result hresult using hback
  obtain ⟨bound, hbound⟩ := (hfin.image time).bddAbove
  obtain ⟨n₁, hn₁⟩ := hmade
  obtain ⟨n₀, hn₀, hstill⟩ := exists_last_change (f := fun n => (vfsAt call es n).phase c)
    Phase.rank_le (fun n => VfsSt.phase_step call (vfsAt call es n) (es n) c) n₁
  -- from then on the call is under way, and nothing that it waits for is left
  obtain ⟨m, hm, hmoves⟩ := hfair c (max n₀ bound) fun m hm => by
    have hnm : n₀ ≤ m := (Nat.le_max_left ..).trans hm
    constructor
    · cases hp : (vfsAt call es m).phase c with
      | fresh => exact absurd hp (made_at (hn₀.trans hnm) hn₁)
      | returned res => exact absurd hp (hstuck m res)
      | _ => rfl
    · cases hd : (vfsAt call es m).awaits c with
      | none => rfl
      | some d =>
          obtain ⟨hparent, hway, _⟩ := (VfsSt.nested_at m).awaited hd
          have hd' : Made call es d := ⟨m, fun hfresh => by rw [hfresh] at hway; cases hway⟩
          have htime : time d ≤ m :=
            (hbound (Set.mem_image_of_mem time ⟨hparent, hd'⟩)).trans
              ((Nat.le_max_right ..).trans hm)
          rw [(returned_at htime ⟨hresult d ⟨hparent, hd'⟩, rfl⟩).1] at hway
          cases hway
  refine hmoves ((hstill (m + 1) ?_).trans (hstill m ?_).symm)
  · exact ((Nat.le_max_left ..).trans hm).trans (Nat.le_succ m)
  · exact (Nat.le_max_left ..).trans hm

/-- Along a fair run every call with a finite nest returns. -/
theorem returns_of_finite_nest (hfair : Fair call es) {c : κ} (hmade : Made call es c)
    (hfin : (nest call es c).Finite) : ∃ n res, (vfsAt call es n).phase c = .returned res := by
  by_contra hnot
  -- of the calls of the nest that never return, take the one that was made last
  set stuck : Set κ := {d | d ∈ nest call es c ∧ ∀ n res, (vfsAt call es n).phase d ≠ .returned res}
    with hstuck
  have htime : ∀ d ∈ nest call es c, ∃ n, (vfsAt call es n).phase d = .fresh ∧
      (vfsAt call es (n + 1)).phase d ≠ .fresh := fun d hd => hd.2.enters
  choose! time htime using htime
  have hsome : stuck.Nonempty :=
    ⟨c, ⟨.refl, hmade⟩, fun n res hp => hnot ⟨n, res, hp⟩⟩
  obtain ⟨d, ⟨hd, hdstuck⟩, hlast⟩ :=
    Set.exists_max_image stuck time (hfin.subset fun _ h => h.1) hsome
  obtain ⟨d', hparent, hd', hd'stuck⟩ := exists_stuck_child hfair hd.2
    (hfin.subset fun d' h => ⟨hd.1.tail h.1, h.2⟩) hdstuck
  have hmem : d' ∈ nest call es c := ⟨hd.1.tail hparent, hd'⟩
  have hle := hlast d' ⟨hmem, hd'stuck⟩
  have hwrites := made_of_child hparent (htime d' hmem)
  have hfresh : (vfsAt call es (time d')).phase d = .fresh := by
    by_contra hmade'
    exact made_at hle hmade' (htime d hd).1
  rw [hfresh] at hwrites
  cases hwrites

/-- Calls that find their flags clear and have finite nests come back as they should. -/
theorem transparent_of_findsClear (hfair : Fair call es)
    (hclear : ∀ n, (vfsAt call es n).FindsClear call (es n))
    (hfin : ∀ c, (nest call es c).Finite) : Transparent call es := by
  intro c hmade
  obtain ⟨n, res, hp⟩ := returns_of_finite_nest hfair hmade (hfin c)
  refine ⟨n, res, fun m hm => returned_at hm ⟨hp, ?_⟩⟩
  obtain ⟨hsettled, hiff⟩ : (vfsAt call es n).Settled call ∧ _ := VfsSt.settled_at n
  have hnone := hiff.mpr fun m _ => hclear m
  rw [(hsettled c).resolve_right (hnone c), hp]
  rfl

/-- **The hooks are transparent**, for every interleaving and nesting of calls, if and only if
every call of a hook with a flag finds the flag clear, and no call's log writes bring about calls
without an end. -/
theorem vfs_hooks_transparent_iff (hfair : Fair call es) :
    Transparent call es ↔
      (∀ n, (vfsAt call es n).FindsClear call (es n)) ∧ ∀ c, (nest call es c).Finite :=
  ⟨fun h => ⟨h.findsClear, h.finite_nest⟩,
    fun ⟨hclear, hfin⟩ => transparent_of_findsClear hfair hclear hfin⟩

/-- In particular when no call of an operation starts while another call of it is logging. -/
theorem transparent_of_noneLogging (hfair : Fair call es)
    (hnone : ∀ n, (vfsAt call es n).NoneLogging call (es n))
    (hfin : ∀ c, (nest call es c).Finite) : Transparent call es := by
  refine transparent_of_findsClear hfair (fun n => ?_) hfin
  have hflags : (vfsAt call es n).FlagsLogging call :=
    inv_states (fun s e h => VfsSt.flagsLogging_step call s e h)
      (fun op hset => Bool.noConfusion hset) es n
  exact hflags.findsClear call (hnone n)

/-- A run that leaves no call under way is fair. -/
theorem fair_padded {steps : List (VfsStep κ)} {e : VfsStep κ}
    (hend : VfsSt.step call (run (VfsSt.step call) {} steps) e = run (VfsSt.step call) {} steps)
    (hdone : ∀ c, ¬ (run (VfsSt.step call) {} steps).Ready c) :
    Fair call (fun i => steps.getD i e) := by
  intro c n hready
  have hlast := hready (max n steps.length) (Nat.le_max_left ..)
  rw [vfsAt, states_padded hend (Nat.le_max_right ..)] at hlast
  exact absurd hlast (hdone c)

end

/-! ## Two runs -/

/-- A call, and one of the same operation that the blank line behind its log makes. -/
def nestedCall : Bool → VfsCall Bool Nat
  | false => { op := vfsFunc1.ref, ctx := 5 }
  | true => { op := vfsFunc1.ref, ctx := 6, parent := some false }

def nestedSteps : List (VfsStep Bool) :=
  [.enters false, .continues false 7, .sets false, .clears false, .enters true, .continues true 8,
    .sets true, .clears true, .returns true, .returns false]

/-- The one from the log write finds the flag clear, and both return. -/
theorem vfs_hooks_transparent_nested :
    Transparent nestedCall (fun i => nestedSteps.getD i (.returns false)) := by
  have hfair : Fair nestedCall (fun i => nestedSteps.getD i (.returns false)) := by
    refine fair_padded rfl ?_
    unfold VfsSt.Ready
    decide
  have hclear : ∀ n < 10,
      (vfsAt nestedCall (fun i => nestedSteps.getD i (.returns false)) n).FindsClear nestedCall
        (nestedSteps.getD n (.returns false)) := by
    intro n hn
    interval_cases n
    · exact fun _ _ _ => rfl
    · trivial
    · trivial
    · trivial
    · exact fun _ _ _ => rfl
    · trivial
    · trivial
    · trivial
    · trivial
    · trivial
  refine (vfs_hooks_transparent_iff hfair).mpr ⟨fun n => ?_, fun c => Set.toFinite _⟩
  rcases Nat.lt_or_ge n 10 with hn | hn
  · exact hclear n hn
  · rw [List.getD_eq_default _ _ hn]
    trivial

/-- Two calls of an operation, in two threads. -/
def twoCalls (_ : Bool) : VfsCall Bool Nat := { op := vfsFunc1.ref, ctx := 0 }

/-- The second call comes while the first one logs. -/
def refusedSteps : List (VfsStep Bool) :=
  [.enters false, .continues false 0, .sets false, .enters true, .clears false, .returns false]

/-- The second call of an operation, made while the first one logs, gets `-1` and does not reach
the original function. -/
theorem vfs_call_refused :
    ¬ ∀ (call : Bool → VfsCall Bool Nat) (es : ℕ → VfsStep Bool),
      Fair call es → Transparent call es := by
  intro h
  have hend : VfsSt.step twoCalls (run (VfsSt.step twoCalls) {} refusedSteps) (.returns false) =
      run (VfsSt.step twoCalls) {} refusedSteps := rfl
  have hfair : Fair twoCalls (fun i => refusedSteps.getD i (.returns false)) := by
    refine fair_padded hend ?_
    unfold VfsSt.Ready
    decide
  have hlast : ∀ {n}, 6 ≤ n → vfsAt twoCalls (fun i => refusedSteps.getD i (.returns false)) n =
      run (VfsSt.step twoCalls) {} refusedSteps := fun hn => states_padded hend hn
  have hmade : Made twoCalls (fun i => refusedSteps.getD i (.returns false)) true :=
    ⟨6, by rw [hlast (Nat.le_refl 6)]; decide⟩
  obtain ⟨n, res, hn⟩ := h _ _ hfair true hmade
  obtain ⟨_, hinvoked⟩ := hn (max n 6) (Nat.le_max_left ..)
  rw [hlast (Nat.le_max_right ..)] at hinvoked
  cases hinvoked

end PsvEmmc
