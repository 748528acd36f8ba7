/-
# `Runs` — runs of a machine and what holds along them

A machine is a function `step : σ → ε → σ`; a run feeds it a list of events.
The answers of an environment are part of the event, so a run is
deterministic once its events are given and a theorem over all event lists
is a theorem over all behaviours of the environment.

`Along step G s es` says that every event of the run met the guard `G` in the
state it found.  An invariant that every guarded step keeps therefore holds
at the end of every guarded run, and since a prefix of a guarded run is
guarded, in every state on the way.

An observation turns some of the events into letters, and `trace` is the word
a run spells.  When each step acts on a view of the state as its letter
prescribes, the view after a run is the word's action on the first view
(`view_run`): the machine simulates an automaton on the view.
-/
import Mathlib

namespace Runs

variable {σ ε α β : Type*} (step : σ → ε → σ)

/-- The state after the events, in order. -/
def run : σ → List ε → σ
  | s, [] => s
  | s, e :: es => run (step s e) es

/-- Every event meets `G` in the state it is taken from. -/
def Along (G : σ → ε → Prop) : σ → List ε → Prop
  | _, [] => True
  | s, e :: es => G s e ∧ Along G (step s e) es

variable {step}

instance decAlong {G : σ → ε → Prop} [∀ s e, Decidable (G s e)] :
    ∀ (s : σ) (es : List ε), Decidable (Along step G s es)
  | _, [] => isTrue trivial
  | s, e :: es => @instDecidableAnd _ _ _ (decAlong (step s e) es)

@[simp] theorem run_cons (s : σ) (e : ε) (es : List ε) :
    run step s (e :: es) = run step (step s e) es := rfl

/-- Guards that agree in every state hold along the same runs. -/
theorem along_congr {G H : σ → ε → Prop} (h : ∀ s e, G s e ↔ H s e) {es : List ε} {s : σ} :
    Along step G s es ↔ Along step H s es := by
  induction es generalizing s with
  | nil => exact Iff.rfl
  | cons e es ih => exact and_congr (h s e) ih

theorem run_append (s : σ) (as bs : List ε) :
    run step s (as ++ bs) = run step (run step s as) bs := by
  induction as generalizing s with
  | nil => rfl
  | cons a as ih => exact ih (step s a)

theorem along_append {G : σ → ε → Prop} {s : σ} {as bs : List ε} :
    Along step G s (as ++ bs) ↔ Along step G s as ∧ Along step G (run step s as) bs := by
  induction as generalizing s with
  | nil => exact (and_iff_right trivial).symm
  | cons a as ih => exact (and_congr_right fun _ => ih).trans and_assoc.symm

theorem Along.and {G H : σ → ε → Prop} {es : List ε} {s : σ} (hG : Along step G s es)
    (hH : Along step H s es) : Along step (fun s e => G s e ∧ H s e) s es := by
  induction es generalizing s with
  | nil => trivial
  | cons e es ih => exact ⟨⟨hG.1, hH.1⟩, ih hG.2 hH.2⟩

/-- What every event of a run meets in every state holds along the run. -/
theorem along_of_mem {P : σ → ε → Prop} {es : List ε} (h : ∀ e ∈ es, ∀ s, P s e) {s : σ} :
    Along step P s es := by
  induction es generalizing s with
  | nil => trivial
  | cons e es ih =>
      exact ⟨h e List.mem_cons_self s, ih fun e he => h e (List.mem_cons_of_mem _ he)⟩

/-- A guard that does not look at the state holds along a run when every event meets it. -/
theorem along_iff_forall_mem {P : ε → Prop} {es : List ε} {s : σ} :
    Along step (fun _ e => P e) s es ↔ ∀ e ∈ es, P e := by
  induction es generalizing s with
  | nil => exact iff_of_true trivial fun e he => absurd he List.not_mem_nil
  | cons e es ih => rw [Along, List.forall_mem_cons, ih]

/-- The invariant rule: what the first state has and every guarded step keeps,
the last state of a guarded run has. -/
theorem inv_run {G : σ → ε → Prop} {I : σ → Prop}
    (hstep : ∀ s e, I s → G s e → I (step s e)) {es : List ε} {s : σ} (hI : I s)
    (hG : Along step G s es) : I (run step s es) := by
  induction es generalizing s with
  | nil => exact hI
  | cons e es ih =>
      rw [run_cons]
      exact ih (hstep s e hI hG.1) hG.2

/-- The safety rule: if the invariant and the guard make a step safe, every
step of a guarded run is safe. -/
theorem along_of_inv {G P : σ → ε → Prop} {I : σ → Prop}
    (hstep : ∀ s e, I s → G s e → I (step s e))
    (hsafe : ∀ s e, I s → G s e → P s e) {es : List ε} {s : σ} (hI : I s)
    (hG : Along step G s es) : Along step P s es := by
  induction es generalizing s with
  | nil => trivial
  | cons e es ih => exact ⟨hsafe s e hI hG.1, ih (hstep s e hI hG.1) hG.2⟩

/-- Guards that agree under the invariant hold along the same guarded runs. -/
theorem along_iff_of_inv {F G H : σ → ε → Prop} {I : σ → Prop}
    (hstep : ∀ s e, I s → F s e → I (step s e))
    (hagree : ∀ s e, I s → F s e → (G s e ↔ H s e)) {es : List ε} {s : σ} (hI : I s)
    (hF : Along step F s es) : Along step G s es ↔ Along step H s es := by
  induction es generalizing s with
  | nil => exact Iff.rfl
  | cons e es ih => exact and_congr (hagree s e hI hF.1) (ih (hstep s e hI hF.1) hF.2)

/-- The completion rule.  Let guarded steps keep an invariant that gives `Q`, let the events `W`
always meet the guard, and let a step that does not meet it be followed by such events to a
state without `Q`.  Then a run meets the guard exactly when every beginning of it, completed by
events `W`, ends with `Q`. -/
theorem along_iff_completions {F G : σ → ε → Prop} {I Q : σ → Prop} {W : ε → Prop}
    (hstep : ∀ s e, I s → F s e ∧ G s e → I (step s e)) (hsound : ∀ s, I s → Q s)
    (hfree : ∀ s e, W e → G s e)
    (hbad : ∀ s e, I s → F s e → ¬ G s e → ∃ ws, (∀ w ∈ ws, W w) ∧
      Along step F (step s e) ws ∧ ¬ Q (run step (step s e) ws))
    {s : σ} (hI : I s) {es : List ε} (hF : Along step F s es) :
    (∀ p ws, p <+: es → (∀ w ∈ ws, W w) → Along step F s (p ++ ws) →
      Q (run step s (p ++ ws))) ↔ Along step G s es := by
  constructor
  · intro hall
    induction es using List.reverseRecOn with
    | nil => trivial
    | append_singleton es e ih =>
        obtain ⟨hFes, hFe, _⟩ := along_append.mp hF
        have hes := ih hFes (fun p ws hp => hall p ws (hp.trans (List.prefix_append es [e])))
        refine along_append.mpr ⟨hes, ?_, trivial⟩
        by_contra hover
        obtain ⟨ws, hws, hfollows, hnot⟩ :=
          hbad _ e (inv_run hstep hI (hFes.and hes)) hFe hover
        have hrun : ∀ s' ws, run step s' ([e] ++ ws) = run step (step s' e) ws :=
          fun _ _ => rfl
        refine hnot ?_
        rw [← hrun, ← run_append, ← List.append_assoc]
        refine hall _ ws List.prefix_rfl hws (along_append.mpr ⟨hF, ?_⟩)
        rw [run_append]
        exact hfollows
  · intro hG p ws hp hws hfollows
    obtain ⟨rest, rfl⟩ := hp
    refine hsound _ (inv_run hstep hI (hfollows.and (along_append.mpr ?_)))
    exact ⟨(along_append.mp hG).1, along_of_mem fun w hw s => hfree s w (hws w hw)⟩

/-! ## What can be reached -/

/-- A guarded run leads to a state with `P`. -/
def Reaches (step : σ → ε → σ) (G : σ → ε → Prop) (s : σ) (P : σ → Prop) : Prop :=
  ∃ es, Along step G s es ∧ P (run step s es)

theorem Reaches.here {G : σ → ε → Prop} {s : σ} {P : σ → Prop} (h : P s) : Reaches step G s P :=
  ⟨[], trivial, h⟩

theorem Reaches.after {G : σ → ε → Prop} {s : σ} {P : σ → Prop} {e : ε} (he : G s e)
    (h : Reaches step G (step s e) P) : Reaches step G s P := by
  obtain ⟨es, hes, hP⟩ := h
  exact ⟨e :: es, ⟨he, hes⟩, hP⟩

theorem Reaches.trans {G : σ → ε → Prop} {s : σ} {P Q : σ → Prop} (h : Reaches step G s P)
    (hnext : ∀ s', P s' → Reaches step G s' Q) : Reaches step G s Q := by
  obtain ⟨es, hes, hP⟩ := h
  obtain ⟨es', hes', hQ⟩ := hnext _ hP
  exact ⟨es ++ es', along_append.mpr ⟨hes, hes'⟩, by rwa [run_append]⟩

/-- An invariant keeps a run from what it excludes. -/
theorem not_reaches_of_inv {G : σ → ε → Prop} {I P : σ → Prop}
    (hstep : ∀ s e, I s → G s e → I (step s e)) (hexcludes : ∀ s, I s → ¬ P s) {s : σ} (hI : I s) :
    ¬ Reaches step G s P := by
  rintro ⟨es, hes, hP⟩
  exact hexcludes _ (inv_run hstep hI hes) hP

/-! ## Runs without an end -/

/-- The states of an endless run. -/
def states (step : σ → ε → σ) (s : σ) (es : ℕ → ε) : ℕ → σ
  | 0 => s
  | n + 1 => step (states step s es n) (es n)

/-- The invariant rule for endless runs. -/
theorem inv_states {I : σ → Prop} (hstep : ∀ s e, I s → I (step s e)) {s : σ} (hI : I s)
    (es : ℕ → ε) (n : ℕ) : I (states step s es n) := by
  induction n with
  | zero => exact hI
  | succ n ih => exact hstep _ _ ih

/-- What steps keep once it is so, stays so. -/
theorem states_persist {P : σ → Prop} (hstep : ∀ s e, P s → P (step s e)) {s : σ} {es : ℕ → ε}
    {n m : ℕ} (hnm : n ≤ m) (hP : P (states step s es n)) : P (states step s es m) := by
  induction m, hnm using Nat.le_induction with
  | base => exact hP
  | succ m _ ih => exact hstep _ _ ih

/-- The progress rule: where a bounded rank rises with every change, there is a last change. -/
theorem exists_last_change {f : ℕ → α} {rank : α → ℕ} {bound : ℕ} (hbound : ∀ a, rank a ≤ bound)
    (hstep : ∀ n, f (n + 1) = f n ∨ rank (f n) < rank (f (n + 1))) (n : ℕ) :
    ∃ n₀ ≥ n, ∀ m ≥ n₀, f m = f n₀ := by
  -- induction on how far the rank can still rise
  induction hk : bound - rank (f n) using Nat.strong_induction_on generalizing n with
  | _ k ih =>
      by_cases hchange : ∃ m ≥ n, f (m + 1) ≠ f m ∧ f m = f n
      · obtain ⟨m, hm, hne, hsame⟩ := hchange
        have hrise := (hstep m).resolve_left hne
        have hle := hbound (f (m + 1))
        rw [hsame] at hrise
        obtain ⟨n₀, hn₀, hstill⟩ := ih (bound - rank (f (m + 1))) (by omega) (m + 1) rfl
        exact ⟨n₀, by omega, hstill⟩
      · refine ⟨n, Nat.le_refl n, fun m hm => ?_⟩
        induction m, hm using Nat.le_induction with
        | base => rfl
        | succ m hm hsame =>
            by_contra hne
            exact hchange ⟨m, hm, fun he => hne (he.trans hsame), hsame⟩

/-- A run that goes on with a step that changes nothing. -/
theorem states_padded {s : σ} {es : List ε} {e : ε}
    (hend : step (run step s es) e = run step s es) {n : ℕ} (hn : es.length ≤ n) :
    states step s (fun i => es.getD i e) n = run step s es := by
  have htaken : ∀ n ≤ es.length,
      states step s (fun i => es.getD i e) n = run step s (es.take n) := by
    intro n hn
    induction n with
    | zero => rfl
    | succ n ih =>
        have hlt : n < es.length := hn
        rw [states, ih (Nat.le_of_lt hlt), List.take_succ_eq_append_getElem hlt, run_append,
          List.getD_eq_getElem _ _ hlt]
        rfl
  induction n, hn using Nat.le_induction with
  | base => rw [htaken _ (Nat.le_refl _), List.take_length]
  | succ n hn ih =>
      rw [states, ih, List.getD_eq_default _ _ hn]
      exact hend

/-! ## Observed runs -/

/-- The letters of a run, in order. -/
def trace (step : σ → ε → σ) (obs : σ → ε → Option α) : σ → List ε → List α
  | _, [] => []
  | s, e :: es => (obs s e).toList ++ trace step obs (step s e) es

theorem trace_append {obs : σ → ε → Option α} {s : σ} {as bs : List ε} :
    trace step obs s (as ++ bs) = trace step obs s as ++ trace step obs (run step s as) bs := by
  induction as generalizing s with
  | nil => rfl
  | cons a as ih =>
      rw [List.cons_append, trace, trace, ih, List.append_assoc]
      rfl

/-- What holds of every letter of a run holds of each where it is written. -/
theorem along_letters_iff {obs : σ → ε → Option α} {P : α → Prop} {es : List ε} {s : σ} :
    Along step (fun s e => ∀ a ∈ obs s e, P a) s es ↔ ∀ a ∈ trace step obs s es, P a := by
  induction es generalizing s with
  | nil => exact iff_of_true trivial (fun a ha => absurd ha List.not_mem_nil)
  | cons e es ih =>
      rw [Along, trace, List.forall_mem_append, ih]
      simp only [Option.mem_toList, Option.mem_def]

/-- The leaving rule: where the only way out is a step with a certain letter, a run that gets out
has written it. -/
theorem letter_of_leaving {G : σ → ε → Prop} {I : σ → Prop} {obs : σ → ε → Option α} {R : α → Prop}
    (hstep : ∀ s e, I s → G s e → I (step s e) ∨ ∃ a ∈ obs s e, R a) {es : List ε} {s : σ}
    (hI : I s) (hG : Along step G s es) (hout : ¬ I (run step s es)) :
    ∃ a ∈ trace step obs s es, R a := by
  induction es generalizing s with
  | nil => exact absurd hI hout
  | cons e es ih =>
      rcases hstep s e hI hG.1 with hin | ⟨a, ha, hR⟩
      · obtain ⟨a, ha, hR⟩ := ih hin hG.2 hout
        exact ⟨a, List.mem_append_right _ ha, hR⟩
      · exact ⟨a, List.mem_append_left _ (Option.mem_toList.mpr ha), hR⟩

/-- A word of letters can be read through a second observation. -/
theorem trace_filterMap {γ : Type*} (obs : σ → ε → Option α) (g : α → Option γ) (s : σ)
    (es : List ε) :
    (trace step obs s es).filterMap g = trace step (fun s e => (obs s e).bind g) s es := by
  induction es generalizing s with
  | nil => rfl
  | cons e es ih =>
      rw [trace, trace, List.filterMap_append, ih]
      cases obs s e with
      | none => rfl
      | some a => cases h : g a <;> simp [h]

/-- The simulation rule: if under an invariant every guarded step changes the view as its
letter prescribes, a guarded run changes it as its trace does. -/
theorem view_run {G : σ → ε → Prop} {I : σ → Prop} {obs : σ → ε → Option α} {view : σ → β}
    {act : β → α → β} (hinv : ∀ s e, I s → G s e → I (step s e))
    (hview : ∀ s e, I s → G s e → view (step s e) = (obs s e).elim (view s) (act (view s)))
    {es : List ε} {s : σ} (hI : I s) (hG : Along step G s es) :
    view (run step s es) = (trace step obs s es).foldl act (view s) := by
  induction es generalizing s with
  | nil => rfl
  | cons e es ih =>
      rw [run_cons, ih (hinv s e hI hG.1) hG.2, hview s e hI hG.1, trace, List.foldl_append]
      cases obs s e with
      | none => rfl
      | some a => rfl

/-- A run is a fold. -/
theorem run_eq_foldl (s : σ) (es : List ε) : run step s es = es.foldl step s := by
  induction es generalizing s with
  | nil => rfl
  | cons e es ih => exact ih (step s e)

/-- The spelling rule: if moreover the view allows every letter, the trace is a word that the
automaton on views accepts. -/
theorem along_trace {G : σ → ε → Prop} {I : σ → Prop} {obs : σ → ε → Option α} {view : σ → β}
    {act : β → α → β} {A : β → α → Prop} (hinv : ∀ s e, I s → G s e → I (step s e))
    (hview : ∀ s e, I s → G s e → view (step s e) = (obs s e).elim (view s) (act (view s)))
    (hallow : ∀ s e, I s → G s e → ∀ a ∈ obs s e, A (view s) a)
    {es : List ε} {s : σ} (hI : I s) (hG : Along step G s es) :
    Along act A (view s) (trace step obs s es) := by
  induction es generalizing s with
  | nil => trivial
  | cons e es ih =>
      have hv := hview s e hI hG.1
      have hallowed := hallow s e hI hG.1
      have hrest := ih (hinv s e hI hG.1) hG.2
      rw [trace]
      cases hobs : obs s e with
      | none =>
          rw [hobs] at hv
          rw [show view (step s e) = view s from hv] at hrest
          exact hrest
      | some a =>
          rw [hobs] at hv
          rw [show view (step s e) = act (view s) a from hv] at hrest
          exact ⟨hallowed a hobs, hrest⟩

/-- Along a guarded run whose steps change the view as their letters prescribe, the trace is a word
that the automaton accepts exactly when each step's letter is allowed where it is written. -/
theorem along_trace_iff {G : σ → ε → Prop} {I : σ → Prop} {obs : σ → ε → Option α} {view : σ → β}
    {act : β → α → β} {A : β → α → Prop} (hinv : ∀ s e, I s → G s e → I (step s e))
    (hview : ∀ s e, I s → G s e → view (step s e) = (obs s e).elim (view s) (act (view s)))
    {es : List ε} {s : σ} (hI : I s) (hG : Along step G s es) :
    Along act A (view s) (trace step obs s es) ↔
      Along step (fun s e => ∀ a ∈ obs s e, A (view s) a) s es := by
  induction es generalizing s with
  | nil => exact Iff.rfl
  | cons e es ih =>
      have hv := hview s e hI hG.1
      have hrest := ih (hinv s e hI hG.1) hG.2
      rw [trace, Along, ← hrest, hv]
      cases hobs : obs s e with
      | none =>
          exact (and_iff_right fun a ha => absurd ha (Option.not_mem_none a)).symm
      | some a =>
          rw [Option.toList_some, List.singleton_append, Along, Option.elim_some]
          exact and_congr_left fun _ => (by simp)

/-- An action that forgets the old view leaves what the last letter sets. -/
theorem foldl_set (f : α → β) (b : β) (as : List α) :
    as.foldl (fun _ a => f a) b = (as.getLast?.map f).getD b := by
  induction as generalizing b with
  | nil => rfl
  | cons a as ih =>
      rw [List.foldl_cons, ih, List.getLast?_cons]
      cases as.getLast? with
      | none => rfl
      | some a' => rfl

end Runs
