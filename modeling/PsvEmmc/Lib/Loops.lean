/-
# `Loops` — loops that can fail, with a bound on their rounds

A round of a loop fails, is done, or goes on in a new state.  A loop in a
model has a bound on its rounds, so a proof about it has to say that the bound
is not reached.  `repeatUntil_of_variant` says it together with what the loop
does: when each round keeps an invariant and decreases a variant that starts
below the bound, no round fails and the loop ends.

A loop over a list that stores a value for each element, each at a place of
its own, leaves these values and what was elsewhere.
-/
import Mathlib

namespace Loops

variable {σ : Type*}

/-- Rounds until one is done; nothing when a round fails or there are too many. -/
def repeatUntil (round : σ → Option (ForInStep σ)) : Nat → σ → Option σ
  | 0, _ => none
  | bound + 1, s =>
      match round s with
      | none => none
      | some (.done s') => some s'
      | some (.yield s') => repeatUntil round bound s'

variable {round : σ → Option (ForInStep σ)}

theorem repeatUntil_done {s s' : σ} (h : round s = some (.done s')) (bound : Nat) :
    repeatUntil round (bound + 1) s = some s' := by
  rw [repeatUntil, h]

theorem repeatUntil_yield {s s' : σ} (h : round s = some (.yield s')) (bound : Nat) :
    repeatUntil round (bound + 1) s = repeatUntil round bound s' := by
  rw [repeatUntil, h]

/-- The rule for total correctness. -/
theorem repeatUntil_of_variant {I Q : σ → Prop} (variant : σ → Nat)
    (hround : ∀ s, I s → (∃ s', round s = some (.done s') ∧ Q s') ∨
      ∃ s', round s = some (.yield s') ∧ I s' ∧ variant s' < variant s)
    {bound : Nat} {s : σ} (hI : I s) (hbound : variant s < bound) :
    ∃ s', repeatUntil round bound s = some s' ∧ Q s' := by
  induction bound generalizing s with
  | zero => exact absurd hbound (Nat.not_lt_zero _)
  | succ bound ih =>
      rcases hround s hI with ⟨s', hs', hQ⟩ | ⟨s', hs', hI', hless⟩
      · exact ⟨s', repeatUntil_done hs' bound, hQ⟩
      · rw [repeatUntil_yield hs']
        exact ih hI' (by omega)

/-! ## Stores at places -/

variable {α β : Type*}

/-- A fold in which no step fails. -/
theorem foldlM_some {step : σ → β → Option σ} {f : σ → β → σ} {bs : List β}
    (h : ∀ b ∈ bs, ∀ s, step s b = some (f s b)) (s : σ) :
    bs.foldlM step s = some (bs.foldl f s) := by
  induction bs generalizing s with
  | nil => rfl
  | cons b bs ih =>
      obtain ⟨hb, hbs⟩ := List.forall_mem_cons.mp h
      rw [List.foldlM_cons, hb s]
      exact ih hbs (f s b)

theorem foldl_update_other {place : β → Nat} (value : β → α) {bs : List β} {k : Nat}
    (hk : ∀ b ∈ bs, place b ≠ k) (mem : Nat → α) :
    bs.foldl (fun mem b => Function.update mem (place b) (value b)) mem k = mem k := by
  induction bs generalizing mem with
  | nil => rfl
  | cons b bs ih =>
      obtain ⟨hb, hbs⟩ := List.forall_mem_cons.mp hk
      rw [List.foldl_cons, ih hbs, Function.update_of_ne hb.symm]

theorem foldl_update_place {place : β → Nat} (hplace : Function.Injective place) (value : β → α)
    {bs : List β} {b : β} (hb : b ∈ bs) (mem : Nat → α) :
    bs.foldl (fun mem b => Function.update mem (place b) (value b)) mem (place b) = value b := by
  induction bs generalizing mem with
  | nil => exact absurd hb List.not_mem_nil
  | cons b' bs ih =>
      rw [List.foldl_cons]
      by_cases hlater : b ∈ bs
      · exact ih hlater _
      · obtain rfl : b = b' := (List.mem_cons.mp hb).resolve_right hlater
        have hother : ∀ c ∈ bs, place c ≠ place b := by
          intro c hc h
          rw [hplace h] at hc
          exact hlater hc
        rw [foldl_update_other value hother, Function.update_self]

end Loops
