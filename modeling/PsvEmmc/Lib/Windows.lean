/-
# `Windows` — a flag that is set while calls are in progress

A program sets a flag before a call and clears it after the call, so that
others see whether the call is in progress.  With calls of several threads it
is one flag for all of them, and the first that returns clears it.  A call may
also decide on its arguments whether to set the flag, and decide again when it
returns whether to clear it.

The flag tells the truth after a call has begun.  After one has returned it
does so exactly when the flag was cleared by the last call in progress, and the
last one has cleared it (`honest_leave_iff`).
-/
import Mathlib

namespace Windows

variable {τ : Type*}

/-- The flag, and the calls in progress that have set it. -/
structure Window (τ : Type*) where
  flag : Bool := false
  inside : List τ := []

namespace Window

/-- A call begins, and sets the flag or does not. -/
def enter (w : Window τ) (t : τ) (raises : Bool) : Window τ :=
  if raises then ⟨true, t :: w.inside⟩ else w

/-- A call that has set the flag is in progress. -/
def busy (w : Window τ) : Bool := !w.inside.isEmpty

/-- The flag tells whether a call is in progress. -/
def Honest (w : Window τ) : Prop := w.flag = w.busy

theorem honest_iff {w : Window τ} : w.Honest ↔ (w.flag = true ↔ w.inside ≠ []) := by
  rw [Honest, Bool.eq_iff_iff, busy, Bool.not_eq_true', Bool.eq_false_iff, ne_eq, ne_eq,
    List.isEmpty_iff]

theorem honest_empty : ({} : Window τ).Honest := rfl

theorem Honest.enter {w : Window τ} (h : w.Honest) (t : τ) (raises : Bool) :
    (w.enter t raises).Honest := by
  cases raises with
  | false => exact h
  | true => rfl

variable [DecidableEq τ]

/-- A call returns, and clears the flag or does not. -/
def leave (w : Window τ) (t : τ) (lowers : Bool) : Window τ :=
  ⟨w.flag && !lowers, w.inside.erase t⟩

/-- The call that returns clears the flag and is the last, or leaves it to the others. -/
def InTurn (w : Window τ) (t : τ) (lowers : Bool) : Prop :=
  if lowers then w.inside.erase t = [] else w.inside.erase t = [] → w.inside = []

instance (w : Window τ) (t : τ) (lowers : Bool) : Decidable (w.InTurn t lowers) := by
  unfold InTurn
  infer_instance

theorem honest_leave_iff {w : Window τ} (h : w.Honest) (t : τ) (lowers : Bool) :
    (w.leave t lowers).Honest ↔ w.InTurn t lowers := by
  rw [honest_iff] at h
  rw [honest_iff, leave, InTurn]
  cases lowers with
  | true =>
      simp only [Bool.not_true, Bool.and_false, Bool.false_eq_true, false_iff, not_not, if_true]
  | false =>
      have hnone : w.inside = [] → w.inside.erase t = [] := by
        intro hempty
        rw [hempty]
        rfl
      simp only [Bool.not_false, Bool.and_true, h, Bool.false_eq_true, if_false]
      exact ⟨fun hiff => not_imp_not.mp hiff.mp, fun hturn => ⟨mt hturn, mt hnone⟩⟩

end Window

end Windows
