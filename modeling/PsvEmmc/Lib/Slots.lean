/-
# `Slots` — variables that are set one by one and swept later

A program keeps one variable for each of many things it may set up, sets some
of them in the course of a start, each to what it was answered, and later
sweeps a list of all of them for the valid ones.  Setting in any order gives
each variable that was set its answer and leaves the others alone
(`setAll_apply`).  A sweep that covers what was set finds the valid answers,
and beside them the variables that were never set and looked valid from the
beginning (`sweep_perm`).
-/
import Mathlib

namespace Slots

open scoped List

variable {κ β : Type*} [DecidableEq κ]

/-- Each of the variables set to its answer. -/
def setAll (answer : κ → β) (ks : List κ) (g : κ → β) : κ → β :=
  ks.foldl (fun g k => Function.update g k (answer k)) g

theorem setAll_apply (answer : κ → β) (ks : List κ) (g : κ → β) (k : κ) :
    setAll answer ks g k = if k ∈ ks then answer k else g k := by
  induction ks generalizing g with
  | nil => rfl
  | cons a ks ih =>
      have hrest := ih (Function.update g a (answer a))
      by_cases hks : k ∈ ks
      · rw [if_pos hks] at hrest
        rw [if_pos (List.mem_cons_of_mem a hks)]
        exact hrest
      · rw [if_neg hks] at hrest
        refine hrest.trans ?_
        rcases eq_or_ne k a with rfl | hne
        · rw [Function.update_self, if_pos List.mem_cons_self]
        · rw [Function.update_of_ne hne, if_neg (List.not_mem_cons_of_ne_of_not_mem hne hks)]

/-- A sweep finds what was set to something valid, and what was valid without being set. -/
theorem sweep_perm {set sweep : List κ} (hset : set.Nodup) (hsweep : sweep.Nodup)
    (hsub : set ⊆ sweep) (valid old : κ → Bool) :
    sweep.filter (fun k => if k ∈ set then valid k else old k) ~
      set.filter valid ++ sweep.filter (fun k => decide (k ∉ set) && old k) := by
  refine (List.perm_ext_iff_of_nodup (hsweep.filter _) ?_).mpr fun k => ?_
  · refine (hset.filter _).append (hsweep.filter _) fun k hk hk' => ?_
    have hnot := (List.mem_filter.mp hk').2
    simp only [Bool.and_eq_true, decide_eq_true_eq] at hnot
    exact hnot.1 (List.mem_filter.mp hk).1
  · simp only [List.mem_append, List.mem_filter, Bool.and_eq_true, decide_eq_true_eq]
    by_cases hk : k ∈ set
    · simp [hk, hsub hk]
    · simp [hk]

end Slots
