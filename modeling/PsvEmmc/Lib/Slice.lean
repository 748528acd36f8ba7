/-
# `Slice` — contiguous parts of a list, and lists of blocks of one size

A slice is given by its start and its length; a longer slice is two shorter
ones in a row (`slice_add`).  Flattening blocks of one positive size forgets
nothing (`flatMap_injective`), so two files of blocks are equal exactly when
their blocks are.
-/
import Mathlib

namespace Slice

variable {α β : Type*}

/-- The `n` elements from position `a` on. -/
def slice (xs : List α) (a n : Nat) : List α := (xs.drop a).take n

@[simp] theorem slice_zero (xs : List α) (a : Nat) : slice xs a 0 = [] := List.take_zero

theorem slice_add (xs : List α) (a m n : Nat) :
    slice xs a (m + n) = slice xs a m ++ slice xs (a + m) n := by
  simp only [slice, List.take_add, List.drop_drop]

theorem length_slice {xs : List α} {a n : Nat} (h : a + n ≤ xs.length) :
    (slice xs a n).length = n := by
  rw [slice, List.length_take, List.length_drop]
  exact Nat.min_eq_left (Nat.le_sub_of_add_le' h)

/-- An element of a slice is an element of the list. -/
theorem getElem?_slice (xs : List α) {a n i : Nat} (h : i < n) :
    (slice xs a n)[i]? = xs[a + i]? := by
  rw [slice, List.getElem?_take_of_lt h, List.getElem?_drop]

/-- Blocks of one positive size can be told apart in a row. -/
theorem flatMap_injective {f : α → List β} {w : Nat} (hw : 0 < w)
    (hlen : ∀ a, (f a).length = w) (hf : Function.Injective f) :
    Function.Injective (fun xs : List α => xs.flatMap f) := by
  intro xs
  induction xs with
  | nil =>
      intro ys h
      cases ys with
      | nil => rfl
      | cons y ys =>
          have hl := congrArg List.length h
          simp only [List.flatMap_nil, List.length_nil, List.flatMap_cons, List.length_append,
            hlen] at hl
          omega
  | cons x xs ih =>
      intro ys h
      cases ys with
      | nil =>
          have hl := congrArg List.length h
          simp only [List.flatMap_nil, List.length_nil, List.flatMap_cons, List.length_append,
            hlen] at hl
          omega
      | cons y ys =>
          simp only [List.flatMap_cons] at h
          obtain ⟨hx, hxs⟩ := List.append_inj h ((hlen x).trans (hlen y).symm)
          rw [hf hx, ih hxs]

end Slice
