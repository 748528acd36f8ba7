/-
# `Filling` — cells filled from the front through a running index

A loop that keeps what it finds writes it to the next cell and moves an index
on.  A `Cursor` is that index with the cells, which go on as far as memory
does, and the indices written so far: whether a write was inside the array is
a question about the indices.

What such loops do is one operation, `putAll`, which puts a list of values in
a row.  A loop that looks at each of `xs` and keeps some of them puts those
(`foldl_put`), and loops in a row put their values in a row (`putAll_append`).
-/
import Mathlib

namespace Filling

variable {α β : Type*}

/-- The cells, the index of the next one to write, and the indices written so far. -/
structure Cursor (α : Type*) where
  index : Nat := 0
  cells : Nat → α
  writes : List Nat := []

namespace Cursor

/-- Write the next cell. -/
def put (c : Cursor α) (a : α) : Cursor α where
  index := c.index + 1
  cells := Function.update c.cells c.index a
  writes := c.writes ++ [c.index]

/-- Write the next cells. -/
def putAll (c : Cursor α) (as : List α) : Cursor α := as.foldl put c

@[simp] theorem putAll_nil (c : Cursor α) : c.putAll [] = c := rfl

@[simp] theorem putAll_cons (c : Cursor α) (a : α) (as : List α) :
    c.putAll (a :: as) = (c.put a).putAll as := rfl

theorem putAll_append (c : Cursor α) (as bs : List α) :
    c.putAll (as ++ bs) = (c.putAll as).putAll bs := by
  rw [putAll, List.foldl_append]
  rfl

/-- A loop over `xs` that puts `f x` where there is one. -/
theorem foldl_put (f : β → Option α) (xs : List β) (c : Cursor α) :
    xs.foldl (fun c x => (f x).elim c c.put) c = c.putAll (xs.filterMap f) := by
  induction xs generalizing c with
  | nil => rfl
  | cons x xs ih =>
      rw [List.foldl_cons, ih]
      cases h : f x with
      | none => rw [List.filterMap_cons_none h, Option.elim_none]
      | some a => rw [List.filterMap_cons_some h, Option.elim_some, putAll_cons]

@[simp] theorem index_putAll (c : Cursor α) (as : List α) :
    (c.putAll as).index = c.index + as.length := by
  induction as generalizing c with
  | nil => rfl
  | cons a as ih =>
      rw [putAll_cons, ih, List.length_cons, Nat.add_comm as.length, ← Nat.add_assoc]
      rfl

theorem writes_putAll (c : Cursor α) (as : List α) :
    (c.putAll as).writes = c.writes ++ List.range' c.index as.length := by
  induction as generalizing c with
  | nil => exact (List.append_nil _).symm
  | cons a as ih =>
      rw [putAll_cons, ih, List.length_cons, List.range'_succ, put, List.append_assoc]
      rfl

/-- The cells in front of the index stay as they are. -/
theorem cells_putAll_of_lt (c : Cursor α) (as : List α) {j : Nat} (hj : j < c.index) :
    (c.putAll as).cells j = c.cells j := by
  induction as generalizing c with
  | nil => rfl
  | cons a as ih =>
      rw [putAll_cons, ih (c.put a) (Nat.lt_succ_of_lt hj)]
      exact Function.update_of_ne hj.ne _ _

/-- The cells from the index on hold the values, and behind them what they held. -/
theorem cells_putAll (c : Cursor α) (as : List α) (j : Nat) :
    (c.putAll as).cells (c.index + j) = as.getD j (c.cells (c.index + j)) := by
  induction as generalizing c j with
  | nil => rfl
  | cons a as ih =>
      rw [putAll_cons]
      cases j with
      | zero =>
          rw [Nat.add_zero, cells_putAll_of_lt (c.put a) as (Nat.lt_succ_self c.index),
            List.getD_cons_zero]
          exact Function.update_self _ _ _
      | succ j =>
          have hindex : c.index + (j + 1) = (c.put a).index + j := by
            show c.index + (j + 1) = c.index + 1 + j
            omega
          have hother : (c.put a).cells (c.index + (j + 1)) = c.cells (c.index + (j + 1)) :=
            Function.update_of_ne (by omega) _ _
          rw [List.getD_cons_succ, hindex, ih, ← hindex, hother]

end Cursor

/-- The first `n` cells. -/
def front (cells : Nat → α) (n : Nat) : List α := (List.range n).map cells

@[simp] theorem length_front (cells : Nat → α) (n : Nat) : (front cells n).length = n := by
  rw [front, List.length_map, List.length_range]

theorem getElem?_front (cells : Nat → α) {n j : Nat} (h : j < n) :
    (front cells n)[j]? = some (cells j) := by
  rw [front, List.getElem?_map, List.getElem?_range h]
  rfl

theorem front_congr {cells cells' : Nat → α} {n : Nat} (h : ∀ j < n, cells j = cells' j) :
    front cells n = front cells' n :=
  List.map_congr_left fun j hj => h j (List.mem_range.mp hj)

theorem front_add (cells : Nat → α) (m n : Nat) :
    front cells (m + n) = front cells m ++ front (fun i => cells (m + i)) n := by
  rw [front, List.range_add, List.map_append, List.map_map]
  rfl

/-- Cells that hold a list entry by entry are the list. -/
theorem front_eq {cells : Nat → α} {as : List α}
    (h : ∀ i a, as[i]? = some a → cells i = a) : front cells as.length = as := by
  refine List.ext_getElem? fun i => ?_
  rcases Nat.lt_or_ge i as.length with hi | hi
  · rw [getElem?_front _ hi, List.getElem?_eq_getElem hi, h i _ (List.getElem?_eq_getElem hi)]
  · rw [List.getElem?_eq_none hi, List.getElem?_eq_none (by rwa [length_front])]

/-- Cells that read a list through are the list. -/
theorem front_getD (as : List α) (cells : Nat → α) :
    front (fun j => as.getD j (cells j)) as.length = as := by
  refine List.ext_getElem? fun j => ?_
  rcases Nat.lt_or_ge j as.length with hj | hj
  · rw [getElem?_front _ hj, List.getElem?_eq_getElem hj, List.getD_eq_getElem _ _ hj]
  · rw [List.getElem?_eq_none hj, List.getElem?_eq_none (by rwa [length_front])]

/-- An array filled from its start holds the values, and a rest of the old cells. -/
theorem front_putAll (cells : Nat → α) (as : List α) (n : Nat) :
    front (Cursor.putAll { cells := cells } as).cells n =
      as.take n ++ (List.range' as.length (n - as.length)).map cells := by
  have hcell : ∀ j, (Cursor.putAll { cells := cells } as).cells j = as.getD j (cells j) := by
    intro j
    have hput := Cursor.cells_putAll { cells := cells } as j
    rwa [Nat.zero_add] at hput
  refine List.ext_getElem? fun j => ?_
  rcases Nat.lt_or_ge j n with hj | hj
  · rw [getElem?_front _ hj, hcell]
    rcases Nat.lt_or_ge j as.length with hlen | hlen
    · rw [List.getElem?_append_left (by rw [List.length_take]; omega), List.getElem?_take_of_lt hj,
        List.getElem?_eq_getElem hlen, List.getD_eq_getElem _ _ hlen]
    · have htake : (as.take n).length = as.length := by
        rw [List.length_take]
        omega
      rw [List.getElem?_append_right (by omega), htake, List.getElem?_map,
        List.getElem?_range' (by omega), List.getD_eq_default _ _ hlen, Option.map_some]
      congr 2
      omega
  · rw [List.getElem?_eq_none (by rwa [length_front]), List.getElem?_eq_none]
    rw [List.length_append, List.length_take, List.length_map, List.length_range']
    omega

/-- The indices written from the start on are inside `n` cells exactly when the values fit. -/
theorem range'_lt_iff {k n : Nat} : (∀ i ∈ List.range' 0 k, i < n) ↔ k ≤ n := by
  constructor
  · intro h
    by_contra hlt
    exact absurd (h n (List.mem_range'_1.mpr ⟨Nat.zero_le n, by omega⟩)) (Nat.lt_irrefl n)
  · intro h i hi
    have := (List.mem_range'_1.mp hi).2
    omega

end Filling
