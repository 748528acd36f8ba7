/-
# `Cyclic` — a buffer that overwrites its oldest entry

A cyclic buffer has `n` cells and an index that goes back to the start when it
comes to the end.  The cells are a function of the index, as in `Filling`, and
what they hold is a question about the history of what was put.

The history falls into laps.  The entries of the last lap are at the start of
the array, in order; behind them is what is left of the lap before; and behind
that, in the first lap, the cells that were not used yet (`front_putAll`).  The
last `n` entries of the history are all there, in two pieces that changed
places (`recent_eq`).

A search from the first cell finds the first match in that order.  It is the
newest match only when no other comes before it: `find_newest_iff` counts, and
`find_match_iff` compares the entries.
-/
import PsvEmmc.Lib.Filling

namespace Cyclic

open Filling

variable {α : Type*}

/-- The cells and the index of the next one to write. -/
structure Buffer (α : Type*) where
  cells : Nat → α
  index : Nat := 0

namespace Buffer

/-- Write the next of `n` cells. -/
def put (n : Nat) (b : Buffer α) (a : α) : Buffer α where
  cells := Function.update b.cells b.index a
  index := if b.index + 1 = n then 0 else b.index + 1

/-- Write the next cells. -/
def putAll (n : Nat) (b : Buffer α) (as : List α) : Buffer α := as.foldl (put n) b

theorem putAll_concat (n : Nat) (b : Buffer α) (as : List α) (a : α) :
    b.putAll n (as ++ [a]) = (b.putAll n as).put n a := by
  rw [putAll, List.foldl_append]
  rfl

end Buffer

/-! ## Laps -/

/-- The last `n` entries. -/
def recent (n : Nat) (as : List α) : List α := as.drop (as.length - n)

/-- The number of entries before the last lap. -/
def lapStart (n : Nat) (as : List α) : Nat := as.length - as.length % n

/-- The entries of the last lap, which is not complete. -/
def current (n : Nat) (as : List α) : List α := as.drop (lapStart n as)

/-- The entries of the lap before that have not been overwritten. -/
def older (n : Nat) (as : List α) : List α := (as.take (lapStart n as)).drop (as.length - n)

/-- The cells that have not been used. -/
def unused (n : Nat) (cells : Nat → α) (as : List α) : List α :=
  front (fun i => cells (as.length + i)) (n - as.length)

/-- The cell of the entry number `i` of the recent ones. -/
def slot (n : Nat) (as : List α) (i : Nat) : Nat := (as.length - n + i) % n

section laps

variable {n : Nat} (as : List α)

theorem lapStart_eq : lapStart n as = n * (as.length / n) := by
  have hlen := Nat.div_add_mod as.length n
  rw [lapStart]
  omega

theorem length_current : (current n as).length = as.length % n := by
  have hle := Nat.mod_le as.length n
  rw [current, lapStart, List.length_drop]
  omega

theorem length_older : (older n as).length = lapStart n as - (as.length - n) := by
  have hle : lapStart n as ≤ as.length := Nat.sub_le _ _
  rw [older, List.length_drop, List.length_take, Nat.min_eq_left hle]

theorem length_recent : (recent n as).length = min as.length n := by
  rw [recent, List.length_drop]
  omega

theorem recent_eq (hn : 0 < n) : recent n as = older n as ++ current n as := by
  have hmod := Nat.mod_lt as.length hn
  have hle : as.length - n ≤ (as.take (lapStart n as)).length := by
    rw [List.length_take, lapStart]
    omega
  rw [recent, older, current, ← List.drop_append_of_le_length hle, List.take_append_drop]

/-- Before the buffer is full there is one lap. -/
theorem lapStart_of_lt (h : as.length < n) : lapStart n as = 0 := by
  rw [lapStart, Nat.mod_eq_of_lt h, Nat.sub_self]

theorem older_of_lt (h : as.length < n) : older n as = [] := by
  rw [older, lapStart_of_lt as h, List.take_zero, List.drop_nil]

theorem current_of_lt (h : as.length < n) : current n as = as := by
  rw [current, lapStart_of_lt as h, List.drop_zero]

/-- When it is full the two laps fill it. -/
theorem length_older_of_le (h : n ≤ as.length) :
    (older n as).length = n - (current n as).length := by
  have hle := Nat.mod_le as.length n
  rw [length_older, length_current, lapStart]
  omega

/-- The entries of the last lap are in front. -/
theorem slot_current (hn : 0 < n) {k : Nat} (hk : k < (current n as).length) :
    slot n as ((older n as).length + k) = k := by
  have hmod := Nat.mod_lt as.length hn
  rw [length_current] at hk
  have hnumber : as.length - n + ((older n as).length + k) = n * (as.length / n) + k := by
    rw [← lapStart_eq, length_older]
    have hle : as.length - n ≤ lapStart n as := by
      rw [lapStart]
      omega
    omega
  rw [slot, hnumber, Nat.mul_add_mod, Nat.mod_eq_of_lt (by omega)]

/-- Those of the lap before come behind them. -/
theorem slot_older (hn : 0 < n) {k : Nat} (hk : k < (older n as).length) :
    slot n as k = (current n as).length + k := by
  have hle : n ≤ as.length := by
    by_contra hlt
    rw [older_of_lt as (by omega)] at hk
    exact absurd hk (Nat.not_lt_zero k)
  have hmod := Nat.mod_lt as.length hn
  rw [length_older_of_le as hle, length_current] at hk
  have hlen := Nat.div_add_mod as.length n
  have hdiv : 0 < as.length / n := Nat.div_pos hle hn
  obtain ⟨q, hq⟩ : ∃ q, as.length / n = q + 1 := ⟨as.length / n - 1, by omega⟩
  have hnumber : as.length - n + k = n * q + (as.length % n + k) := by
    rw [hq, Nat.mul_add, Nat.mul_one] at hlen
    omega
  rw [slot, hnumber, Nat.mul_add_mod, Nat.mod_eq_of_lt (by omega), length_current]

/-! The laps of a history are those of what is kept of its events. -/

variable {β : Type*} (f : α → β)

theorem recent_map : recent n (as.map f) = (recent n as).map f := by
  rw [recent, recent, List.length_map, List.map_drop]

theorem lapStart_map : lapStart n (as.map f) = lapStart n as := by
  rw [lapStart, lapStart, List.length_map]

theorem current_map : current n (as.map f) = (current n as).map f := by
  rw [current, current, lapStart_map, List.map_drop]

theorem older_map : older n (as.map f) = (older n as).map f := by
  rw [older, older, lapStart_map, List.length_map, List.map_drop, List.map_take]

theorem slot_map (i : Nat) : slot n (as.map f) i = slot n as i := by
  rw [slot, slot, List.length_map]

end laps

/-! ## What the cells hold -/

section cells

variable {n : Nat} (hn : 0 < n) (cells : Nat → α) (as : List α)

include hn

theorem index_putAll : ((Buffer.mk cells 0).putAll n as).index = as.length % n := by
  induction as using List.reverseRecOn with
  | nil => exact (Nat.zero_mod n).symm
  | append_singleton as a ih =>
      have hnext : (as.length + 1) % n = (as.length % n + 1) % n := (Nat.mod_add_mod _ n 1).symm
      rw [Buffer.putAll_concat, Buffer.put, ih, List.length_append, List.length_singleton, hnext]
      split
      · next hend => rw [hend, Nat.mod_self]
      · next hend =>
          have hmod := Nat.mod_lt as.length hn
          exact (Nat.mod_eq_of_lt (Nat.lt_of_le_of_ne hmod hend)).symm

/-- An entry is in its cell until `n` others have come behind it. -/
theorem cells_putAll {j : Nat} {a : α} (ha : as[j]? = some a) (hj : as.length ≤ j + n) :
    ((Buffer.mk cells 0).putAll n as).cells (j % n) = a := by
  induction as using List.reverseRecOn with
  | nil => cases ha
  | append_singleton as x ih =>
      rw [List.length_append, List.length_singleton] at hj
      rw [Buffer.putAll_concat, Buffer.put, index_putAll hn]
      rcases Nat.lt_or_ge j as.length with hlt | hge
      · rw [List.getElem?_append_left hlt] at ha
        have hne : j % n ≠ as.length % n := by
          intro heq
          have hdvd : n ∣ as.length - j := (Nat.modEq_iff_dvd' hlt.le).mp heq
          have := Nat.le_of_dvd (by omega) hdvd
          omega
        exact (Function.update_of_ne hne _ _).trans (ih ha (by omega))
      · rw [List.getElem?_append_right hge] at ha
        have hlast : j - as.length = 0 := by
          by_contra hne
          rw [List.getElem?_eq_none (by rw [List.length_singleton]; omega)] at ha
          cases ha
        rw [hlast] at ha
        obtain rfl := Option.some.inj ha
        obtain rfl : j = as.length := by omega
        exact Function.update_self _ _ _

/-- A cell that was not used is as it was. -/
theorem cells_putAll_of_le {i : Nat} (hi : as.length ≤ i) :
    ((Buffer.mk cells 0).putAll n as).cells i = cells i := by
  induction as using List.reverseRecOn with
  | nil => rfl
  | append_singleton as x ih =>
      rw [List.length_append, List.length_singleton] at hi
      have hle := Nat.mod_le as.length n
      rw [Buffer.putAll_concat, Buffer.put, index_putAll hn]
      exact (Function.update_of_ne (by omega) _ _).trans (ih (by omega))

theorem cells_slot {i : Nat} {a : α} (ha : (recent n as)[i]? = some a) :
    ((Buffer.mk cells 0).putAll n as).cells (slot n as i) = a := by
  rw [recent, List.getElem?_drop] at ha
  exact cells_putAll hn cells as ha (by omega)

/-- The last lap is at the start of the array. -/
theorem front_current :
    front ((Buffer.mk cells 0).putAll n as).cells (current n as).length = current n as := by
  refine front_eq fun k a ha => ?_
  have hk : k < (current n as).length := (List.getElem?_eq_some_iff.mp ha).1
  rw [← slot_current as hn hk]
  refine cells_slot hn cells as ?_
  rw [recent_eq as hn, List.getElem?_append_right (Nat.le_add_right _ _),
    Nat.add_sub_cancel_left, ha]

/-- What is left of the lap before is behind it. -/
theorem front_older :
    front (fun i => ((Buffer.mk cells 0).putAll n as).cells ((current n as).length + i))
      (older n as).length = older n as := by
  refine front_eq fun k a ha => ?_
  have hk : k < (older n as).length := (List.getElem?_eq_some_iff.mp ha).1
  rw [← slot_older as hn hk]
  refine cells_slot hn cells as ?_
  rw [recent_eq as hn, List.getElem?_append_left hk, ha]

/-- **What the array holds**: the last lap, what is left of the one before, and the cells that
were not used. -/
theorem front_putAll :
    front ((Buffer.mk cells 0).putAll n as).cells n =
      current n as ++ older n as ++ unused n cells as := by
  have hlength : (current n as).length + (older n as).length + (n - as.length) = n := by
    rcases Nat.lt_or_ge as.length n with hlt | hge
    · rw [current_of_lt as hlt, older_of_lt as hlt, List.length_nil]
      omega
    · have hmod := Nat.mod_lt as.length hn
      rw [length_older_of_le as hge, length_current]
      omega
  have hunused : front (fun i => ((Buffer.mk cells 0).putAll n as).cells
      ((current n as).length + (older n as).length + i)) (n - as.length) =
        unused n cells as := by
    refine front_congr fun i hi => ?_
    have hlt : as.length < n := by omega
    rw [current_of_lt as hlt, older_of_lt as hlt]
    exact cells_putAll_of_le hn cells as (Nat.le_add_right _ _)
  calc front ((Buffer.mk cells 0).putAll n as).cells n
      = front ((Buffer.mk cells 0).putAll n as).cells
          ((current n as).length + (older n as).length + (n - as.length)) := by rw [hlength]
    _ = current n as ++ older n as ++ unused n cells as := by
        rw [front_add, front_add, front_current hn, front_older hn, hunused]

end cells

/-! ## Searching from the first cell -/

/-- The entry number `i` is the last that matches. -/
structure IsLast (P : α → Bool) (as : List α) (i : Nat) : Prop where
  holds : ∃ a, as[i]? = some a ∧ P a = true
  last : ∀ a ∈ as.drop (i + 1), ¬ P a = true

section search

variable {P : α → Bool} {as bs : List α}

theorem exists_isLast (h : ∃ a ∈ as, P a = true) : ∃ i, IsLast P as i := by
  induction as with
  | nil =>
      obtain ⟨a, ha, _⟩ := h
      exact absurd ha List.not_mem_nil
  | cons x xs ih =>
      by_cases hxs : ∃ a ∈ xs, P a = true
      · obtain ⟨i, hi⟩ := ih hxs
        exact ⟨i + 1, hi.holds, hi.last⟩
      · obtain ⟨a, ha, hP⟩ := h
        rcases List.mem_cons.mp ha with rfl | ha
        · exact ⟨0, ⟨a, rfl, hP⟩, fun b hb hPb => hxs ⟨b, hb, hPb⟩⟩
        · exact absurd ⟨a, ha, hP⟩ hxs

theorem IsLast.exists_mem {i : Nat} (h : IsLast P as i) : ∃ a ∈ as, P a = true := by
  obtain ⟨a, ha, hP⟩ := h.holds
  exact ⟨a, List.mem_of_getElem? ha, hP⟩

theorem IsLast.lt {i : Nat} (h : IsLast P as i) : i < as.length := by
  obtain ⟨a, ha, _⟩ := h.holds
  exact (List.getElem?_eq_some_iff.mp ha).1

theorem isLast_map {β : Type*} {f : β → α} {bs : List β} {i : Nat} :
    IsLast P (bs.map f) i ↔ IsLast (fun b => P (f b)) bs i := by
  constructor
  · rintro ⟨⟨a, ha, hP⟩, hlast⟩
    rw [List.getElem?_map] at ha
    obtain ⟨b, hb, rfl⟩ := Option.map_eq_some_iff.mp ha
    rw [← List.map_drop, List.forall_mem_map] at hlast
    exact ⟨⟨b, hb, hP⟩, hlast⟩
  · rintro ⟨⟨b, hb, hP⟩, hlast⟩
    refine ⟨⟨f b, ?_, hP⟩, ?_⟩
    · rw [List.getElem?_map, hb, Option.map_some]
    · rw [← List.map_drop, List.forall_mem_map]
      exact hlast

/-- With a match in `bs`, the last match of `as ++ bs` is there. -/
theorem isLast_append_of_exists (h : ∃ b ∈ bs, P b = true) {i : Nat} :
    IsLast P (as ++ bs) i ↔ ∃ k, i = as.length + k ∧ IsLast P bs k := by
  constructor
  · rintro ⟨⟨a, ha, hP⟩, hlast⟩
    rcases Nat.lt_or_ge i as.length with hlt | hge
    · obtain ⟨b, hb, hPb⟩ := h
      refine absurd hPb (hlast b ?_)
      rw [List.drop_append_of_le_length hlt]
      exact List.mem_append_right _ hb
    · obtain ⟨k, rfl⟩ := Nat.exists_eq_add_of_le hge
      rw [List.getElem?_append_right hge, Nat.add_sub_cancel_left] at ha
      rw [Nat.add_assoc, List.drop_length_add_append] at hlast
      exact ⟨k, rfl, ⟨a, ha, hP⟩, hlast⟩
  · rintro ⟨k, rfl, ⟨a, ha, hP⟩, hlast⟩
    refine ⟨⟨a, ?_, hP⟩, ?_⟩
    · rw [List.getElem?_append_right (Nat.le_add_right _ _), Nat.add_sub_cancel_left, ha]
    · rwa [Nat.add_assoc, List.drop_length_add_append]

/-- Without one it is the last match of `as`. -/
theorem isLast_append_of_not (h : ∀ b ∈ bs, ¬ P b = true) {i : Nat} :
    IsLast P (as ++ bs) i ↔ IsLast P as i := by
  constructor
  · rintro ⟨⟨a, ha, hP⟩, hlast⟩
    rcases Nat.lt_or_ge i as.length with hlt | hge
    · rw [List.getElem?_append_left hlt] at ha
      refine ⟨⟨a, ha, hP⟩, fun b hb => hlast b ?_⟩
      rw [List.drop_append_of_le_length hlt]
      exact List.mem_append_left _ hb
    · rw [List.getElem?_append_right hge] at ha
      exact absurd hP (h a (List.mem_of_getElem? ha))
  · rintro ⟨⟨a, ha, hP⟩, hlast⟩
    have hlt : i < as.length := (List.getElem?_eq_some_iff.mp ha).1
    refine ⟨⟨a, ?_, hP⟩, ?_⟩
    · rw [List.getElem?_append_left hlt, ha]
    · rw [List.drop_append_of_le_length hlt]
      exact List.forall_mem_append.mpr ⟨hlast, h⟩

/-- The first match is the last one exactly when there are no two. -/
theorem findIdx?_last_iff :
    (∀ i, IsLast P as i → as.findIdx? P = some i) ↔ as.countP P ≤ 1 := by
  induction as with
  | nil => exact iff_of_true (fun i h => by obtain ⟨a, ha, _⟩ := h.exists_mem; cases ha) (by simp)
  | cons x xs ih =>
      by_cases hx : P x = true
      · rw [List.countP_cons_of_pos hx, List.findIdx?_cons, if_pos hx]
        have hzero : xs.countP P + 1 ≤ 1 ↔ ∀ a ∈ xs, ¬ P a = true :=
          (Nat.succ_le_succ_iff.trans Nat.le_zero).trans List.countP_eq_zero
        rw [hzero]
        constructor
        · intro h a ha hP
          obtain ⟨i, hi⟩ := exists_isLast ⟨a, ha, hP⟩
          cases h (i + 1) ⟨hi.holds, hi.last⟩
        · intro h i hi
          cases i with
          | zero => rfl
          | succ i =>
              obtain ⟨a, ha, hP⟩ := hi.holds
              exact absurd hP (h a (List.mem_of_getElem? ha))
      · rw [List.countP_cons_of_neg hx, List.findIdx?_cons, if_neg hx, ← ih]
        constructor
        · intro h i hi
          obtain ⟨j, hj, hji⟩ := Option.map_eq_some_iff.mp (h (i + 1) ⟨hi.holds, hi.last⟩)
          rw [hj, Nat.succ.inj hji]
        · intro h i hi
          cases i with
          | zero =>
              obtain ⟨a, ha, hP⟩ := hi.holds
              cases ha
              exact absurd hP hx
          | succ i =>
              rw [h i ⟨hi.holds, hi.last⟩]
              rfl

theorem findIdx?_append_of_exists (h : ∃ a ∈ as, P a = true) :
    (as ++ bs).findIdx? P = as.findIdx? P := by
  rw [List.findIdx?_append, Option.or_of_isSome]
  rwa [List.findIdx?_isSome, List.any_eq_true]

theorem findIdx?_append_of_not (h : ∀ a ∈ as, ¬ P a = true) :
    (as ++ bs).findIdx? P = (bs.findIdx? P).map fun i => i + as.length := by
  have hnone : as.findIdx? P = none :=
    List.findIdx?_eq_none_iff.mpr fun a ha => Bool.eq_false_iff.mpr (h a ha)
  rw [List.findIdx?_append, hnone, Option.none_or]

/-- There is one match in the last lap; or none there, and one in the lap before; or none in
either, and none in an unused cell. -/
def OneMatch (P : α → Bool) (n : Nat) (cells : Nat → α) (as : List α) : Prop :=
  (current n as).countP P = 1 ∨
    ((current n as).countP P = 0 ∧
      ((older n as).countP P = 1 ∨
        ((older n as).countP P = 0 ∧ ∀ a ∈ unused n cells as, ¬ P a = true)))

/-- With a match in the last lap, it has to be the only one there. -/
theorem find_current_iff {n : Nat} (hn : 0 < n) (as bs : List α)
    (hcurrent : ∃ a ∈ current n as, P a = true) :
    (∀ i, IsLast P (recent n as) i →
        (current n as ++ bs).findIdx? P = some (slot n as i)) ↔
      (current n as).countP P = 1 := by
  have hpos : 0 < (current n as).countP P := List.countP_pos_iff.mpr hcurrent
  have hone : (current n as).countP P = 1 ↔ (current n as).countP P ≤ 1 := by omega
  rw [findIdx?_append_of_exists hcurrent, hone, ← findIdx?_last_iff, recent_eq as hn]
  constructor
  · intro h k hk
    have hfound := h _ ((isLast_append_of_exists hcurrent).mpr ⟨k, rfl, hk⟩)
    rwa [slot_current as hn hk.lt] at hfound
  · intro h i hi
    obtain ⟨k, rfl, hk⟩ := (isLast_append_of_exists hcurrent).mp hi
    rw [slot_current as hn hk.lt]
    exact h k hk

/-- With none there and one in the lap before, it has to be the only one of that. -/
theorem find_older_iff {n : Nat} (hn : 0 < n) (as bs : List α)
    (hcurrent : ∀ a ∈ current n as, ¬ P a = true) (holder : ∃ a ∈ older n as, P a = true) :
    (∀ i, IsLast P (recent n as) i →
        (current n as ++ (older n as ++ bs)).findIdx? P = some (slot n as i)) ↔
      (older n as).countP P = 1 := by
  have hpos : 0 < (older n as).countP P := List.countP_pos_iff.mpr holder
  have hone : (older n as).countP P = 1 ↔ (older n as).countP P ≤ 1 := by omega
  rw [findIdx?_append_of_not hcurrent, findIdx?_append_of_exists holder, hone,
    ← findIdx?_last_iff, recent_eq as hn]
  refine forall_congr' fun k => ?_
  rw [isLast_append_of_not hcurrent]
  refine imp_congr_right fun hk => ?_
  rw [slot_older as hn hk.lt, Nat.add_comm]
  exact ⟨fun h => by simpa using h, fun h => by rw [h]; rfl⟩

theorem mem_recent {n : Nat} (hn : 0 < n) {a : α} :
    a ∈ recent n as ↔ a ∈ current n as ∨ a ∈ older n as := by
  rw [recent_eq as hn, List.mem_append, or_comm]

/-- Nothing is found when no recent entry matches, unless an unused cell does. -/
theorem find_none_iff {n : Nat} (hn : 0 < n) (cells : Nat → α) (P : α → Bool) (as : List α) :
    ((front ((Buffer.mk cells 0).putAll n as).cells n).findIdx? P = none ↔
        ∀ a ∈ recent n as, ¬ P a = true) ↔
      ((∀ a ∈ recent n as, ¬ P a = true) → ∀ a ∈ unused n cells as, ¬ P a = true) := by
  have hnone : (front ((Buffer.mk cells 0).putAll n as).cells n).findIdx? P = none ↔
      (∀ a ∈ recent n as, ¬ P a = true) ∧ ∀ a ∈ unused n cells as, ¬ P a = true := by
    rw [front_putAll hn, List.findIdx?_eq_none_iff]
    simp only [List.mem_append, ← mem_recent hn, or_imp, forall_and, Bool.not_eq_true]
  rw [hnone]
  exact and_iff_left_iff_imp

/-- **When does the search find the newest match?** -/
theorem find_newest_iff {n : Nat} (hn : 0 < n) (cells : Nat → α) (P : α → Bool) (as : List α) :
    ((∀ i, IsLast P (recent n as) i →
        (front ((Buffer.mk cells 0).putAll n as).cells n).findIdx? P = some (slot n as i)) ∧
      ((front ((Buffer.mk cells 0).putAll n as).cells n).findIdx? P = none ↔
        ∀ a ∈ recent n as, ¬ P a = true)) ↔ OneMatch P n cells as := by
  rw [find_none_iff hn, front_putAll hn, List.append_assoc, OneMatch]
  by_cases hcurrent : ∃ a ∈ current n as, P a = true
  · obtain ⟨a, ha, hP⟩ := hcurrent
    have hpos : 0 < (current n as).countP P := List.countP_pos_iff.mpr ⟨a, ha, hP⟩
    rw [find_current_iff hn as _ ⟨a, ha, hP⟩,
      and_iff_left fun h => absurd hP (h a ((mem_recent hn).mpr (Or.inl ha))),
      or_iff_left fun h => hpos.ne' h.1]
  · have hnocurrent : ∀ a ∈ current n as, ¬ P a = true := fun a ha hP => hcurrent ⟨a, ha, hP⟩
    have hzero : (current n as).countP P = 0 := List.countP_eq_zero.mpr hnocurrent
    rw [or_iff_right (by omega), and_iff_right hzero]
    by_cases holder : ∃ a ∈ older n as, P a = true
    · obtain ⟨a, ha, hP⟩ := holder
      have hpos : 0 < (older n as).countP P := List.countP_pos_iff.mpr ⟨a, ha, hP⟩
      rw [find_older_iff hn as _ hnocurrent ⟨a, ha, hP⟩,
        and_iff_left fun h => absurd hP (h a ((mem_recent hn).mpr (Or.inr ha))),
        or_iff_left fun h => hpos.ne' h.1]
    · have hnoolder : ∀ a ∈ older n as, ¬ P a = true := fun a ha hP => holder ⟨a, ha, hP⟩
      have hzero' : (older n as).countP P = 0 := List.countP_eq_zero.mpr hnoolder
      have hnorecent : ∀ a ∈ recent n as, ¬ P a = true := fun a ha =>
        ((mem_recent hn).mp ha).elim (hnocurrent a) (hnoolder a)
      have hnolast : ∀ i, IsLast P (recent n as) i → (current n as ++ (older n as ++
          unused n cells as)).findIdx? P = some (slot n as i) := fun i hi => by
        obtain ⟨a, ha, hP⟩ := hi.exists_mem
        exact absurd hP (hnorecent a ha)
      rw [and_iff_right hnolast, or_iff_right (by omega), and_iff_right hzero',
        forall_prop_of_true hnorecent]

/-- The first match in the order of the cells is the newest, as an entry; and where there is none,
there is none in an unused cell. -/
def FirstAgrees (P : α → Bool) (n : Nat) (cells : Nat → α) (as : List α) : Prop :=
  (current n as ++ older n as).find? P = (recent n as).reverse.find? P ∧
    ((∀ a ∈ recent n as, ¬ P a = true) → ∀ a ∈ unused n cells as, ¬ P a = true)

/-- **When does the search find an entry equal to the newest match?** -/
theorem find_match_iff {n : Nat} (hn : 0 < n) (cells : Nat → α) (P : α → Bool) (as : List α) :
    (front ((Buffer.mk cells 0).putAll n as).cells n).find? P = (recent n as).reverse.find? P ↔
      FirstAgrees P n cells as := by
  have hrecent : ∀ a, a ∈ current n as ++ older n as ↔ a ∈ recent n as := fun a => by
    rw [mem_recent hn, List.mem_append]
  rw [front_putAll hn, List.find?_append, FirstAgrees]
  by_cases hmatch : ∃ a ∈ recent n as, P a = true
  · obtain ⟨a, ha, hP⟩ := hmatch
    have hsome : ((current n as ++ older n as).find? P).isSome = true :=
      List.find?_isSome.mpr ⟨a, (hrecent a).mpr ha, hP⟩
    rw [Option.or_of_isSome hsome, and_iff_left fun h => absurd hP (h a ha)]
  · have hnorecent : ∀ a ∈ recent n as, ¬ P a = true := fun a ha hP => hmatch ⟨a, ha, hP⟩
    have hfirst : (current n as ++ older n as).find? P = none :=
      List.find?_eq_none.mpr fun a ha => hnorecent a ((hrecent a).mp ha)
    have hnewest : (recent n as).reverse.find? P = none :=
      List.find?_eq_none.mpr fun a ha => hnorecent a (List.mem_reverse.mp ha)
    rw [hfirst, hnewest, Option.none_or, and_iff_right rfl, List.find?_eq_none]
    exact ⟨fun h _ => h, fun h => h hnorecent⟩

end search

end Cyclic
