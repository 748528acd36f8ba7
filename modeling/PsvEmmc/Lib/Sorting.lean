/-
# `Sorting` — cells that are rearranged in place

A sort in place works on a range of cells.  Two things are to be said of it:
what the cells hold afterwards is a rearrangement of what they held, with the
cells outside of the range as they were, and the range is ascending.  A
rearrangement is a permutation of the indices, so that rearrangements compose,
and what all cells of a range had before one they have after it.

The comparison is one as C has it: its sign says how two values are ordered,
and several values may be equal.
-/
import PsvEmmc.Lib.Filling

namespace Sorting

variable {α : Type*}

/-! ## Rearrangements -/

/-- `g` is `f` with the cells from `lo` up to `hi` rearranged. -/
def Rearranges (lo hi : Nat) (f g : Nat → α) : Prop :=
  ∃ p : Equiv.Perm Nat, (∀ k, ¬ (lo ≤ k ∧ k < hi) → p k = k) ∧ g = f ∘ p

namespace Rearranges

variable {lo hi : Nat} {f g h : Nat → α}

theorem refl (lo hi : Nat) (f : Nat → α) : Rearranges lo hi f f :=
  ⟨1, fun _ _ => rfl, rfl⟩

theorem trans (hfg : Rearranges lo hi f g) (hgh : Rearranges lo hi g h) :
    Rearranges lo hi f h := by
  obtain ⟨p, hp, rfl⟩ := hfg
  obtain ⟨q, hq, rfl⟩ := hgh
  refine ⟨p * q, fun k hk => ?_, rfl⟩
  rw [Equiv.Perm.mul_apply, hq k hk, hp k hk]

theorem mono {lo' hi' : Nat} (hfg : Rearranges lo' hi' f g) (hlo : lo ≤ lo') (hhi : hi' ≤ hi) :
    Rearranges lo hi f g := by
  obtain ⟨p, hp, rfl⟩ := hfg
  exact ⟨p, fun k hk => hp k (by omega), rfl⟩

/-- What two cells that are swapped, and the others, hold. -/
theorem swap_apply (f : Nat → α) (i j k : Nat) :
    (f ∘ Equiv.swap i j) k = if k = i then f j else if k = j then f i else f k := by
  rw [Function.comp_apply, Equiv.swap_apply_def]
  split_ifs <;> rfl

theorem swap_left (f : Nat → α) (i j : Nat) : (f ∘ Equiv.swap i j) i = f j :=
  congrArg f (Equiv.swap_apply_left i j)

theorem swap_right (f : Nat → α) (i j : Nat) : (f ∘ Equiv.swap i j) j = f i :=
  congrArg f (Equiv.swap_apply_right i j)

theorem swap_other (f : Nat → α) {i j k : Nat} (hi : k ≠ i) (hj : k ≠ j) :
    (f ∘ Equiv.swap i j) k = f k :=
  congrArg f (Equiv.swap_apply_of_ne_of_ne hi hj)

theorem swap {i j : Nat} (hi' : lo ≤ i ∧ i < hi) (hj : lo ≤ j ∧ j < hi) (f : Nat → α) :
    Rearranges lo hi f (f ∘ Equiv.swap i j) := by
  refine ⟨Equiv.swap i j, fun k hk => Equiv.swap_apply_of_ne_of_ne ?_ ?_, rfl⟩
  · rintro rfl
    exact hk hi'
  · rintro rfl
    exact hk hj

/-- The cells outside of the range. -/
theorem outside (hfg : Rearranges lo hi f g) {k : Nat} (hk : ¬ (lo ≤ k ∧ k < hi)) : g k = f k := by
  obtain ⟨p, hp, rfl⟩ := hfg
  exact congrArg f (hp k hk)

/-- What all cells of the range hold. -/
theorem forall_inside {P : α → Prop} (hfg : Rearranges lo hi f g)
    (hf : ∀ k, lo ≤ k → k < hi → P (f k)) : ∀ k, lo ≤ k → k < hi → P (g k) := by
  obtain ⟨p, hp, rfl⟩ := hfg
  intro k hlo hhi
  by_contra hnot
  have hleaves : ¬ (lo ≤ p k ∧ p k < hi) := fun hin => hnot (hf (p k) hin.1 hin.2)
  have hfixed : p k = k := p.injective (hp (p k) hleaves)
  exact hleaves (by rw [hfixed]; exact ⟨hlo, hhi⟩)

/-- A range from the start, as a list. -/
theorem perm_front {n : Nat} (hfg : Rearranges 0 n f g) :
    (Filling.front g n).Perm (Filling.front f n) := by
  obtain ⟨p, hp, rfl⟩ := hfg
  have hrange : ((List.range n).map p).Perm (List.range n) := by
    refine (List.perm_ext_iff_of_nodup (List.nodup_range.map p.injective)
      List.nodup_range).mpr fun k => ?_
    rw [List.mem_map, List.mem_range]
    constructor
    · rintro ⟨j, hj, rfl⟩
      by_contra hge
      have hfixed : p j = j := p.injective (hp (p j) (by omega))
      rw [hfixed] at hge
      exact hge (List.mem_range.mp hj)
    · intro hk
      refine ⟨p.symm k, List.mem_range.mpr ?_, p.apply_symm_apply k⟩
      by_contra hge
      have hfixed := hp (p.symm k) (by omega)
      rw [p.apply_symm_apply] at hfixed
      omega
  have hcells := hrange.map f
  rwa [List.map_map] at hcells

end Rearranges

/-! ## Ranges that are exchanged -/

/-- The `r` cells from `i` and those from `j` have changed places. -/
structure Exchanged (i j r : Nat) (f g : Nat → α) : Prop where
  left : ∀ k < r, g (i + k) = f (j + k)
  right : ∀ k < r, g (j + k) = f (i + k)
  other : ∀ k, ¬ (i ≤ k ∧ k < i + r) → ¬ (j ≤ k ∧ k < j + r) → g k = f k

namespace Exchanged

variable {i j : Nat} {f g h : Nat → α}

/-- Nothing is exchanged. -/
theorem zero (i j : Nat) (f : Nat → α) : Exchanged i j 0 f f where
  left k hk := absurd hk (Nat.not_lt_zero k)
  right k hk := absurd hk (Nat.not_lt_zero k)
  other _ _ _ := rfl

theorem swap (i j : Nat) (f : Nat → α) : Exchanged i j 1 f (f ∘ Equiv.swap i j) where
  left k hk := by
    obtain rfl : k = 0 := by omega
    exact Rearranges.swap_left f i j
  right k hk := by
    obtain rfl : k = 0 := by omega
    exact Rearranges.swap_right f i j
  other k hi hj := Rearranges.swap_other f (by omega) (by omega)

/-- More cells behind those that were exchanged.  The two places are apart, or the same. -/
theorem append {r r' : Nat} (hapart : i + (r + r') ≤ j ∨ j + (r + r') ≤ i ∨ i = j)
    (hfg : Exchanged i j r f g) (hgh : Exchanged (i + r) (j + r) r' g h) :
    Exchanged i j (r + r') f h where
  left k hk := by
    rcases Nat.lt_or_ge k r with hlt | hge
    · rw [hgh.other (i + k) (by omega) (by omega), hfg.left k hlt]
    · have hcell := hgh.left (k - r) (by omega)
      rw [show i + r + (k - r) = i + k by omega, show j + r + (k - r) = j + k by omega] at hcell
      rw [hcell, hfg.other (j + k) (by omega) (by omega)]
  right k hk := by
    rcases Nat.lt_or_ge k r with hlt | hge
    · rw [hgh.other (j + k) (by omega) (by omega), hfg.right k hlt]
    · have hcell := hgh.right (k - r) (by omega)
      rw [show i + r + (k - r) = i + k by omega, show j + r + (k - r) = j + k by omega] at hcell
      rw [hcell, hfg.other (i + k) (by omega) (by omega)]
  other k hi hj := by
    rw [hgh.other k (by omega) (by omega), hfg.other k (by omega) (by omega)]

/-- What is exchanged says what all cells hold. -/
theorem unique {r : Nat} (hfg : Exchanged i j r f g) (hfh : Exchanged i j r f h) : g = h := by
  funext k
  by_cases hi : i ≤ k ∧ k < i + r
  · obtain ⟨d, rfl⟩ := Nat.exists_eq_add_of_le hi.1
    rw [hfg.left d (by omega), hfh.left d (by omega)]
  · by_cases hj : j ≤ k ∧ k < j + r
    · obtain ⟨d, rfl⟩ := Nat.exists_eq_add_of_le hj.1
      rw [hfg.right d (by omega), hfh.right d (by omega)]
    · rw [hfg.other k hi hj, hfh.other k hi hj]

/-- Two places that are apart. -/
theorem rearranges {r lo hi : Nat} (hapart : i + r ≤ j) (hlo : lo ≤ i) (hhi : j + r ≤ hi)
    (hfg : Exchanged i j r f g) : Rearranges lo hi f g := by
  let place : Nat → Nat := fun k =>
    if i ≤ k ∧ k < i + r then j + (k - i) else if j ≤ k ∧ k < j + r then i + (k - j) else k
  have hplace : Function.Involutive place := by
    intro k
    dsimp only [place]
    split_ifs <;> omega
  refine ⟨hplace.toPerm, fun k hk => ?_, hfg.unique ?_⟩
  · show place k = k
    dsimp only [place]
    rw [if_neg (by omega), if_neg (by omega)]
  · refine ⟨fun k hk => ?_, fun k hk => ?_, fun k hi hj => ?_⟩
    · show f (place (i + k)) = f (j + k)
      dsimp only [place]
      rw [if_pos (by omega), Nat.add_sub_cancel_left]
    · show f (place (j + k)) = f (i + k)
      dsimp only [place]
      rw [if_neg (by omega), if_pos (by omega), Nat.add_sub_cancel_left]
    · show f (place k) = f k
      dsimp only [place]
      rw [if_neg hi, if_neg hj]

end Exchanged

/-- A range of `P` before a range of `Q`: when as many cells as the shorter one has are exchanged
between the ends, the range of `Q` is before that of `P`. -/
theorem Exchanged.ends {P Q : α → Prop} {lo mid hi : Nat} (hlo : lo ≤ mid) (hhi : mid ≤ hi)
    {f g : Nat → α} (hP : ∀ k, lo ≤ k → k < mid → P (f k)) (hQ : ∀ k, mid ≤ k → k < hi → Q (f k))
    (h : Exchanged lo (hi - min (mid - lo) (hi - mid)) (min (mid - lo) (hi - mid)) f g) :
    (∀ k, lo ≤ k → k < lo + (hi - mid) → Q (g k)) ∧
    ∀ k, lo + (hi - mid) ≤ k → k < hi → P (g k) := by
  generalize hr : min (mid - lo) (hi - mid) = r at h
  constructor
  · intro k hk hk'
    rcases Nat.lt_or_ge k (lo + r) with hlt | hge
    · have hcell := h.left (k - lo) (by omega)
      rw [Nat.add_sub_cancel' hk] at hcell
      rw [hcell]
      exact hQ _ (by omega) (by omega)
    · rw [h.other k (by omega) (by omega)]
      exact hQ k (by omega) (by omega)
  · intro k hk hk'
    rcases Nat.lt_or_ge k (hi - r) with hlt | hge
    · rw [h.other k (by omega) (by omega)]
      exact hP k (by omega) (by omega)
    · have hcell := h.right (k - (hi - r)) (by omega)
      rw [Nat.add_sub_cancel' hge] at hcell
      rw [hcell]
      exact hP _ (by omega) (by omega)

/-! ## Order -/

/-- The sign of `cmp x y` orders the values. -/
structure Consistent (cmp : α → α → Int) : Prop where
  neg_iff : ∀ x y, cmp x y < 0 ↔ 0 < cmp y x
  trans : ∀ x y z, cmp x y ≤ 0 → cmp y z ≤ 0 → cmp x z ≤ 0

namespace Consistent

variable {cmp : α → α → Int}

theorem self (hcmp : Consistent cmp) (x : α) : cmp x x = 0 := by
  have h := hcmp.neg_iff x x
  omega

theorem nonpos_iff (hcmp : Consistent cmp) (x y : α) : cmp x y ≤ 0 ↔ 0 ≤ cmp y x := by
  have h := hcmp.neg_iff y x
  omega

end Consistent

/-- The cells from `lo` up to `hi` are in order. -/
def Ascending (cmp : α → α → Int) (lo hi : Nat) (f : Nat → α) : Prop :=
  ∀ i j, lo ≤ i → i < j → j < hi → cmp (f i) (f j) ≤ 0

/-- A short range is in order. -/
theorem ascending_of_le {cmp : α → α → Int} {lo hi : Nat} (h : hi ≤ lo + 1) (f : Nat → α) :
    Ascending cmp lo hi f :=
  fun _ _ _ _ _ => by omega

theorem Ascending.congr {cmp : α → α → Int} {lo hi : Nat} {f g : Nat → α}
    (hf : Ascending cmp lo hi f) (h : ∀ k, lo ≤ k → k < hi → g k = f k) :
    Ascending cmp lo hi g := by
  intro i j hi' hij hj
  rw [h i hi' (by omega), h j (by omega) hj]
  exact hf i j hi' hij hj

/-- Three ranges in a row, the first not above `v`, the second equal to it and the third not
below. -/
theorem Ascending.append {cmp : α → α → Int} (hcmp : Consistent cmp) {lo mid mid' hi : Nat}
    {f : Nat → α} {v : α} (hleft : Ascending cmp lo mid f) (hright : Ascending cmp mid' hi f)
    (hbelow : ∀ k, lo ≤ k → k < mid → cmp (f k) v ≤ 0)
    (hequal : ∀ k, mid ≤ k → k < mid' → cmp (f k) v = 0)
    (habove : ∀ k, mid' ≤ k → k < hi → 0 ≤ cmp (f k) v) : Ascending cmp lo hi f := by
  have hle : ∀ k, lo ≤ k → k < mid' → cmp (f k) v ≤ 0 := by
    intro k hk hk'
    rcases Nat.lt_or_ge k mid with h | h
    · exact hbelow k hk h
    · exact (hequal k h hk').le
  have hge : ∀ k, mid ≤ k → k < hi → cmp v (f k) ≤ 0 := by
    intro k hk hk'
    rw [hcmp.nonpos_iff]
    rcases Nat.lt_or_ge k mid' with h | h
    · exact (hequal k hk h).ge
    · exact habove k h hk'
  intro i j hi' hij hj
  rcases Nat.lt_or_ge j mid with h | h
  · exact hleft i j hi' hij h
  · rcases Nat.lt_or_ge i mid' with h' | h'
    · exact hcmp.trans _ v _ (hle i hi' h') (hge j h hj)
    · exact hright i j h' hij hj

/-- A range from the start, as a list. -/
theorem Ascending.pairwise_front {cmp : α → α → Int} {n : Nat} {f : Nat → α}
    (hf : Ascending cmp 0 n f) : (Filling.front f n).Pairwise fun x y => cmp x y ≤ 0 := by
  refine List.pairwise_map.mpr (List.pairwise_lt_range.imp_of_mem fun _ hj hij => ?_)
  exact hf _ _ (Nat.zero_le _) hij (List.mem_range.mp hj)

end Sorting
