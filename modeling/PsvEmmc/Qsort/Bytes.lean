/-
# `PsvEmmc.Qsort.Bytes` — elements in memory

In memory an element is `es` bytes, and what the sort calls a swap is a loop
that exchanges words of the two: `long` words when the elements start and end
at multiples of one, and bytes otherwise.  Here the memory is bytes, from the
first of the array on, and the elements are a view of it.  On the view, a swap
of two elements, also of one with itself, and a swap of two rows of elements
are what they should be (`byteElements`), so the bytes are sorted, and no byte
behind the array is touched (`qsort_bytes`).
-/
import PsvEmmc.Qsort

namespace PsvEmmc

open Sorting

/-! ## The macros -/

/-- `sizeof(long)`. -/
def sizeofLong : Nat := 4

/-- `SWAPINIT(a, es)`. -/
def swapInit (a es : Nat) : Nat :=
  if a % sizeofLong ≠ 0 ∨ es % sizeofLong ≠ 0 then 2
  else if es = sizeofLong then 0
  else 1

/-- `t = *pi; *pi = *pj; *pj = t`, for a type of `size` bytes. -/
def exchangeWord (size : Nat) (mem : Nat → UInt8) (pi pj : Nat) : Nat → UInt8 := fun k =>
  if pj ≤ k ∧ k < pj + size then mem (pi + (k - pj))
  else if pi ≤ k ∧ k < pi + size then mem (pj + (k - pi))
  else mem k

/-- Rounds of the loop of `swapcode`. -/
def swapRounds (size : Nat) : Nat → (Nat → UInt8) → Nat → Nat → Nat → UInt8
  | 0, mem, _, _ => mem
  | i + 1, mem, pi, pj => swapRounds size i (exchangeWord size mem pi pj) (pi + size) (pj + size)

/-- `swapcode(TYPE, parmi, parmj, n)`.  The count is tested after it is decreased, so that a count
of zero wraps around. -/
def swapcode (size : Nat) (mem : Nat → UInt8) (parmi parmj n : Nat) : Nat → UInt8 :=
  swapRounds size (if n / size = 0 then 2 ^ 32 else n / size) mem parmi parmj

def swapfunc (mem : Nat → UInt8) (a b n swaptype : Nat) : Nat → UInt8 :=
  if swaptype ≤ 1 then swapcode sizeofLong mem a b n else swapcode 1 mem a b n

/-- `swap(a, b)`. -/
def swapBytes (es swaptype : Nat) (mem : Nat → UInt8) (a b : Nat) : Nat → UInt8 :=
  if swaptype = 0 then exchangeWord sizeofLong mem a b else swapfunc mem a b es swaptype

/-- `vecswap(a, b, n)`. -/
def vecswapBytes (swaptype : Nat) (mem : Nat → UInt8) (a b n : Nat) : Nat → UInt8 :=
  if 0 < n then swapfunc mem a b n swaptype else mem

/-- The elements, of `es` bytes each. -/
def elements (es : Nat) (mem : Nat → UInt8) (k : Nat) : Fin es → UInt8 := fun i => mem (k * es + i)

/-! ## What they exchange -/

theorem exchangeWord_spec (size : Nat) (mem : Nat → UInt8) {pi pj : Nat}
    (hapart : pi + size ≤ pj ∨ pj + size ≤ pi ∨ pi = pj) :
    Exchanged pi pj size mem (exchangeWord size mem pi pj) where
  left k hk := by
    rw [exchangeWord]
    rcases eq_or_ne pi pj with rfl | hne
    · rw [if_pos (by omega), Nat.add_sub_cancel_left]
    · rw [if_neg (by omega), if_pos (by omega), Nat.add_sub_cancel_left]
  right k hk := by
    rw [exchangeWord, if_pos (by omega), Nat.add_sub_cancel_left]
  other k hi hj := by
    rw [exchangeWord, if_neg hj, if_neg hi]

theorem swapRounds_spec (size i : Nat) (mem : Nat → UInt8) {pi pj : Nat}
    (hapart : pi + size * i ≤ pj ∨ pj + size * i ≤ pi ∨ pi = pj) :
    Exchanged pi pj (size * i) mem (swapRounds size i mem pi pj) := by
  induction i generalizing mem pi pj with
  | zero => exact Exchanged.zero pi pj mem
  | succ i ih =>
      rw [Nat.mul_succ, Nat.add_comm (size * i)] at hapart ⊢
      exact (exchangeWord_spec size mem (by omega)).append hapart (ih _ (by omega))

theorem swapcode_spec {size n : Nat} (hsize : size ∣ n) (hn : 0 < n) (mem : Nat → UInt8)
    {a b : Nat} (hapart : a + n ≤ b ∨ b + n ≤ a ∨ a = b) :
    Exchanged a b n mem (swapcode size mem a b n) := by
  obtain ⟨i, rfl⟩ := hsize
  have hrounds : size * i / size = i := Nat.mul_div_cancel_left i (Nat.pos_of_mul_pos_right hn)
  rw [swapcode, hrounds, if_neg (Nat.pos_of_mul_pos_left hn).ne']
  exact swapRounds_spec size i mem hapart

/-- A type of swap that goes with the elements: by `long` words only if they divide them. -/
theorem swapfunc_spec {a₀ es n : Nat} (hes : es ∣ n) (hn : 0 < n) (mem : Nat → UInt8) {a b : Nat}
    (hapart : a + n ≤ b ∨ b + n ≤ a ∨ a = b) :
    Exchanged a b n mem (swapfunc mem a b n (swapInit a₀ es)) := by
  rw [swapfunc]
  by_cases hlong : swapInit a₀ es ≤ 1
  · have hdvd : sizeofLong ∣ es := by
      rw [swapInit] at hlong
      by_cases hrest : a₀ % sizeofLong ≠ 0 ∨ es % sizeofLong ≠ 0
      · rw [if_pos hrest] at hlong
        omega
      · exact Nat.dvd_of_mod_eq_zero (by omega)
    rw [if_pos hlong]
    exact swapcode_spec (hdvd.trans hes) hn mem hapart
  · rw [if_neg hlong]
    exact swapcode_spec (one_dvd n) hn mem hapart

theorem swapBytes_spec (a₀ : Nat) {es : Nat} (hes : 0 < es) (mem : Nat → UInt8) {a b : Nat}
    (hapart : a + es ≤ b ∨ b + es ≤ a ∨ a = b) :
    Exchanged a b es mem (swapBytes es (swapInit a₀ es) mem a b) := by
  rw [swapBytes]
  by_cases hword : swapInit a₀ es = 0
  · have hlong : es = sizeofLong := by
      rw [swapInit] at hword
      split_ifs at hword
      assumption
    rw [if_pos hword, ← hlong]
    exact exchangeWord_spec es mem hapart
  · rw [if_neg hword]
    exact swapfunc_spec (dvd_refl es) hes mem hapart

/-! ## On the view -/

/-- Rows of elements that are exchanged are exchanged on the view. -/
theorem elements_exchanged {es x y r : Nat} {mem mem' : Nat → UInt8}
    (h : Exchanged (x * es) (y * es) (r * es) mem mem') :
    Exchanged x y r (elements es mem) (elements es mem') where
  left k hk := by
    funext i
    have hrow : k * es + es ≤ r * es := by
      rw [← Nat.succ_mul]
      exact Nat.mul_le_mul_right es hk
    have hcell := h.left (k * es + i) (by omega)
    rw [elements, elements, Nat.add_mul, Nat.add_mul, Nat.add_assoc, Nat.add_assoc]
    exact hcell
  right k hk := by
    funext i
    have hrow : k * es + es ≤ r * es := by
      rw [← Nat.succ_mul]
      exact Nat.mul_le_mul_right es hk
    have hcell := h.right (k * es + i) (by omega)
    rw [elements, elements, Nat.add_mul, Nat.add_mul, Nat.add_assoc, Nat.add_assoc]
    exact hcell
  other k hx hy := by
    funext i
    -- An element outside of a row has all its bytes outside.
    have houtside : ∀ z, ¬ (z ≤ k ∧ k < z + r) →
        ¬ (z * es ≤ k * es + i ∧ k * es + i < z * es + r * es) := by
      intro z hz
      rcases Nat.lt_or_ge k z with hlt | hge
      · have hbefore : k * es + es ≤ z * es := by
          rw [← Nat.succ_mul]
          exact Nat.mul_le_mul_right es hlt
        omega
      · have hbehind : z * es + r * es ≤ k * es := by
          rw [← Nat.add_mul]
          exact Nat.mul_le_mul_right es (by omega)
        omega
    exact h.other _ (houtside x hx) (houtside y hy)

/-- Two elements are apart in memory, or the same. -/
theorem elements_apart (es x y : Nat) :
    x * es + es ≤ y * es ∨ y * es + es ≤ x * es ∨ x * es = y * es := by
  rcases lt_trichotomy x y with hlt | rfl | hlt
  · left
    rw [← Nat.succ_mul]
    exact Nat.mul_le_mul_right es hlt
  · exact Or.inr (Or.inr rfl)
  · right
    left
    rw [← Nat.succ_mul]
    exact Nat.mul_le_mul_right es hlt

/-- An array at the address `base`, of elements of `es` bytes. -/
def byteElements (base es : Nat) (hes : 0 < es) : Elements (Nat → UInt8) (Fin es → UInt8) where
  view := elements es
  swap a mem x y := swapBytes es (swapInit (base + a * es) es) mem (x * es) (y * es)
  vecswap a mem x y r := vecswapBytes (swapInit (base + a * es) es) mem (x * es) (y * es) (r * es)
  view_swap a mem x y := by
    have hbytes := swapBytes_spec (base + a * es) hes mem (elements_apart es x y)
    exact (elements_exchanged (r := 1) (by rwa [Nat.one_mul])).unique (Exchanged.swap x y _)
  view_vecswap a mem x y r hxy := by
    refine elements_exchanged ?_
    rw [vecswapBytes]
    by_cases hrow : 0 < r * es
    · have hle := Nat.mul_le_mul_right es hxy
      rw [Nat.add_mul] at hle
      rw [if_pos hrow]
      exact swapfunc_spec (Nat.dvd_mul_left es r) hrow mem (Or.inl hle)
    · rw [if_neg hrow, Nat.eq_zero_of_not_pos hrow]
      exact Exchanged.zero _ _ mem

/-! ## The sort of an array -/

/-- **An array in memory.**  `qsort_imp` sorts the `n` elements of `es` bytes at any address: it
ends, accesses only these elements, leaves them rearranged as whole elements and in the order of
the comparison, and touches no byte behind them. -/
theorem qsort_bytes (base es : Nat) (hes : 0 < es) {cmp : (Fin es → UInt8) → (Fin es → UInt8) → Int}
    (hcmp : Consistent cmp) (n : Nat) (mem : Nat → UInt8) :
    ∃ mem', qsortImp (byteElements base es hes) cmp (n + 1) ⟨0, n⟩ mem = some mem' ∧
      Rearranges 0 n (elements es mem) (elements es mem') ∧
      Ascending cmp 0 n (elements es mem') ∧ ∀ k, n * es ≤ k → mem' k = mem k := by
  obtain ⟨mem', hmem', hrearranged, hsorted⟩ :=
    qsortImp_sorts (byteElements base es hes) hcmp (n + 1) ⟨0, n⟩ mem (Nat.lt_succ_self n)
  dsimp only at hrearranged hsorted
  rw [Nat.zero_add] at hrearranged hsorted
  refine ⟨mem', hmem', hrearranged, hsorted, fun k hk => ?_⟩
  -- The byte is one of an element behind the array.
  have hbehind : n ≤ k / es := (Nat.le_div_iff_mul_le hes).mpr hk
  have helement := congrFun (hrearranged.outside (k := k / es) (by omega))
    ⟨k % es, Nat.mod_lt k hes⟩
  have hbyte : k / es * es + k % es = k := Nat.div_add_mod' k es
  change mem' (k / es * es + k % es) = mem (k / es * es + k % es) at helement
  rwa [hbyte] at helement

/-- Nine elements of two bytes, by the first of them. -/
theorem qsort_pairs :
    ∃ mem', qsortImp (byteElements 0x81000002 2 (by decide))
        (fun x y => (x 0).toNat - (y 0).toNat) 10 ⟨0, 9⟩ (fun k => UInt8.ofNat (200 - 7 * k)) =
          some mem' ∧
      Rearranges 0 9 (elements 2 fun k => UInt8.ofNat (200 - 7 * k)) (elements 2 mem') ∧
      Ascending (fun x y => (x 0).toNat - (y 0).toNat) 0 9 (elements 2 mem') ∧
      ∀ k, 9 * 2 ≤ k → mem' k = UInt8.ofNat (200 - 7 * k) :=
  qsort_bytes 0x81000002 2 (by decide)
    ⟨fun x y => by omega, fun x y z hxy hyz => by omega⟩ 9 _

end PsvEmmc
