/-
# `PsvEmmc.Qsort` — the sort that both programs carry

`qsort.c` is the quicksort of Bentley and McIlroy.  Fewer than seven elements
are sorted by insertion.  Of more, one is chosen as the pivot, moved to the
front, and the others are partitioned by two pointers that meet: `pb` from the
left passes what is not above the pivot, `pc` from the right what is not below
it.  What is equal to the pivot is collected at the two ends, up to `pa` and
from `pd`, and swapped into the middle when the pointers have met.  A partition
that swapped nothing is finished by insertion.

A pointer is an index here, and what the sort does to the memory it does by two
kinds of swap, so that is all it has to know of the memory (`Elements`): how
elements are read, and that the swaps are swaps.  A call was given a part of
the elements, and an access to anything else has no result, so that a call
with a result made none.
-/
import PsvEmmc.Lib.Loops
import PsvEmmc.Lib.Sorting

namespace PsvEmmc

open Loops Sorting

/-! ## Elements -/

/-- A memory of elements.  The swaps may depend on the first element `a` of the call. -/
structure Elements (σ α : Type) where
  view : σ → Nat → α
  swap : (a : Nat) → σ → Nat → Nat → σ
  vecswap : (a : Nat) → σ → Nat → Nat → Nat → σ
  view_swap : ∀ a s x y, view (swap a s x y) = view s ∘ Equiv.swap x y
  view_vecswap : ∀ a s x y r, x + r ≤ y → Exchanged x y r (view s) (view (vecswap a s x y r))

/-- The arguments `aa` and `n`: `n` elements from `a`. -/
structure Part where
  a : Nat
  n : Nat

/-- The pointer is to an element of the part. -/
abbrev Part.Has (p : Part) (i : Nat) : Prop := p.a ≤ i ∧ i < p.a + p.n

variable {σ α : Type} (S : Elements σ α) (cmp : α → α → Int)

def cmpAt (p : Part) (mem : σ) (x y : Nat) : Option Int :=
  if p.Has x ∧ p.Has y then some (cmp (S.view mem x) (S.view mem y)) else none

def swapAt (p : Part) (mem : σ) (x y : Nat) : Option σ :=
  if p.Has x ∧ p.Has y then some (S.swap p.a mem x y) else none

/-- `vecswap`, of `r` elements. -/
def vecswapAt (p : Part) (mem : σ) (x y r : Nat) : Option σ :=
  if 0 < r then
    if (p.Has x ∧ p.Has (x + r - 1)) ∧ p.Has y ∧ p.Has (y + r - 1) then
      some (S.vecswap p.a mem x y r)
    else none
  else some mem

/-! ## Insertion -/

/-- A pointer that moves, and the memory. -/
structure Walk (σ : Type) where
  pointer : Nat
  mem : σ

/-- The inner loop: the element is swapped to the front until one is not above it. -/
def sinkRound (p : Part) (w : Walk σ) : Option (ForInStep (Walk σ)) :=
  if p.a < w.pointer then do
    let r ← cmpAt S cmp p w.mem (w.pointer - 1) w.pointer
    if 0 < r then
      let mem ← swapAt S p w.mem w.pointer (w.pointer - 1)
      return .yield ⟨w.pointer - 1, mem⟩
    else return .done w
  else return .done w

/-- The outer loop. -/
def insertRound (p : Part) (w : Walk σ) : Option (ForInStep (Walk σ)) :=
  if w.pointer < p.a + p.n then do
    let sunk ← repeatUntil (sinkRound S cmp p) (p.n + 1) w
    return .yield ⟨w.pointer + 1, sunk.mem⟩
  else return .done w

def insertionSort (p : Part) (mem : σ) : Option σ := do
  let w ← repeatUntil (insertRound S cmp p) (p.n + 1) ⟨p.a + 1, mem⟩
  return w.mem

/-! ## The pivot -/

def med3 (p : Part) (mem : σ) (a b c : Nat) : Option Nat := do
  if (← cmpAt S cmp p mem a b) < 0 then
    if (← cmpAt S cmp p mem b c) < 0 then return b
    else if (← cmpAt S cmp p mem a c) < 0 then return c
    else return a
  else
    if 0 < (← cmpAt S cmp p mem b c) then return b
    else if (← cmpAt S cmp p mem a c) < 0 then return a
    else return c

/-- The pointer `pm`: the middle, or a median of three, or of three medians. -/
def choosePivot (p : Part) (mem : σ) : Option Nat := do
  let pm := p.a + p.n / 2
  let pl := p.a
  let pn := p.a + (p.n - 1)
  if 40 < p.n then
    let d := p.n / 8
    let pl ← med3 S cmp p mem pl (pl + d) (pl + 2 * d)
    let pm ← med3 S cmp p mem (pm - d) pm (pm + d)
    let pn ← med3 S cmp p mem (pn - 2 * d) (pn - d) pn
    med3 S cmp p mem pl pm pn
  else if 7 < p.n then
    med3 S cmp p mem pl pm pn
  else return pm

/-! ## The partition -/

/-- The pointers of the partition. -/
structure Scan (σ : Type) where
  pa : Nat
  pb : Nat
  pc : Nat
  pd : Nat
  swapCnt : Nat
  mem : σ

/-- `while (pb <= pc && (cmp_result = cmp(pb, a)) <= 0)`. -/
def upRound (p : Part) (s : Scan σ) : Option (ForInStep (Scan σ)) :=
  if s.pb ≤ s.pc then do
    let cmpResult ← cmpAt S cmp p s.mem s.pb p.a
    if cmpResult ≤ 0 then
      if cmpResult = 0 then
        let mem ← swapAt S p s.mem s.pa s.pb
        return .yield { s with swapCnt := 1, mem := mem, pa := s.pa + 1, pb := s.pb + 1 }
      else return .yield { s with pb := s.pb + 1 }
    else return .done s
  else return .done s

/-- `while (pb <= pc && (cmp_result = cmp(pc, a)) >= 0)`. -/
def downRound (p : Part) (s : Scan σ) : Option (ForInStep (Scan σ)) :=
  if s.pb ≤ s.pc then do
    let cmpResult ← cmpAt S cmp p s.mem s.pc p.a
    if 0 ≤ cmpResult then
      if cmpResult = 0 then
        let mem ← swapAt S p s.mem s.pc s.pd
        return .yield { s with swapCnt := 1, mem := mem, pd := s.pd - 1, pc := s.pc - 1 }
      else return .yield { s with pc := s.pc - 1 }
    else return .done s
  else return .done s

/-- A round of the `for (;;)`. -/
def partitionRound (p : Part) (s : Scan σ) : Option (ForInStep (Scan σ)) := do
  let s ← repeatUntil (upRound S cmp p) (p.n + 1) s
  let s ← repeatUntil (downRound S cmp p) (p.n + 1) s
  if s.pc < s.pb then return .done s
  else
    let mem ← swapAt S p s.mem s.pb s.pc
    return .yield { s with mem := mem, swapCnt := 1, pb := s.pb + 1, pc := s.pc - 1 }

/-- The swap of the pivot, and the `for (;;)`. -/
def partitionMem (p : Part) (mem : σ) : Option (Scan σ) := do
  let pm ← choosePivot S cmp p mem
  let mem ← swapAt S p mem p.a pm
  repeatUntil (partitionRound S cmp p) (p.n + 1)
    { pa := p.a + 1, pb := p.a + 1, pc := p.a + (p.n - 1), pd := p.a + (p.n - 1),
      swapCnt := 0, mem := mem }

/-- What is equal to the pivot is swapped from the ends into the middle. -/
def gatherEqual (p : Part) (s : Scan σ) : Option σ := do
  let pn := p.a + p.n
  let r := min (s.pa - p.a) (s.pb - s.pa)
  let mem ← vecswapAt S p s.mem p.a (s.pb - r) r
  let r := min (s.pd - s.pc) (pn - s.pd - 1)
  vecswapAt S p mem s.pb (pn - r) r

/-! ## The sort -/

/-- `qsort_imp`, with a bound on the calls that are open; the jump to `loop` is one of them. -/
def qsortImp : Nat → Part → σ → Option σ
  | 0, _, _ => none
  | depth + 1, p, mem =>
      if p.n < 7 then insertionSort S cmp p mem
      else do
        let s ← partitionMem S cmp p mem
        if s.swapCnt = 0 then insertionSort S cmp p s.mem
        else
          let mem ← gatherEqual S p s
          let left : Part := ⟨p.a, s.pb - s.pa⟩
          let right : Part := ⟨p.a + p.n - (s.pd - s.pc), s.pd - s.pc⟩
          (if 1 < left.n then qsortImp depth left mem else some mem).bind fun mem =>
            if 1 < right.n then qsortImp depth right mem else some mem

/-! ## Accesses inside the part -/

variable {S} {cmp} {p : Part} {mem : σ}

theorem cmpAt_of_has {x y : Nat} (hx : p.Has x) (hy : p.Has y) :
    cmpAt S cmp p mem x y = some (cmp (S.view mem x) (S.view mem y)) :=
  if_pos ⟨hx, hy⟩

theorem swapAt_of_has {x y : Nat} (hx : p.Has x) (hy : p.Has y) :
    swapAt S p mem x y = some (S.swap p.a mem x y) :=
  if_pos ⟨hx, hy⟩

/-- The elements are those of `f`, rearranged inside the part. -/
abbrev Part.Rearranges (p : Part) (f g : Nat → α) : Prop :=
  Sorting.Rearranges p.a (p.a + p.n) f g

/-- What a loop sees of its memory. -/
def Walk.view (S : Elements σ α) (w : Walk σ) : Walk (Nat → α) := ⟨w.pointer, S.view w.mem⟩

def Scan.view (S : Elements σ α) (s : Scan σ) : Scan (Nat → α) :=
  ⟨s.pa, s.pb, s.pc, s.pd, s.swapCnt, S.view s.mem⟩

/-! ## Insertion sorts -/

/-- The cells up to `last` are in order, but for the one at the pointer, which may have to go
further to the front. -/
structure Sinking (cmp : α → α → Int) (p : Part) (f : Nat → α) (last : Nat) (w : Walk (Nat → α)) :
    Prop where
  first_le : p.a ≤ w.pointer
  le_last : w.pointer ≤ last
  rearranged : p.Rearranges f w.mem
  others : ∀ i j, p.a ≤ i → i < j → j ≤ last → j ≠ w.pointer → cmp (w.mem i) (w.mem j) ≤ 0

/-- A swap to the front. -/
theorem Sinking.swap (hcmp : Consistent cmp) {f : Nat → α} {last : Nat} {w : Walk (Nat → α)}
    (hw : Sinking cmp p f last w) (hlast : last < p.a + p.n) (hfirst : p.a < w.pointer)
    (hless : 0 < cmp (w.mem (w.pointer - 1)) (w.mem w.pointer)) :
    Sinking cmp p f last
      ⟨w.pointer - 1, w.mem ∘ Equiv.swap w.pointer (w.pointer - 1)⟩ := by
  obtain ⟨hlo, hhi, hrearranged, hothers⟩ := hw
  refine ⟨by dsimp only; omega, by dsimp only; omega, hrearranged.trans
    (Rearranges.swap (by omega) (by omega) _), ?_⟩
  intro i j hi hij hj hne
  dsimp only at hne ⊢
  rw [Rearranges.swap_apply, Rearranges.swap_apply]
  -- `j` is the pointer itself, which now has the greater element, or another index.
  rcases eq_or_ne j w.pointer with rfl | hjp
  · rw [if_pos rfl, if_neg (by omega)]
    rcases eq_or_ne i (w.pointer - 1) with rfl | hip
    · rw [if_pos rfl, hcmp.nonpos_iff]
      exact hless.le
    · rw [if_neg hip]
      exact hothers i _ hi (by omega) (by omega) (by omega)
  · rw [if_neg hjp, if_neg hne]
    rcases eq_or_ne i w.pointer with rfl | hip
    · rw [if_pos rfl]
      exact hothers _ j (by omega) (by omega) hj hjp
    · rw [if_neg hip]
      rcases eq_or_ne i (w.pointer - 1) with rfl | hip'
      · rw [if_pos rfl]
        exact hothers _ j hlo (by omega) hj hjp
      · rw [if_neg hip']
        exact hothers i j hi hij hj hjp

/-- When the element need not go further. -/
theorem Sinking.ascending (hcmp : Consistent cmp) {f : Nat → α} {last : Nat} {w : Walk (Nat → α)}
    (hw : Sinking cmp p f last w)
    (hstop : w.pointer ≤ p.a ∨ cmp (w.mem (w.pointer - 1)) (w.mem w.pointer) ≤ 0) :
    Ascending cmp p.a (last + 1) w.mem := by
  obtain ⟨hlo, hhi, _, hothers⟩ := hw
  intro i j hi hij hj
  rcases eq_or_ne j w.pointer with rfl | hjp
  · have hle := hstop.resolve_left (by omega)
    rcases eq_or_ne i (w.pointer - 1) with rfl | hip
    · exact hle
    · exact hcmp.trans _ _ _ (hothers i (w.pointer - 1) hi (by omega) (by omega) (by omega)) hle
  · exact hothers i j hi hij (by omega) hjp

theorem sink_ascending (hcmp : Consistent cmp) {f : Nat → α} {w : Walk σ}
    (hpointer : p.a < w.pointer) (hlast : w.pointer < p.a + p.n)
    (hw : p.Rearranges f (S.view w.mem)) (hsorted : Ascending cmp p.a w.pointer (S.view w.mem)) :
    ∃ sunk, repeatUntil (sinkRound S cmp p) (p.n + 1) w = some sunk ∧
      p.Rearranges f (S.view sunk.mem) ∧
      Ascending cmp p.a (w.pointer + 1) (S.view sunk.mem) := by
  refine repeatUntil_of_variant (I := fun v => Sinking cmp p f w.pointer (v.view S))
    (fun v => v.pointer - p.a) (fun v hv => ?_)
    ⟨hpointer.le, le_refl _, hw, fun i j hi hij hj hne => hsorted i j hi hij ?_⟩
    (by omega)
  · have hlo : p.a ≤ v.pointer := hv.first_le
    have hhi : v.pointer ≤ w.pointer := hv.le_last
    rw [sinkRound]
    by_cases hfirst : p.a < v.pointer
    · rw [if_pos hfirst, cmpAt_of_has (by omega) (by omega)]
      simp only [Option.bind_eq_bind, Option.bind_some]
      by_cases hless : 0 < cmp (S.view v.mem (v.pointer - 1)) (S.view v.mem v.pointer)
      · have hswap := hv.swap hcmp hlast hfirst hless
        rw [if_pos hless, swapAt_of_has (by omega) (by omega)]
        refine Or.inr ⟨⟨v.pointer - 1, S.swap p.a v.mem v.pointer (v.pointer - 1)⟩, rfl, ?_,
          by dsimp only; omega⟩
        rw [Walk.view, S.view_swap]
        exact hswap
      · rw [if_neg hless]
        exact Or.inl ⟨v, rfl, hv.rearranged, hv.ascending hcmp (Or.inr (not_lt.mp hless))⟩
    · rw [if_neg hfirst]
      exact Or.inl ⟨v, rfl, hv.rearranged, hv.ascending hcmp (Or.inl (not_lt.mp hfirst))⟩
  · have hne' : j ≠ w.pointer := hne
    omega

theorem insertionSort_spec (S : Elements σ α) (hcmp : Consistent cmp) (p : Part) (mem : σ) :
    ∃ mem', insertionSort S cmp p mem = some mem' ∧ p.Rearranges (S.view mem) (S.view mem') ∧
      Ascending cmp p.a (p.a + p.n) (S.view mem') := by
  have hloop : ∃ w, repeatUntil (insertRound S cmp p) (p.n + 1) ⟨p.a + 1, mem⟩ = some w ∧
      p.Rearranges (S.view mem) (S.view w.mem) ∧
      Ascending cmp p.a (p.a + p.n) (S.view w.mem) := by
    refine repeatUntil_of_variant
      (I := fun w => p.a < w.pointer ∧ p.Rearranges (S.view mem) (S.view w.mem) ∧
        Ascending cmp p.a w.pointer (S.view w.mem))
      (fun w => p.a + p.n - w.pointer) (fun w hw => ?_)
      ⟨Nat.lt_succ_self _, Rearranges.refl _ _ _, ascending_of_le (le_refl _) _⟩
      (by dsimp only; omega)
    obtain ⟨hpointer, hrearranged, hsorted⟩ := hw
    rw [insertRound]
    by_cases hlast : w.pointer < p.a + p.n
    · obtain ⟨sunk, hsunk, hrearranged', hsorted'⟩ :=
        sink_ascending hcmp hpointer hlast hrearranged hsorted
      rw [if_pos hlast, hsunk]
      exact Or.inr ⟨⟨w.pointer + 1, sunk.mem⟩, rfl,
        ⟨by dsimp only; omega, hrearranged', hsorted'⟩, by dsimp only; omega⟩
    · rw [if_neg hlast]
      refine Or.inl ⟨w, rfl, hrearranged, fun i j hi hij hj => ?_⟩
      exact hsorted i j hi hij (by omega)
  obtain ⟨w, hw, hrearranged, hsorted⟩ := hloop
  refine ⟨w.mem, ?_, hrearranged, hsorted⟩
  rw [insertionSort, hw]
  rfl

/-! ## The partition is one -/

theorem med3_has (S : Elements σ α) (cmp : α → α → Int) {p : Part} (mem : σ) {a b c : Nat}
    (ha : p.Has a) (hb : p.Has b) (hc : p.Has c) :
    ∃ m, med3 S cmp p mem a b c = some m ∧ p.Has m := by
  rw [med3, cmpAt_of_has ha hb, cmpAt_of_has hb hc, cmpAt_of_has ha hc]
  simp only [Option.bind_eq_bind, Option.bind_some]
  split_ifs <;> exact ⟨_, rfl, by assumption⟩

theorem choosePivot_has (S : Elements σ α) (cmp : α → α → Int) {p : Part} (hn : 0 < p.n) (mem : σ) :
    ∃ pm, choosePivot S cmp p mem = some pm ∧ p.Has pm := by
  rw [choosePivot]
  dsimp only
  by_cases hbig : 40 < p.n
  · rw [if_pos hbig]
    obtain ⟨pl, hpl, hl⟩ := med3_has S cmp (p := p) mem (a := p.a)
      (b := p.a + p.n / 8) (c := p.a + 2 * (p.n / 8)) (by omega) (by omega) (by omega)
    obtain ⟨pm, hpm, hm⟩ := med3_has S cmp (p := p) mem
      (a := p.a + p.n / 2 - p.n / 8) (b := p.a + p.n / 2) (c := p.a + p.n / 2 + p.n / 8)
      (by omega) (by omega) (by omega)
    obtain ⟨pn, hpn, hr⟩ := med3_has S cmp (p := p) mem
      (a := p.a + (p.n - 1) - 2 * (p.n / 8)) (b := p.a + (p.n - 1) - p.n / 8)
      (c := p.a + (p.n - 1)) (by omega) (by omega) (by omega)
    rw [hpl, hpm, hpn]
    exact med3_has S cmp mem hl hm hr
  · rw [if_neg hbig]
    by_cases hmid : 7 < p.n
    · rw [if_pos hmid]
      exact med3_has S cmp mem (by omega) (by omega) (by omega)
    · rw [if_neg hmid]
      exact ⟨_, rfl, by omega⟩

/-- What is known of the cells that the pointers have passed, by comparison with the pivot `v`. -/
structure Partitioned (cmp : α → α → Int) (p : Part) (f : Nat → α) (v : α) (s : Scan (Nat → α)) :
    Prop where
  a_lt : p.a < s.pa
  pa_le : s.pa ≤ s.pb
  pb_le : s.pb ≤ s.pc + 1
  pc_le : s.pc ≤ s.pd
  pd_lt : s.pd < p.a + p.n
  rearranged : p.Rearranges f s.mem
  pivot : s.mem p.a = v
  front : ∀ k, p.a ≤ k → k < s.pa → cmp (s.mem k) v = 0
  below : ∀ k, s.pa ≤ k → k < s.pb → cmp (s.mem k) v < 0
  above : ∀ k, s.pc < k → k < s.pd + 1 → 0 < cmp (s.mem k) v
  back : ∀ k, s.pd + 1 ≤ k → k < p.a + p.n → cmp (s.mem k) v = 0

/-- The elements between the pointers. -/
def Scan.between (s : Scan σ) : Nat := s.pc + 1 - s.pb

variable {f : Nat → α} {v : α} {s : Scan (Nat → α)}

/-- `pb` passes an element below the pivot. -/
theorem Partitioned.passBelow (hs : Partitioned cmp p f v s) (hmeet : s.pb ≤ s.pc)
    (hless : cmp (s.mem s.pb) v < 0) :
    Partitioned cmp p f v { s with pb := s.pb + 1 } where
  a_lt := hs.a_lt
  pa_le := Nat.le_succ_of_le hs.pa_le
  pb_le := Nat.succ_le_succ hmeet
  pc_le := hs.pc_le
  pd_lt := hs.pd_lt
  rearranged := hs.rearranged
  pivot := hs.pivot
  front := hs.front
  below k hk hk' := by
    rcases eq_or_ne k s.pb with rfl | hne
    · exact hless
    · exact hs.below k hk (by dsimp only at hk'; omega)
  above := hs.above
  back := hs.back

/-- `pb` passes an element equal to the pivot. -/
theorem Partitioned.passEqualUp (hs : Partitioned cmp p f v s) (hmeet : s.pb ≤ s.pc)
    (hequal : cmp (s.mem s.pb) v = 0) :
    Partitioned cmp p f v { s with
      swapCnt := 1, mem := s.mem ∘ Equiv.swap s.pa s.pb, pa := s.pa + 1, pb := s.pb + 1 } := by
  obtain ⟨ha, hpa, hpb, hpc, hpd, hrearranged, hpivot, hfront, hbelow, habove, hback⟩ := hs
  refine ⟨by dsimp only; omega, by dsimp only; omega, by dsimp only; omega, hpc, hpd,
    hrearranged.trans (Rearranges.swap (by omega) (by omega) _), ?_, ?_, ?_, ?_, ?_⟩
  · exact (Rearranges.swap_other _ (by omega) (by omega)).trans hpivot
  · intro k hk hk'
    dsimp only at hk' ⊢
    rcases eq_or_ne k s.pa with rfl | hne
    · rw [Rearranges.swap_left]
      exact hequal
    · rw [Rearranges.swap_other _ hne (by omega)]
      exact hfront k hk (by omega)
  · intro k hk hk'
    dsimp only at hk hk' ⊢
    rcases eq_or_ne k s.pb with rfl | hne
    · rw [Rearranges.swap_right]
      exact hbelow _ (le_refl _) (by omega)
    · rw [Rearranges.swap_other _ (by omega) hne]
      exact hbelow k (by omega) (by omega)
  · intro k hk hk'
    dsimp only at hk hk' ⊢
    rw [Rearranges.swap_other _ (by omega) (by omega)]
    exact habove k hk hk'
  · intro k hk hk'
    dsimp only at hk hk' ⊢
    rw [Rearranges.swap_other _ (by omega) (by omega)]
    exact hback k hk hk'

/-- `pc` passes an element above the pivot. -/
theorem Partitioned.passAbove (hs : Partitioned cmp p f v s) (hmeet : s.pb ≤ s.pc)
    (hgreater : 0 < cmp (s.mem s.pc) v) :
    Partitioned cmp p f v { s with pc := s.pc - 1 } where
  a_lt := hs.a_lt
  pa_le := hs.pa_le
  pb_le := by dsimp only; omega
  pc_le := (Nat.sub_le _ _).trans hs.pc_le
  pd_lt := hs.pd_lt
  rearranged := hs.rearranged
  pivot := hs.pivot
  front := hs.front
  below := hs.below
  above k hk hk' := by
    rcases eq_or_ne k s.pc with rfl | hne
    · exact hgreater
    · exact hs.above k (by dsimp only at hk; omega) hk'
  back := hs.back

/-- `pc` passes an element equal to the pivot. -/
theorem Partitioned.passEqualDown (hs : Partitioned cmp p f v s) (hmeet : s.pb ≤ s.pc)
    (hequal : cmp (s.mem s.pc) v = 0) :
    Partitioned cmp p f v { s with
      swapCnt := 1, mem := s.mem ∘ Equiv.swap s.pc s.pd, pd := s.pd - 1, pc := s.pc - 1 } := by
  obtain ⟨ha, hpa, hpb, hpc, hpd, hrearranged, hpivot, hfront, hbelow, habove, hback⟩ := hs
  refine ⟨ha, hpa, by dsimp only; omega, by dsimp only; omega, by dsimp only; omega,
    hrearranged.trans (Rearranges.swap (by omega) (by omega) _), ?_, ?_, ?_, ?_, ?_⟩
  · exact (Rearranges.swap_other _ (by omega) (by omega)).trans hpivot
  · intro k hk hk'
    dsimp only at hk' ⊢
    rw [Rearranges.swap_other _ (by omega) (by omega)]
    exact hfront k hk hk'
  · intro k hk hk'
    dsimp only at hk hk' ⊢
    rw [Rearranges.swap_other _ (by omega) (by omega)]
    exact hbelow k hk hk'
  · intro k hk hk'
    dsimp only at hk hk' ⊢
    rcases eq_or_ne k s.pc with rfl | hne
    · rw [Rearranges.swap_left]
      exact habove _ (by omega) (by omega)
    · rw [Rearranges.swap_other _ hne (by omega)]
      exact habove k (by omega) (by omega)
  · intro k hk hk'
    dsimp only at hk hk' ⊢
    rcases eq_or_ne k s.pd with rfl | hne
    · rw [Rearranges.swap_right]
      exact hequal
    · rw [Rearranges.swap_other _ (by omega) hne]
      exact hback k (by omega) hk'

/-- Both pass two elements that stand wrong. -/
theorem Partitioned.passBoth (hs : Partitioned cmp p f v s) (hmeet : s.pb < s.pc)
    (hgreater : 0 < cmp (s.mem s.pb) v) (hless : cmp (s.mem s.pc) v < 0) :
    Partitioned cmp p f v { s with
      mem := s.mem ∘ Equiv.swap s.pb s.pc, swapCnt := 1, pb := s.pb + 1, pc := s.pc - 1 } := by
  obtain ⟨ha, hpa, hpb, hpc, hpd, hrearranged, hpivot, hfront, hbelow, habove, hback⟩ := hs
  refine ⟨ha, by dsimp only; omega, by dsimp only; omega, by dsimp only; omega, hpd,
    hrearranged.trans (Rearranges.swap (by omega) (by omega) _), ?_, ?_, ?_, ?_, ?_⟩
  · exact (Rearranges.swap_other _ (by omega) (by omega)).trans hpivot
  · intro k hk hk'
    dsimp only at hk' ⊢
    rw [Rearranges.swap_other _ (by omega) (by omega)]
    exact hfront k hk hk'
  · intro k hk hk'
    dsimp only at hk hk' ⊢
    rcases eq_or_ne k s.pb with rfl | hne
    · rw [Rearranges.swap_left]
      exact hless
    · rw [Rearranges.swap_other _ hne (by omega)]
      exact hbelow k hk (by omega)
  · intro k hk hk'
    dsimp only at hk hk' ⊢
    rcases eq_or_ne k s.pc with rfl | hne
    · rw [Rearranges.swap_right]
      exact hgreater
    · rw [Rearranges.swap_other _ (by omega) hne]
      exact habove k (by omega) hk'
  · intro k hk hk'
    dsimp only at hk hk' ⊢
    rw [Rearranges.swap_other _ (by omega) (by omega)]
    exact hback k hk hk'

variable {t : Scan σ}

/-- The loops have rounds enough. -/
theorem Partitioned.between_lt (ht : Partitioned cmp p f v (t.view S)) :
    t.between < p.n + 1 := by
  have h : t.pc ≤ t.pd := ht.pc_le
  have h' : t.pd < p.a + p.n := ht.pd_lt
  have h'' : p.a < t.pb := ht.a_lt.trans_le ht.pa_le
  rw [Scan.between]
  omega

/-- Where the first loop stops: the pointers have met, or `pb` is at an element above. -/
theorem up_spec (ht : Partitioned cmp p f v (t.view S)) :
    ∃ t', repeatUntil (upRound S cmp p) (p.n + 1) t = some t' ∧
      (Partitioned cmp p f v (t'.view S) ∧ t'.between ≤ t.between) ∧
      (t'.pb ≤ t'.pc → 0 < cmp (S.view t'.mem t'.pb) v) := by
  refine repeatUntil_of_variant
    (I := fun u => Partitioned cmp p f v (u.view S) ∧ u.between ≤ t.between)
    (Q := fun u => (Partitioned cmp p f v (u.view S) ∧ u.between ≤ t.between) ∧
      (u.pb ≤ u.pc → 0 < cmp (S.view u.mem u.pb) v))
    Scan.between (fun u hu => ?_) ⟨ht, le_refl _⟩ ht.between_lt
  obtain ⟨hu, hless⟩ := hu
  have hbefore : p.a < u.pa := hu.a_lt
  have hpa : u.pa ≤ u.pb := hu.pa_le
  have hpc : u.pc ≤ u.pd := hu.pc_le
  have hpd : u.pd < p.a + p.n := hu.pd_lt
  have hpivot : S.view u.mem p.a = v := hu.pivot
  rw [Scan.between, Scan.between] at hless
  rw [upRound]
  by_cases hmeet : u.pb ≤ u.pc
  · rw [if_pos hmeet, cmpAt_of_has (by omega) (by omega), hpivot]
    simp only [Option.bind_eq_bind, Option.bind_some]
    rcases lt_trichotomy (cmp (S.view u.mem u.pb) v) 0 with hbelow | hequal | habove
    · rw [if_pos hbelow.le, if_neg hbelow.ne]
      exact Or.inr ⟨_, rfl, ⟨hu.passBelow hmeet hbelow, by simp only [Scan.between]; omega⟩,
        by simp only [Scan.between]; omega⟩
    · have hpass := hu.passEqualUp hmeet hequal
      rw [if_pos hequal.le, if_pos hequal, swapAt_of_has (by omega) (by omega)]
      refine Or.inr ⟨_, rfl, ⟨?_, by simp only [Scan.between]; omega⟩,
        by simp only [Scan.between]; omega⟩
      rw [Scan.view, S.view_swap]
      exact hpass
    · rw [if_neg (by omega)]
      exact Or.inl ⟨u, rfl, ⟨hu, hless⟩, fun _ => habove⟩
  · rw [if_neg hmeet]
    exact Or.inl ⟨u, rfl, ⟨hu, hless⟩, fun h => absurd h hmeet⟩

/-- Where the second stops: the pointers have met, or `pc` is at an element below. -/
theorem down_spec (ht : Partitioned cmp p f v (t.view S))
    (hstop : t.pb ≤ t.pc → 0 < cmp (S.view t.mem t.pb) v) :
    ∃ t', repeatUntil (downRound S cmp p) (p.n + 1) t = some t' ∧
      (Partitioned cmp p f v (t'.view S) ∧ t'.between ≤ t.between) ∧
      (t'.pb ≤ t'.pc →
        0 < cmp (S.view t'.mem t'.pb) v ∧ cmp (S.view t'.mem t'.pc) v < 0) := by
  refine repeatUntil_of_variant
    (I := fun u => (Partitioned cmp p f v (u.view S) ∧ u.between ≤ t.between) ∧
      (u.pb ≤ u.pc → 0 < cmp (S.view u.mem u.pb) v))
    (Q := fun u => (Partitioned cmp p f v (u.view S) ∧ u.between ≤ t.between) ∧
      (u.pb ≤ u.pc → 0 < cmp (S.view u.mem u.pb) v ∧ cmp (S.view u.mem u.pc) v < 0))
    Scan.between (fun u hu => ?_) ⟨⟨ht, le_refl _⟩, hstop⟩ ht.between_lt
  obtain ⟨⟨hu, hless⟩, hstop⟩ := hu
  have hbefore : p.a < u.pa := hu.a_lt
  have hpa : u.pa ≤ u.pb := hu.pa_le
  have hpc : u.pc ≤ u.pd := hu.pc_le
  have hpd : u.pd < p.a + p.n := hu.pd_lt
  have hpivot : S.view u.mem p.a = v := hu.pivot
  rw [Scan.between, Scan.between] at hless
  rw [downRound]
  by_cases hmeet : u.pb ≤ u.pc
  · rw [if_pos hmeet, cmpAt_of_has (by omega) (by omega), hpivot]
    simp only [Option.bind_eq_bind, Option.bind_some]
    rcases lt_trichotomy (cmp (S.view u.mem u.pc) v) 0 with hbelow | hequal | habove
    · rw [if_neg (by omega)]
      exact Or.inl ⟨u, rfl, ⟨hu, hless⟩, fun h => ⟨hstop h, hbelow⟩⟩
    · -- `pb` is at an element above, so `pc` is not there.
      have hne : u.pb ≠ u.pc := by
        intro heq
        have h := hstop hmeet
        rw [heq] at h
        omega
      have hpass := hu.passEqualDown hmeet hequal
      rw [if_pos hequal.ge, if_pos hequal, swapAt_of_has (by omega) (by omega)]
      refine Or.inr ⟨_, rfl, ⟨⟨?_, by simp only [Scan.between]; omega⟩, fun _ => ?_⟩,
        by simp only [Scan.between]; omega⟩
      · rw [Scan.view, S.view_swap]
        exact hpass
      · dsimp only
        rw [S.view_swap, Rearranges.swap_other _ (by omega) (by omega)]
        exact hstop hmeet
    · rw [if_pos habove.le, if_neg habove.ne']
      exact Or.inr ⟨_, rfl, ⟨⟨hu.passAbove hmeet habove, by simp only [Scan.between]; omega⟩,
        fun _ => hstop hmeet⟩, by simp only [Scan.between]; omega⟩
  · rw [if_neg hmeet]
    exact Or.inl ⟨u, rfl, ⟨hu, hless⟩, fun h => absurd h hmeet⟩

/-- The loop ends when the pointers have passed each other. -/
theorem partition_loop (ht : Partitioned cmp p f v (t.view S)) :
    ∃ t', repeatUntil (partitionRound S cmp p) (p.n + 1) t = some t' ∧
      Partitioned cmp p f v (t'.view S) ∧ t'.pc < t'.pb := by
  refine repeatUntil_of_variant (I := fun u => Partitioned cmp p f v (u.view S))
    (Q := fun u => Partitioned cmp p f v (u.view S) ∧ u.pc < u.pb)
    Scan.between (fun u hu => ?_) ht ht.between_lt
  obtain ⟨up, hup, ⟨hupPart, hupLess⟩, hupStop⟩ := up_spec hu
  obtain ⟨down, hdown, ⟨hdownPart, hdownLess⟩, hdownStop⟩ := down_spec hupPart hupStop
  rw [partitionRound, hup]
  simp only [Option.bind_eq_bind, Option.bind_some]
  rw [hdown]
  simp only [Option.bind_some]
  by_cases hmet : down.pc < down.pb
  · rw [if_pos hmet]
    exact Or.inl ⟨down, rfl, hdownPart, hmet⟩
  · obtain ⟨hgreater, hbelow⟩ := hdownStop (by omega)
    have hne : down.pb ≠ down.pc := by
      intro heq
      rw [heq] at hgreater
      omega
    have hbefore : p.a < down.pa := hdownPart.a_lt
    have hpa : down.pa ≤ down.pb := hdownPart.pa_le
    have hpc : down.pc ≤ down.pd := hdownPart.pc_le
    have hpd : down.pd < p.a + p.n := hdownPart.pd_lt
    have hmeet : down.pb < down.pc := by omega
    have hpass := hdownPart.passBoth hmeet hgreater hbelow
    rw [if_neg hmet, swapAt_of_has (by omega) (by omega)]
    simp only [Scan.between] at hupLess hdownLess ⊢
    refine Or.inr ⟨_, rfl, ?_, by dsimp only; omega⟩
    rw [Scan.view, S.view_swap]
    exact hpass

theorem partitionMem_spec (S : Elements σ α) (hcmp : Consistent cmp) (hn : 7 ≤ p.n) (mem : σ) :
    ∃ t v, partitionMem S cmp p mem = some t ∧ Partitioned cmp p (S.view mem) v (t.view S) ∧
      t.pc < t.pb := by
  obtain ⟨pm, hpm, hhas⟩ := choosePivot_has S cmp (p := p) (by omega) mem
  have hstart : Partitioned cmp p (S.view mem) (S.view mem pm)
      (Scan.view S
        { pa := p.a + 1, pb := p.a + 1, pc := p.a + (p.n - 1), pd := p.a + (p.n - 1),
          swapCnt := 0, mem := S.swap p.a mem p.a pm }) := by
    rw [Scan.view, S.view_swap]
    refine ⟨Nat.lt_succ_self _, le_refl _, by dsimp only; omega, le_refl _,
      by dsimp only; omega, Rearranges.swap (by omega) hhas _, Rearranges.swap_left _ p.a pm,
      fun k hk hk' => ?_, fun k hk hk' => ?_, fun k hk hk' => ?_, fun k hk hk' => ?_⟩
    · obtain rfl : k = p.a := by
        dsimp only at hk'
        omega
      dsimp only
      rw [Rearranges.swap_left, hcmp.self]
    all_goals
      dsimp only at hk hk'
      omega
  obtain ⟨t, ht, hpart, hmet⟩ := partition_loop hstart
  refine ⟨t, S.view mem pm, ?_, hpart, hmet⟩
  rw [partitionMem, hpm]
  simp only [Option.bind_eq_bind, Option.bind_some]
  rw [swapAt_of_has (by omega) hhas]
  exact ht

/-! ## The sort is one -/

theorem vecswapAt_spec (mem : σ) {x y r : Nat} (hxy : x + r ≤ y) (hx : p.a ≤ x)
    (hy : y + r ≤ p.a + p.n) :
    ∃ mem', vecswapAt S p mem x y r = some mem' ∧ p.Rearranges (S.view mem) (S.view mem') ∧
      Exchanged x y r (S.view mem) (S.view mem') := by
  rw [vecswapAt]
  rcases Nat.eq_zero_or_pos r with rfl | hr
  · rw [if_neg (Nat.lt_irrefl 0)]
    exact ⟨mem, rfl, Rearranges.refl _ _ _, Exchanged.zero x y _⟩
  · have hexchanged := S.view_vecswap p.a mem x y r hxy
    rw [if_pos hr, if_pos ⟨⟨by omega, by omega⟩, by omega, by omega⟩]
    exact ⟨_, rfl, hexchanged.rearranges hxy hx hy, hexchanged⟩

/-- What is equal to the pivot is in the middle. -/
structure Gathered (cmp : α → α → Int) (p : Part) (f : Nat → α) (v : α) (mid mid' : Nat)
    (g : Nat → α) : Prop where
  rearranged : p.Rearranges f g
  below : ∀ k, p.a ≤ k → k < mid → cmp (g k) v < 0
  equal : ∀ k, mid ≤ k → k < mid' → cmp (g k) v = 0
  above : ∀ k, mid' ≤ k → k < p.a + p.n → 0 < cmp (g k) v

theorem gatherEqual_spec (ht : Partitioned cmp p f v (t.view S)) (hmet : t.pc < t.pb) :
    ∃ mem', gatherEqual S p t = some mem' ∧
      Gathered cmp p f v (p.a + (t.pb - t.pa)) (p.a + p.n - (t.pd - t.pc)) (S.view mem') := by
  obtain ⟨ha, hpa, hpb, hpc, hpd, hrearranged, -, hfront, hbelow, habove, hback⟩ := ht
  dsimp only [Scan.view] at ha hpa hpb hpc hpd hrearranged hfront hbelow habove hback
  obtain ⟨g, hg, hgr, hgx⟩ := vecswapAt_spec (S := S) (p := p) t.mem (x := p.a)
    (y := t.pb - min (t.pa - p.a) (t.pb - t.pa)) (r := min (t.pa - p.a) (t.pb - t.pa))
    (by omega) (le_refl _) (by omega)
  obtain ⟨hleft, hmid⟩ := hgx.ends (P := fun x => cmp x v = 0)
    (Q := fun x => cmp x v < 0) ha.le hpa hfront hbelow
  -- The right of the pointers is as it was.
  have hsame : ∀ k, t.pb ≤ k → S.view g k = S.view t.mem k :=
    fun k hk => hgx.other k (by omega) (by omega)
  have habove' : ∀ k, t.pb ≤ k → k < t.pd + 1 → 0 < cmp (S.view g k) v := by
    intro k hk hk'
    rw [hsame k hk]
    exact habove k (by omega) hk'
  have hback' : ∀ k, t.pd + 1 ≤ k → k < p.a + p.n → cmp (S.view g k) v = 0 := by
    intro k hk hk'
    rw [hsame k (by omega)]
    exact hback k hk hk'
  have hr : min (t.pd - t.pc) (p.a + p.n - t.pd - 1) =
      min (t.pd + 1 - t.pb) (p.a + p.n - (t.pd + 1)) := by omega
  obtain ⟨h, hh, hhr, hhx⟩ := vecswapAt_spec (S := S) (p := p) g (x := t.pb)
    (y := p.a + p.n - min (t.pd + 1 - t.pb) (p.a + p.n - (t.pd + 1)))
    (r := min (t.pd + 1 - t.pb) (p.a + p.n - (t.pd + 1))) (by omega) (by omega) (by omega)
  obtain ⟨hequal, hright⟩ := hhx.ends (P := fun x => 0 < cmp x v)
    (Q := fun x => cmp x v = 0) (by omega) (by omega) habove' hback'
  refine ⟨h, ?_, (hrearranged.trans hgr).trans hhr, fun k hk hk' => ?_, fun k hk hk' => ?_,
    fun k hk hk' => hright k (by omega) hk'⟩
  · rw [gatherEqual, hg]
    simp only [Option.bind_eq_bind, Option.bind_some]
    rw [hr]
    exact hh
  · rw [hhx.other k (by omega) (by omega)]
    exact hleft k hk (by omega)
  · rcases Nat.lt_or_ge k t.pb with hlt | hge
    · rw [hhx.other k (by omega) (by omega)]
      exact hmid k (by omega) hlt
    · exact hequal k hge (by omega)

/-- The two sides sorted, one after the other. -/
theorem Gathered.ascending (hcmp : Consistent cmp) {f g g' h : Nat → α} {mid mid' : Nat}
    (hg : Gathered cmp p f v mid mid' g) (hmid : p.a ≤ mid) (hmids : mid ≤ mid')
    (hmid' : mid' ≤ p.a + p.n) (hleft : Rearranges p.a mid g g') (hleft' : Ascending cmp p.a mid g')
    (hright : Rearranges mid' (p.a + p.n) g' h) (hright' : Ascending cmp mid' (p.a + p.n) h) :
    p.Rearranges f h ∧ Ascending cmp p.a (p.a + p.n) h := by
  refine ⟨(hg.rearranged.trans (hleft.mono (le_refl _) (hmids.trans hmid'))).trans
    (hright.mono (hmid.trans hmids) (le_refl _)), ?_⟩
  have hsameLeft : ∀ k, p.a ≤ k → k < mid → h k = g' k :=
    fun k _ hk => hright.outside (by omega)
  refine Ascending.append hcmp (v := v) (hleft'.congr hsameLeft) hright'
    (fun k hk hk' => ?_) (fun k hk hk' => ?_) ?_
  · rw [hsameLeft k hk hk']
    exact hleft.forall_inside (P := fun x => cmp x v ≤ 0)
      (fun j hj hj' => (hg.below j hj hj').le) k hk hk'
  · rw [hright.outside (by omega), hleft.outside (by omega)]
    exact hg.equal k hk hk'
  · refine hright.forall_inside (P := fun x => 0 ≤ cmp x v) fun j hj hj' => ?_
    rw [hleft.outside (by omega)]
    exact (hg.above j hj hj').le

/-- **The sort.**  A call that may open more calls than it has elements ends, touches nothing but
its elements, and leaves them rearranged and in order. -/
theorem qsortImp_sorts (S : Elements σ α) (hcmp : Consistent cmp) (depth : Nat) (p : Part)
    (mem : σ) (hdepth : p.n < depth) :
    ∃ mem', qsortImp S cmp depth p mem = some mem' ∧
      Rearranges p.a (p.a + p.n) (S.view mem) (S.view mem') ∧
      Ascending cmp p.a (p.a + p.n) (S.view mem') := by
  induction depth generalizing p mem with
  | zero => exact absurd hdepth (Nat.not_lt_zero _)
  | succ depth ih =>
      -- A side is sorted by a call, or too short to need one.
      have hside : ∀ (q : Part) (h : σ), q.n < depth →
          ∃ g, (if 1 < q.n then qsortImp S cmp depth q h else some h) = some g ∧
            Rearranges q.a (q.a + q.n) (S.view h) (S.view g) ∧
            Ascending cmp q.a (q.a + q.n) (S.view g) := by
        intro q h hq
        by_cases hlong : 1 < q.n
        · rw [if_pos hlong]
          exact ih q h hq
        · rw [if_neg hlong]
          exact ⟨h, rfl, Rearranges.refl _ _ _, ascending_of_le (by omega) _⟩
      rw [qsortImp]
      by_cases hfew : p.n < 7
      · rw [if_pos hfew]
        exact insertionSort_spec S hcmp p mem
      · rw [if_neg hfew]
        obtain ⟨t, v, ht, hpart, hmet⟩ := partitionMem_spec S hcmp (p := p) (by omega) mem
        rw [ht]
        simp only [Option.bind_eq_bind, Option.bind_some]
        by_cases hcnt : t.swapCnt = 0
        · obtain ⟨mem', hmem', hrearranged, hsorted⟩ := insertionSort_spec S hcmp p t.mem
          rw [if_pos hcnt]
          exact ⟨mem', hmem', hpart.rearranged.trans hrearranged, hsorted⟩
        · rw [if_neg hcnt]
          have hshort : t.pb - t.pa + (t.pd - t.pc) < p.n := by
            have h : p.a < t.pa := hpart.a_lt
            have h' : t.pa ≤ t.pb := hpart.pa_le
            have h'' : t.pb ≤ t.pc + 1 := hpart.pb_le
            have h''' : t.pc ≤ t.pd := hpart.pc_le
            have h'''' : t.pd < p.a + p.n := hpart.pd_lt
            omega
          obtain ⟨g, hg, hgathered⟩ := gatherEqual_spec hpart hmet
          obtain ⟨g', hg', hleft, hleft'⟩ := hside ⟨p.a, t.pb - t.pa⟩ g (by dsimp only; omega)
          obtain ⟨h, hh, hright, hright'⟩ :=
            hside ⟨p.a + p.n - (t.pd - t.pc), t.pd - t.pc⟩ g' (by dsimp only; omega)
          have hend : p.a + p.n - (t.pd - t.pc) + (t.pd - t.pc) = p.a + p.n := by omega
          dsimp only at hg' hleft hleft' hh hright hright'
          rw [hend] at hright hright'
          refine ⟨h, ?_, hgathered.ascending hcmp (by omega) (by omega) (by omega) hleft hleft'
            hright hright'⟩
          rw [hg]
          simp only [Option.bind_some]
          rw [hg', Option.bind_some]
          exact hh

end PsvEmmc
