/-
# `PsvEmmc.SegmentTable.Find` — an address in the sorted table

The search takes the first entry whose range holds the address.  No filler's
range does: it starts at the last address and does not go on.  So when the
segments are disjoint at most one entry holds an address, and neither the
order of the entries nor the fillers between them matter: `find_iff` says
what is found, in the table as it was filled and after it was sorted.
-/
import PsvEmmc.SegmentTable.Contents

namespace PsvEmmc

open Filling

/-! ## Segments and addresses -/

/-- The segment contains the address. -/
def PresentSegment.Contains (p : PresentSegment) (item : UInt32) : Prop :=
  p.vaddr.toNat ≤ item.toNat ∧ item.toNat < p.vaddr.toNat + p.memsz.toNat

/-- No address is in both. -/
def PresentSegment.Apart (p q : PresentSegment) : Prop :=
  ∀ item, ¬ (p.Contains item ∧ q.Contains item)

instance : Std.Symm PresentSegment.Apart where
  symm _ _ h item hboth := h item hboth.symm

/-- The comparison finds the addresses of the segment. -/
theorem PresentSegment.holds_entry_iff {p : PresentSegment}
    (hp : p.vaddr.toNat + p.memsz.toNat ≤ 2 ^ 32 - 1) (item : UInt32) :
    p.entry.holds item = true ↔ p.Contains item := by
  have hend : (p.vaddr + p.memsz).toNat = p.vaddr.toNat + p.memsz.toNat := by
    rw [UInt32.toNat_add]
    exact Nat.mod_eq_of_lt (by omega)
  rw [SegmentInfo.holds, Bool.and_eq_true, decide_eq_true_iff, decide_eq_true_iff,
    UInt32.le_iff_toNat_le, UInt32.lt_iff_toNat_lt, entry, hend]
  exact Iff.rfl

/-- A range of fillers holds nothing. -/
theorem not_holds_of_range {e : SegmentInfo} (he : e.range = ⟨-1, -1⟩) (item : UInt32) :
    ¬ e.holds item = true := by
  rw [SegmentInfo.holds, he, Bool.and_eq_true, decide_eq_true_iff, decide_eq_true_iff]
  exact fun h => absurd (UInt32.lt_of_le_of_lt h.1 h.2) (UInt32.lt_irrefl _)

/-! ## Searching -/

/-- The entry that a result of `find_in_segments` names. -/
def SegmentTable.entryAt (t : SegmentTable) (s : Int) : Option SegmentInfo :=
  if 0 ≤ s then some (t.segList s.toNat) else none

/-- The search finds the first entry that holds the address, or says `-1`. -/
theorem find_cases {t : SegmentTable} (hflag : t.moduleConstructured ≠ 0) (n : Nat)
    (item : UInt32) :
    (∃ s : Nat, findInSegments n t item = s ∧ s < n ∧
      (t.entries n).find? (SegmentInfo.holds item) = some (t.segList s)) ∨
    (findInSegments n t item = -1 ∧ (t.entries n).find? (SegmentInfo.holds item) = none) := by
  rw [List.find?_eq_bind_findIdx?_getElem?, findInSegments, if_neg hflag]
  cases hs : (t.entries n).findIdx? (SegmentInfo.holds item) with
  | none => exact Or.inr ⟨rfl, rfl⟩
  | some s =>
      obtain ⟨hlt, _⟩ := List.findIdx?_eq_some_iff_getElem.mp hs
      rw [SegmentTable.entries, length_front] at hlt
      exact Or.inl ⟨s, rfl, hlt, getElem?_front t.segList hlt⟩

theorem entryAt_find {t : SegmentTable} (hflag : t.moduleConstructured ≠ 0) (n : Nat)
    (item : UInt32) :
    t.entryAt (findInSegments n t item) = (t.entries n).find? (SegmentInfo.holds item) := by
  rcases find_cases hflag n item with ⟨s, hs, _, hfound⟩ | ⟨hs, hfound⟩
  · rw [hs, hfound, SegmentTable.entryAt, if_pos (Int.natCast_nonneg s), Int.toNat_natCast]
  · rw [hs, hfound]
    rfl

theorem find_lt {t : SegmentTable} (hflag : t.moduleConstructured ≠ 0) (n : Nat)
    (item : UInt32) : findInSegments n t item < n := by
  rcases find_cases hflag n item with ⟨s, hs, hlt, _⟩ | ⟨hs, _⟩ <;> omega

theorem find_eq_neg_one_iff {t : SegmentTable} (hflag : t.moduleConstructured ≠ 0) (n : Nat)
    (item : UInt32) :
    findInSegments n t item = -1 ↔ t.entryAt (findInSegments n t item) = none := by
  rw [entryAt_find hflag]
  rcases find_cases hflag n item with ⟨s, hs, _, hfound⟩ | ⟨hs, hfound⟩
  · rw [hs, hfound]
    exact iff_of_false (by omega) (by simp)
  · exact iff_of_true hs hfound

/-! ## Sorting -/

/-- What `qsort_imp` does with `compare_segments`. -/
structure Sorts (qsortImp : List SegmentInfo → List SegmentInfo) : Prop where
  perm : ∀ es, (qsortImp es).Perm es
  ascending : ∀ es, (qsortImp es).Pairwise fun x y => compareSegments x y ≤ 0

theorem entries_sorted {qsortImp : List SegmentInfo → List SegmentInfo} (hsort : Sorts qsortImp)
    {t : SegmentTable} (hflag : t.moduleConstructured ≠ 0) (n : Nat) :
    (sortSegmentTable qsortImp n t).2.entries n = qsortImp (t.entries n) := by
  have hlength : (qsortImp (t.entries n)).length = n :=
    (hsort.perm _).length_eq.trans (length_front t.segList n)
  have hread := front_getD (qsortImp (t.entries n)) t.segList
  rw [hlength] at hread
  rw [sortSegmentTable, if_neg hflag]
  exact hread

theorem flag_sorted (qsortImp : List SegmentInfo → List SegmentInfo) {t : SegmentTable}
    (hflag : t.moduleConstructured ≠ 0) (n : Nat) :
    (sortSegmentTable qsortImp n t).2.moduleConstructured ≠ 0 := by
  rw [sortSegmentTable, if_neg hflag]
  exact hflag

/-! ## What is found -/

/-- Disjoint segments that end below the last address. -/
structure Separate (ps : List PresentSegment) : Prop where
  apart : ps.Pairwise PresentSegment.Apart
  bounded : ∀ p ∈ ps, p.vaddr.toNat + p.memsz.toNat ≤ 2 ^ 32 - 1

/-- In a table that lists such segments, an entry holds an address exactly when it is that of the
segment that contains it. -/
theorem mem_entries_holds_iff {t : SegmentTable} {n : Nat} {ps : List PresentSegment}
    (hlists : t.Lists n ps) (hsep : Separate ps) (item : UInt32) (e : SegmentInfo) :
    (e ∈ t.entries n ∧ e.holds item = true) ↔ ∃ p ∈ ps, p.Contains item ∧ e = p.entry := by
  obtain ⟨rest, hentries, hrest⟩ := hlists
  rw [hentries, List.mem_append]
  constructor
  · rintro ⟨hmem | hmem, hholds⟩
    · obtain ⟨p, hp, rfl⟩ := List.mem_map.mp hmem
      exact ⟨p, hp, (p.holds_entry_iff (hsep.bounded p hp) item).mp hholds, rfl⟩
    · exact absurd hholds (not_holds_of_range (hrest e hmem) item)
  · rintro ⟨p, hp, hcontains, rfl⟩
    exact ⟨Or.inl (List.mem_map_of_mem hp),
      (p.holds_entry_iff (hsep.bounded p hp) item).mpr hcontains⟩

/-- One segment at most contains an address. -/
theorem Separate.unique {ps : List PresentSegment} (hsep : Separate ps) {p q : PresentSegment}
    (hp : p ∈ ps) (hq : q ∈ ps) {item : UInt32} (hpi : p.Contains item) (hqi : q.Contains item) :
    p = q := by
  by_contra hne
  exact hsep.apart.forall hp hq hne item ⟨hpi, hqi⟩

/-- So any order of the entries gives the same one. -/
theorem find?_of_perm {t : SegmentTable} {n : Nat} {ps : List PresentSegment}
    (hlists : t.Lists n ps) (hsep : Separate ps) {es : List SegmentInfo}
    (hperm : es.Perm (t.entries n)) (item : UInt32) :
    es.find? (SegmentInfo.holds item) = (t.entries n).find? (SegmentInfo.holds item) := by
  refine (List.find?_eq_find?_of_perm hperm.symm ?_).symm
  intro e he e' he'
  obtain ⟨p, hp, hpi, rfl⟩ := (mem_entries_holds_iff hlists hsep item e).mp he
  obtain ⟨q, hq, hqi, rfl⟩ := (mem_entries_holds_iff hlists hsep item e').mp he'
  rw [hsep.unique hp hq hpi hqi]

theorem find?_eq_some_iff {t : SegmentTable} {n : Nat} {ps : List PresentSegment}
    (hlists : t.Lists n ps) (hsep : Separate ps) (item : UInt32) (e : SegmentInfo) :
    (t.entries n).find? (SegmentInfo.holds item) = some e ↔
      ∃ p ∈ ps, p.Contains item ∧ e = p.entry := by
  have hiff := mem_entries_holds_iff hlists hsep item
  constructor
  · intro h
    exact (hiff e).mp ⟨List.mem_of_find?_eq_some h, List.find?_some h⟩
  · rintro ⟨p, hp, hpi, rfl⟩
    obtain ⟨hmem, hholds⟩ := (hiff p.entry).mpr ⟨p, hp, hpi, rfl⟩
    cases hfind : (t.entries n).find? (SegmentInfo.holds item) with
    | none => exact absurd hholds (List.find?_eq_none.mp hfind _ hmem)
    | some e =>
        obtain ⟨q, hq, hqi, rfl⟩ :=
          (hiff e).mp ⟨List.mem_of_find?_eq_some hfind, List.find?_some hfind⟩
        rw [hsep.unique hq hp hqi hpi]

/-- **What is found.**  When a table was filled with fewer segments than it has room for, disjoint
and below the last address, the search in the sorted table finds the entry of the segment that
contains the address, the one it found before the table was sorted, and says `-1` when there is
no such segment.  What it finds is in the table and no filler. -/
theorem find_iff {modlistLen : Nat} (k : ModuleAnswers modlistLen) (n : Nat) (t : SegmentTable)
    (modlist : ModuleList modlistLen) (qsortImp : List SegmentInfo → List SegmentInfo)
    (hsort : Sorts qsortImp) (hflag : ¬ 0 < t.moduleConstructured)
    (hlist : k.getModuleList = .ok modlist) (hret : (constructTable k n t).ret = 0)
    (hfew : (presentSegments k.getModuleInfo modlist).length < n)
    (hsep : Separate (presentSegments k.getModuleInfo modlist)) (item : UInt32) :
    let table := (constructTable k n t).table
    let sorted := (sortSegmentTable qsortImp n table).2
    (∀ e, sorted.entryAt (findInSegments n sorted item) = some e ↔
      ∃ p ∈ presentSegments k.getModuleInfo modlist, p.Contains item ∧ e = p.entry) ∧
    (findInSegments n sorted item = -1 ↔
      ∀ p ∈ presentSegments k.getModuleInfo modlist, ¬ p.Contains item) ∧
    sorted.entryAt (findInSegments n sorted item) = table.entryAt (findInSegments n table item) ∧
    findInSegments n sorted item < n ∧
    ∀ e, sorted.entryAt (findInSegments n sorted item) = some e → e.range ≠ ⟨-1, -1⟩ := by
  intro table sorted
  obtain ⟨hone, hlists⟩ := constructTable_lists hflag hlist hret hfew.le
  have hset : table.moduleConstructured ≠ 0 := by
    rw [hone]
    decide
  have hset' : sorted.moduleConstructured ≠ 0 := flag_sorted qsortImp hset n
  -- The search in the sorted table is one in a permutation of the table.
  have hsame : (sorted.entries n).find? (SegmentInfo.holds item) =
      (table.entries n).find? (SegmentInfo.holds item) := by
    rw [entries_sorted hsort hset]
    exact find?_of_perm hlists hsep (hsort.perm _) item
  have hfound : ∀ e, sorted.entryAt (findInSegments n sorted item) = some e ↔
      ∃ p ∈ presentSegments k.getModuleInfo modlist, p.Contains item ∧ e = p.entry := by
    intro e
    rw [entryAt_find hset', hsame]
    exact find?_eq_some_iff hlists hsep item e
  refine ⟨hfound, ?_, ?_, find_lt hset' n item, fun e he hrange => ?_⟩
  · rw [find_eq_neg_one_iff hset', Option.eq_none_iff_forall_ne_some]
    constructor
    · exact fun h p hp hpi => h p.entry ((hfound p.entry).mpr ⟨p, hp, hpi, rfl⟩)
    · intro h e he
      obtain ⟨p, hp, hpi, _⟩ := (hfound e).mp he
      exact h p hp hpi
  · rw [entryAt_find hset', entryAt_find hset, hsame]
  · obtain ⟨p, hp, hpi, rfl⟩ := (hfound e).mp he
    exact not_holds_of_range hrange item ((p.holds_entry_iff (hsep.bounded p hp) item).mpr hpi)

theorem compareSegments_nonpos_iff (x y : SegmentInfo) :
    compareSegments x y ≤ 0 ↔ x.range.start ≤ y.range.start := by
  unfold compareSegments
  split
  · next h => exact iff_of_true (by decide) (UInt32.le_of_lt h)
  · next h =>
      split
      · next h' => exact iff_of_false (by decide) (UInt32.not_le.mpr h')
      · next h' => exact iff_of_true (by decide) (UInt32.not_lt.mp h')

/-- A stable sort. -/
def mergeByStart (es : List SegmentInfo) : List SegmentInfo :=
  es.mergeSort fun x y => decide (compareSegments x y ≤ 0)

theorem mergeByStart_sorts : Sorts mergeByStart where
  perm es := List.mergeSort_perm es _
  ascending es := by
    have hle : (mergeByStart es).Pairwise fun x y => decide (compareSegments x y ≤ 0) = true := by
      refine List.pairwise_mergeSort (fun x y z hxy hyz => ?_) (fun x y => ?_) es
      · rw [decide_eq_true_iff, compareSegments_nonpos_iff] at hxy hyz ⊢
        exact UInt32.le_trans hxy hyz
      · rw [Bool.or_eq_true, decide_eq_true_iff, decide_eq_true_iff, compareSegments_nonpos_iff,
          compareSegments_nonpos_iff]
        exact UInt32.le_total _ _
    exact hle.imp fun h => of_decide_eq_true h

/-- Two modules, the second in front of the first. -/
def twoModules : ModuleAnswers 2 where
  getModuleList := .ok ⟨[1, 2], le_refl 2⟩
  getModuleInfo m :=
    let vaddr := if m = 1 then 0x2000 else 0x1000
    .ok ⟨Vector.replicate 28 0x61, #v[⟨vaddr, 0x100⟩, ⟨0, 0⟩, ⟨0, 0⟩, ⟨0, 0⟩]⟩

theorem twoModules_separate : Separate (presentSegments twoModules.getModuleInfo [1, 2]) where
  apart := by
    refine List.pairwise_pair.mpr fun item h => ?_
    have hfirst : 0x2000 ≤ item.toNat := h.1.1
    have hsecond : item.toNat < 0x1000 + 0x100 := h.2.2
    omega
  bounded := by decide

/-- The first address of the second module. -/
theorem find_second_module :
    let table := (constructTable twoModules 3 ⟨fun _ => SegmentInfo.filler, 0⟩).table
    let sorted := (sortSegmentTable mergeByStart 3 table).2
    sorted.entryAt (findInSegments 3 sorted 0x1000) =
      some ⟨nameField (Vector.replicate 28 0x61), 0, ⟨0x1000, 0x1100⟩⟩ :=
  ((find_iff twoModules 3 ⟨fun _ => SegmentInfo.filler, 0⟩ ⟨[1, 2], le_refl 2⟩ mergeByStart
    mergeByStart_sorts (by decide) rfl rfl (by decide) twoModules_separate 0x1000).1 _).mpr
      ⟨⟨Vector.replicate 28 0x61, 0, 0x1000, 0x100⟩, by decide, ⟨by decide, by decide⟩, rfl⟩

end PsvEmmc
