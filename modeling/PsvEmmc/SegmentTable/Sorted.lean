/-
# `PsvEmmc.SegmentTable.Sorted` — the table that was sorted by `qsort.c`

At the start of a program its table is constructed, sorted and printed.  The
printing stops at the first entry with a `-1` in its range.  A filler has the
last address for its start, so the sort moves all fillers behind the segments,
and what is printed is each segment once, in the order of the addresses
(`printed_segments`).  This is so whether the kernel answered all it was
asked or not: the segments are those of the modules that it answered for.
-/
import PsvEmmc.ErrorLogger.Hooks
import PsvEmmc.Qsort
import PsvEmmc.SegmentTable.Find

namespace PsvEmmc

open Filling Sorting ErrorLogger

/-! ## The programs' use of the table -/

/-- Cells that hold an element each. -/
def cellElements (α : Type) : Elements (Nat → α) α where
  view cells := cells
  swap _ cells x y := cells ∘ Equiv.swap x y
  vecswap _ cells x y r := fun k =>
    if x ≤ k ∧ k < x + r then cells (y + (k - x))
    else if y ≤ k ∧ k < y + r then cells (x + (k - y))
    else cells k
  view_swap _ _ _ _ := rfl
  view_vecswap _ cells x y r hxy := by
    refine ⟨fun k hk => ?_, fun k hk => ?_, fun k hx hy => ?_⟩
    · rw [if_pos (by omega), Nat.add_sub_cancel_left]
    · rw [if_neg (by omega), if_pos (by omega), Nat.add_sub_cancel_left]
    · rw [if_neg hx, if_neg hy]

/-- `sort_segment_table`, with the sort itself. -/
def sortTable (segListLen : Nat) (t : SegmentTable) : Option (Int × SegmentTable) :=
  if t.moduleConstructured = 0 then some (-1, t)
  else
    (qsortImp (cellElements SegmentInfo) compareSegments (segListLen + 1) ⟨0, segListLen⟩
      t.segList).map fun cells => (0, { t with segList := cells })

/-- `%s %d %08x %08x`; the name goes up to its first zero. -/
def SegmentInfo.line (e : SegmentInfo) : List Char :=
  (e.moduleName.toList.takeWhile (· ≠ 0)).map (fun b => Char.ofNat b.toNat) ++
    ' ' :: (toString e.seg.toInt).toList ++ ' ' :: hex8 e.range.start ++
    ' ' :: hex8 e.range.end_ ++ ['\n']

/-- Where the printing stops. -/
def SegmentInfo.last (e : SegmentInfo) : Bool :=
  decide (e.range.start = -1) || decide (e.range.end_ = -1)

/-- `print_segment_table`: the return value, and what it writes, a line in each bracket of the
log. -/
def printSegmentTable (segListLen : Nat) (t : SegmentTable) : Int × List (List Char) :=
  if t.moduleConstructured = 0 then (-1, [])
  else
    (0, ((t.entries segListLen).takeWhile fun e => !e.last).map fun e => e.line.take 255)

/-- The modules that the kernel answers for, up to the first that it does not. -/
def ModuleAnswers.answered {modlistLen : Nat} (k : ModuleAnswers modlistLen) : List Int32 :=
  match k.getModuleList with
  | .error _ => []
  | .ok modlist => modlist.1.takeWhile fun m => (k.getModuleInfo m).isOk

/-- Their segments. -/
def ModuleAnswers.segments {modlistLen : Nat} (k : ModuleAnswers modlistLen) :
    List PresentSegment :=
  presentSegments k.getModuleInfo k.answered

/-! ## Sorting -/

theorem compareSegments_neg_iff (x y : SegmentInfo) :
    compareSegments x y < 0 ↔ x.range.start < y.range.start := by
  rw [compareSegments]
  by_cases hlt : x.range.start < y.range.start
  · rw [if_pos hlt]
    exact iff_of_true (by decide) hlt
  · rw [if_neg hlt]
    refine iff_of_false ?_ hlt
    split_ifs <;> decide

theorem compareSegments_consistent : Consistent compareSegments where
  neg_iff x y := by
    rw [compareSegments_neg_iff, ← not_le, compareSegments_nonpos_iff, UInt32.not_le]
  trans x y z hxy hyz := by
    rw [compareSegments_nonpos_iff] at hxy hyz ⊢
    exact UInt32.le_trans hxy hyz

/-- The sort ends, and sorts the table and nothing else. -/
theorem sortTable_spec {t : SegmentTable} (hflag : t.moduleConstructured ≠ 0) (n : Nat) :
    ∃ sorted, sortTable n t = some (0, sorted) ∧
      sorted.moduleConstructured = t.moduleConstructured ∧
      (∀ j, n ≤ j → sorted.segList j = t.segList j) ∧
      (sorted.entries n).Perm (t.entries n) ∧
      (sorted.entries n).Pairwise fun x y => x.range.start ≤ y.range.start := by
  obtain ⟨cells, hcells, hrearranged, hsorted⟩ := qsortImp_sorts (cellElements SegmentInfo)
    compareSegments_consistent (n + 1) ⟨0, n⟩ t.segList (Nat.lt_succ_self n)
  change Rearranges (0 : Nat) (0 + n) t.segList cells at hrearranged
  change Ascending compareSegments (0 : Nat) (0 + n) cells at hsorted
  rw [Nat.zero_add] at hrearranged hsorted
  refine ⟨{ t with segList := cells }, ?_, rfl, fun j hj => hrearranged.outside (by omega),
    hrearranged.perm_front, hsorted.pairwise_front.imp fun h => ?_⟩
  · rw [sortTable, if_neg hflag, hcells]
    rfl
  · exact (compareSegments_nonpos_iff _ _).mp h

/-! ## Printing -/

/-- In a list in which everything behind an element of `p` is in `p`, what is in front of the
first such element is all that is not in `p`. -/
theorem takeWhile_eq_filter {α : Type*} {p : α → Bool} {xs : List α}
    (h : xs.Pairwise fun x y => p x = true → p y = true) :
    xs.takeWhile (fun x => !p x) = xs.filter fun x => !p x := by
  induction xs with
  | nil => rfl
  | cons x xs ih =>
      obtain ⟨hx, hxs⟩ := List.pairwise_cons.mp h
      rw [List.takeWhile_cons, List.filter_cons, ih hxs]
      cases hp : p x with
      | false => rfl
      | true =>
          refine (List.filter_eq_nil_iff.mpr fun y hy => ?_).symm
          rw [hx y hy hp]
          decide

theorem length_hex8 (w : UInt32) : (hex8 w).length = 8 := by
  rw [hex8, List.length_map, List.length_range]

/-- The line of a segment fits in the buffer. -/
theorem PresentSegment.line_fits (p : PresentSegment) : p.entry.line.take 255 = p.entry.line := by
  refine List.take_of_length_le ?_
  have hname : (p.entry.moduleName.toList.takeWhile (· ≠ 0)).length ≤ 30 :=
    (List.takeWhile_sublist _).length_le.trans_eq p.entry.moduleName.length_toList
  have hseg : ∀ s : Fin 4, (toString (Int32.ofNat s).toInt).toList.length = 1 := by decide
  have hone : (toString p.entry.seg.toInt).toList.length = 1 := hseg p.seg
  simp only [SegmentInfo.line, List.length_append, List.length_cons, List.length_map, length_hex8,
    List.length_nil, hone]
  omega

/-- No start and no end of a segment is the last address. -/
def PresentSegment.Inside (p : PresentSegment) : Prop :=
  p.vaddr ≠ -1 ∧ p.vaddr + p.memsz ≠ -1

theorem PresentSegment.last_entry {p : PresentSegment} (hp : p.Inside) : p.entry.last = false := by
  rw [SegmentInfo.last, entry, decide_eq_false hp.1, decide_eq_false hp.2]
  rfl

/-- What is printed of a sorted table. -/
theorem print_of_lists {t sorted : SegmentTable} {n : Nat} {ps : List PresentSegment}
    (hflag : sorted.moduleConstructured ≠ 0) (hlists : t.Lists n ps) (hps : ∀ p ∈ ps, p.Inside)
    (hperm : (sorted.entries n).Perm (t.entries n))
    (hsorted : (sorted.entries n).Pairwise fun x y => x.range.start ≤ y.range.start) :
    ∃ es : List SegmentInfo, es.Perm (ps.map PresentSegment.entry) ∧
      (es.Pairwise fun x y => x.range.start ≤ y.range.start) ∧
      printSegmentTable n sorted = (0, es.map SegmentInfo.line) := by
  obtain ⟨rest, hentries, hrest⟩ := hlists
  have hsegment : ∀ e ∈ ps.map PresentSegment.entry, e.last = false := by
    intro e he
    obtain ⟨p, hp, rfl⟩ := List.mem_map.mp he
    exact PresentSegment.last_entry (hps p hp)
  have hfiller : ∀ e ∈ rest, e.last = true := by
    intro e he
    rw [SegmentInfo.last, hrest e he]
    rfl
  have hkept : ((t.entries n).filter fun e => !e.last) = ps.map PresentSegment.entry := by
    rw [hentries, List.filter_append, List.filter_eq_self.mpr fun e he => ?_,
      List.filter_eq_nil_iff.mpr fun e he => ?_, List.append_nil]
    · rw [hfiller e he]
      decide
    · rw [hsegment e he]
      rfl
  -- A filler has the last address, so there are only fillers behind it.
  have hbehind : (sorted.entries n).Pairwise fun x y => x.last = true → y.last = true := by
    refine hsorted.imp_of_mem fun {x y} hx _ hxy hlast => ?_
    have hmem := hperm.mem_iff.mp hx
    rw [hentries, List.mem_append] at hmem
    rcases hmem with hmem | hmem
    · rw [hsegment x hmem] at hlast
      cases hlast
    · have hstart : x.range.start = -1 := by rw [hrest x hmem]
      rw [hstart] at hxy
      have hend : y.range.start = -1 := UInt32.le_antisymm (by
        rw [UInt32.le_iff_toNat_le]
        exact Nat.le_of_lt_succ y.range.start.toNat_lt) hxy
      rw [SegmentInfo.last, hend]
      rfl
  have hprinted := hperm.filter fun e => !e.last
  rw [hkept] at hprinted
  refine ⟨(sorted.entries n).filter fun e => !e.last, hprinted,
    hsorted.sublist List.filter_sublist, ?_⟩
  rw [printSegmentTable, if_neg hflag, takeWhile_eq_filter hbehind]
  refine congrArg (Prod.mk 0) (List.map_congr_left fun e he => ?_)
  obtain ⟨p, _, rfl⟩ := List.mem_map.mp (hprinted.mem_iff.mp he)
  exact p.line_fits

/-! ## From the kernel's answers to the log -/

/-- The loop over the modules fills in the segments of those that the kernel answers for. -/
theorem fillModules_answered (getModuleInfo : Int32 → Except ErrorCode KernelModuleInfo)
    (modlist : List Int32) (c : Cursor SegmentInfo) :
    (fillModules getModuleInfo modlist c).2 =
      c.putAll ((presentSegments getModuleInfo
        (modlist.takeWhile fun m => (getModuleInfo m).isOk)).map PresentSegment.entry) := by
  induction modlist generalizing c with
  | nil => rfl
  | cons m ms ih =>
      rw [fillModules, List.takeWhile_cons]
      cases hm : getModuleInfo m with
      | error ret => rfl
      | ok minfo =>
          have hok : (Except.ok minfo : Except ErrorCode KernelModuleInfo).isOk = true := rfl
          dsimp only
          rw [if_pos hok, ih, fillModule_eq, ← Cursor.putAll_append, presentSegments,
            presentSegments, List.flatMap_cons, hm, List.map_append]

/-- What a first call leaves, whatever it returns. -/
theorem constructTable_lists_answered {modlistLen : Nat} (k : ModuleAnswers modlistLen) (n : Nat)
    {t : SegmentTable} (hflag : ¬ 0 < t.moduleConstructured) (hroom : k.segments.length ≤ n) :
    (constructTable k n t).table.moduleConstructured ≠ 0 ∧
    (constructTable k n t).table.Lists n k.segments := by
  have hset : (1 : Int32) ≠ 0 := by decide
  rw [constructTable, if_neg hflag]
  cases hlist : k.getModuleList with
  | error ret =>
      have hnone : k.segments = [] := by
        rw [ModuleAnswers.segments, ModuleAnswers.answered, hlist]
        rfl
      rw [hnone]
      exact ⟨hset, lists_filled t (List.length_nil.trans_le (Nat.zero_le n)) 1⟩
  | ok modlist =>
      have hsegments : k.segments = presentSegments k.getModuleInfo
          (modlist.1.takeWhile fun m => (k.getModuleInfo m).isOk) := by
        rw [ModuleAnswers.segments, ModuleAnswers.answered, hlist]
      have hfill := fillModules_answered k.getModuleInfo modlist.1 { cells := t.blank n }
      rw [← hsegments] at hfill
      have hlists := lists_filled t hroom 1
      dsimp only
      cases hend : fillModules k.getModuleInfo modlist.1 { cells := t.blank n } with
      | mk stopped c =>
          rw [hend] at hfill
          obtain rfl : c = t.filled n k.segments := hfill
          cases stopped with
          | some ret => exact ⟨hset, hlists⟩
          | none => exact ⟨hset, (lists_terminated_iff t n _ _ 1).mpr hlists⟩

/-- **The table in the log.**  Where the segments of the modules that the kernel answered for fit
in the table, and none starts or ends at the last address, a table that is constructed, sorted by
`qsort.c` and printed for the first time shows each of them once, and nothing else, in the order of
the addresses; the memory behind the table is as the construction left it; and when the segments
are disjoint and end below `2^32` the table names for an address the segment that contains it. -/
theorem printed_segments {modlistLen : Nat} (k : ModuleAnswers modlistLen) (n : Nat)
    (t : SegmentTable) (hflag : ¬ 0 < t.moduleConstructured) (hroom : k.segments.length ≤ n)
    (hinside : ∀ p ∈ k.segments, p.Inside) :
    ∃ sorted, sortTable n (constructTable k n t).table = some (0, sorted) ∧
      (∀ j, n ≤ j → sorted.segList j = (constructTable k n t).table.segList j) ∧
      (∃ es : List SegmentInfo, es.Perm (k.segments.map PresentSegment.entry) ∧
        (es.Pairwise fun x y => x.range.start ≤ y.range.start) ∧
        printSegmentTable n sorted = (0, es.map SegmentInfo.line)) ∧
      (Separate k.segments → ∀ item e,
        sorted.entryAt (findInSegments n sorted item) = some e ↔
          ∃ p ∈ k.segments, p.Contains item ∧ e = p.entry) := by
  obtain ⟨hset, hlists⟩ := constructTable_lists_answered k n hflag hroom
  obtain ⟨sorted, hsort, hflag', hbehind, hperm, hsorted⟩ := sortTable_spec hset n
  have hset' : sorted.moduleConstructured ≠ 0 := by rwa [hflag']
  refine ⟨sorted, hsort, hbehind, print_of_lists hset' hlists hinside hperm hsorted, ?_⟩
  intro hsep item e
  rw [entryAt_find hset', find?_of_perm hlists hsep hperm]
  exact find?_eq_some_iff hlists hsep item e

/-- Two modules, the second in front of the first. -/
theorem printed_two_modules :
    ∃ sorted, sortTable 3 (constructTable twoModules 3 ⟨fun _ => SegmentInfo.filler, 0⟩).table =
        some (0, sorted) ∧
      (∀ j, 3 ≤ j → sorted.segList j =
        (constructTable twoModules 3 ⟨fun _ => SegmentInfo.filler, 0⟩).table.segList j) ∧
      (∃ es : List SegmentInfo, es.Perm (twoModules.segments.map PresentSegment.entry) ∧
        (es.Pairwise fun x y => x.range.start ≤ y.range.start) ∧
        printSegmentTable 3 sorted = (0, es.map SegmentInfo.line)) ∧
      (Separate twoModules.segments → ∀ item e,
        sorted.entryAt (findInSegments 3 sorted item) = some e ↔
          ∃ p ∈ twoModules.segments, p.Contains item ∧ e = p.entry) :=
  printed_segments twoModules 3 ⟨fun _ => SegmentInfo.filler, 0⟩ (by decide) (by decide)
    (by unfold PresentSegment.Inside; decide)

end PsvEmmc
