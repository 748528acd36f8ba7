/-
# `PsvEmmc.SegmentTable.Contents` — what is in the table, and what was written for it

A call that succeeds leaves the entries of the present segments and fillers
behind them (`entries_filled`).  Whose segments these are depends on whom the
kernel was asked about: the driver takes the list of modules of the process
it is told, and the information on each from the kernel's own process
(`table_of_process_iff`).

The index that an entry is written to is the number of segments in front of
it, and the final item comes behind the last one.  A table has four entries
for each module of a full list, so when the list is full of modules with all
their segments the final item is written behind the table
(`writes_in_bounds_iff`).
-/
import PsvEmmc.SegmentTable

namespace PsvEmmc

open Filling

/-! ## The entries -/

theorem nameField_injective : Function.Injective nameField :=
  fun _ _ h => Vector.append_inj_left h

/-- A segment's entry names that segment only. -/
theorem PresentSegment.entry_injective : Function.Injective PresentSegment.entry := by
  rintro ⟨name, s, vaddr, memsz⟩ ⟨name', s', vaddr', memsz'⟩ h
  simp only [entry, SegmentInfo.mk.injEq, RangePair.mk.injEq] at h
  obtain ⟨hname, hseg, rfl, hend⟩ := h
  have hsegs : ∀ a b : Fin 4, Int32.ofNat a = Int32.ofNat b → a = b := by decide
  rw [nameField_injective hname, hsegs _ _ hseg, (UInt32.add_right_inj vaddr).mp hend]

/-- The number of a segment is not that of a filler. -/
theorem PresentSegment.entry_ne_filler (p : PresentSegment) : p.entry ≠ SegmentInfo.filler := by
  have hseg : ∀ a : Fin 4, Int32.ofNat a ≠ -1 := by decide
  exact fun h => hseg p.seg (congrArg SegmentInfo.seg h)

/-- Neither start nor end is in the way of an address: the range of a filler. -/
theorem PresentSegment.range_entry_iff (p : PresentSegment) :
    p.entry.range = ⟨-1, -1⟩ ↔ p.vaddr = -1 ∧ p.memsz = 0 := by
  rw [entry, RangePair.mk.injEq]
  refine and_congr_right fun hstart => ?_
  rw [hstart]
  exact UInt32.add_eq_left

/-- A table that was filled: the entries that fit, and fillers. -/
theorem entries_filled (t : SegmentTable) (n : Nat) (ps : List PresentSegment) (flag : Int32) :
    (SegmentTable.mk (t.filled n ps).cells flag).entries n =
      (ps.take n).map PresentSegment.entry ++
        List.replicate (n - ps.length) SegmentInfo.filler := by
  have hblank : (List.range' ps.length (n - ps.length)).map (t.blank n) =
      List.replicate (n - ps.length) SegmentInfo.filler := by
    refine List.eq_replicate_iff.mpr ⟨by simp, fun e he => ?_⟩
    obtain ⟨i, hi, rfl⟩ := List.mem_map.mp he
    obtain ⟨hle, hlt⟩ := List.mem_range'_1.mp hi
    exact if_pos (by omega)
  rw [SegmentTable.entries, SegmentTable.filled, front_putAll, List.length_map, hblank,
    List.map_take]

/-- The final item does not change a table that has room for it. -/
theorem entries_terminated (t : SegmentTable) (n : Nat) (ps : List PresentSegment)
    (flag : Int32) :
    (SegmentTable.mk (Cursor.terminated (t.filled n ps)).cells flag).entries n =
      (SegmentTable.mk (t.filled n ps).cells flag).entries n := by
  refine front_congr fun j hj => ?_
  have hindex : (t.filled n ps).index = ps.length := by
    rw [SegmentTable.filled, Cursor.index_putAll, Nat.zero_add, List.length_map]
  by_cases hlast : j = (t.filled n ps).index
  · -- The cell holds a filler, whose range is set already.
    have hcell : (t.filled n ps).cells j = SegmentInfo.filler := by
      have hput := Cursor.cells_putAll { cells := t.blank n } (ps.map PresentSegment.entry) j
      rw [Nat.zero_add, List.getD_eq_default _ _ (by rw [List.length_map, hlast, hindex])] at hput
      rw [SegmentTable.filled, hput]
      exact if_pos hj
    show Function.update (t.filled n ps).cells (t.filled n ps).index _ j = _
    rw [← hlast, Function.update_self, hcell]
    exact hcell.symm
  · exact Function.update_of_ne hlast _ _

/-- The indices that were written. -/
theorem writes_filled (t : SegmentTable) (n : Nat) (ps : List PresentSegment) :
    (t.filled n ps).writes = List.range' 0 ps.length := by
  rw [SegmentTable.filled, Cursor.writes_putAll, List.length_map]
  rfl

theorem writes_terminated (t : SegmentTable) (n : Nat) (ps : List PresentSegment) :
    (Cursor.terminated (t.filled n ps)).writes = List.range' 0 (ps.length + 1) := by
  have hindex : (t.filled n ps).index = ps.length := by
    rw [SegmentTable.filled, Cursor.index_putAll, Nat.zero_add, List.length_map]
  show (t.filled n ps).writes ++ [(t.filled n ps).index] = _
  rw [writes_filled, hindex, List.range'_concat, Nat.one_mul, Nat.zero_add]

/-! ## Whose segments? -/

theorem ErrorCode.ne_zero (ret : ErrorCode) : ret.1 ≠ 0 :=
  Int32.ne_of_lt ret.2

/-- The table lists these segments, and nothing but the ranges of fillers behind them. -/
def SegmentTable.Lists (t : SegmentTable) (segListLen : Nat) (ps : List PresentSegment) : Prop :=
  ∃ rest, t.entries segListLen = ps.map PresentSegment.entry ++ rest ∧
    ∀ e ∈ rest, e.range = ⟨-1, -1⟩

theorem lists_terminated_iff (t : SegmentTable) (n : Nat) (ps qs : List PresentSegment)
    (flag : Int32) :
    (SegmentTable.mk (Cursor.terminated (t.filled n qs)).cells flag).Lists n ps ↔
      (SegmentTable.mk (t.filled n qs).cells flag).Lists n ps := by
  rw [SegmentTable.Lists, entries_terminated]
  rfl

/-- A table with room for the segments lists them. -/
theorem lists_filled (t : SegmentTable) {n : Nat} {ps : List PresentSegment}
    (hps : ps.length ≤ n) (flag : Int32) :
    (SegmentTable.mk (t.filled n ps).cells flag).Lists n ps := by
  refine ⟨List.replicate (n - ps.length) SegmentInfo.filler, ?_, fun e he => ?_⟩
  · rw [entries_filled, List.take_of_length_le hps]
  · rw [List.eq_of_mem_replicate he]
    rfl

/-- A table filled with the segments `qs` lists `ps` exactly when these are `qs`, apart from
segments of `qs` behind them that look like fillers. -/
theorem lists_filled_iff (t : SegmentTable) {n : Nat} {ps : List PresentSegment}
    (hps : ps.length < n) (qs : List PresentSegment) (flag : Int32) :
    (SegmentTable.mk (t.filled n qs).cells flag).Lists n ps ↔
      ∃ rest, qs.take n = ps ++ rest ∧ ∀ p ∈ rest, p.vaddr = -1 ∧ p.memsz = 0 := by
  rw [SegmentTable.Lists, entries_filled]
  constructor
  · rintro ⟨rest, hsplit, hrest⟩
    rcases List.append_eq_append_iff.mp hsplit with ⟨xs, hxs, hfillers⟩ | ⟨xs, hxs, rfl⟩
    · -- What is left of `ps` would be fillers.
      have hnil : xs = [] := by
        refine List.eq_nil_iff_forall_not_mem.mpr fun x hx => ?_
        have hfiller : x = SegmentInfo.filler := by
          have hrep := List.mem_append_left rest hx
          rw [← hfillers] at hrep
          exact List.eq_of_mem_replicate hrep
        have hmem : x ∈ ps.map PresentSegment.entry := by
          rw [hxs]
          exact List.mem_append_right _ hx
        obtain ⟨p, _, hp⟩ := List.mem_map.mp hmem
        exact p.entry_ne_filler (hp.trans hfiller)
      rw [hnil, List.append_nil] at hxs
      refine ⟨[], ?_, fun p hp => absurd hp List.not_mem_nil⟩
      rw [List.append_nil]
      exact (List.map_injective_iff.mpr PresentSegment.entry_injective hxs).symm
    · obtain ⟨ps', rest', hqs, hps', rfl⟩ := List.map_eq_append_iff.mp hxs
      obtain rfl := List.map_injective_iff.mpr PresentSegment.entry_injective hps'
      refine ⟨rest', hqs, fun p hp => ?_⟩
      rw [← p.range_entry_iff]
      exact hrest _ (List.mem_append_left _ (List.mem_map_of_mem hp))
  · rintro ⟨rest, hqs, hrest⟩
    refine ⟨rest.map PresentSegment.entry ++
      List.replicate (n - qs.length) SegmentInfo.filler, ?_, ?_⟩
    · rw [hqs, List.map_append, List.append_assoc]
    · refine List.forall_mem_append.mpr ⟨fun e he => ?_, fun e he => ?_⟩
      · obtain ⟨p, hp, rfl⟩ := List.mem_map.mp he
        exact p.range_entry_iff.mpr (hrest p hp)
      · rw [List.eq_of_mem_replicate he]
        rfl

/-- A call that builds the table and returns `0` has filled in all segments. -/
theorem constructTable_of_ret_zero {modlistLen n : Nat} {k : ModuleAnswers modlistLen}
    {modlist : ModuleList modlistLen} {t : SegmentTable} (hflag : ¬ 0 < t.moduleConstructured)
    (hlist : k.getModuleList = .ok modlist) (hret : (constructTable k n t).ret = 0) :
    AllKnown k.getModuleInfo modlist ∧
    constructTable k n t = .ofCursor 0
      (Cursor.terminated (t.filled n (presentSegments k.getModuleInfo modlist))) := by
  rcases constructTable_cases k n t with
    ⟨hflag', _⟩ | ⟨_, ⟨ret, _, hcall⟩ | ⟨modlist', hlist', ⟨hall, hcall⟩ |
      ⟨done, m, rest, ret, _, _, hcall⟩⟩⟩
  · exact absurd hflag' hflag
  · rw [hcall] at hret
    exact absurd hret (ErrorCode.ne_zero ret)
  · cases hlist.symm.trans hlist'
    exact ⟨hall, hcall⟩
  · rw [hcall] at hret
    exact absurd hret (ErrorCode.ne_zero ret)

/-- If there is room for the segments, the table lists them. -/
theorem constructTable_lists {modlistLen n : Nat} {k : ModuleAnswers modlistLen}
    {modlist : ModuleList modlistLen} {t : SegmentTable} (hflag : ¬ 0 < t.moduleConstructured)
    (hlist : k.getModuleList = .ok modlist) (hret : (constructTable k n t).ret = 0)
    (hroom : (presentSegments k.getModuleInfo modlist).length ≤ n) :
    (constructTable k n t).table.moduleConstructured = 1 ∧
    (constructTable k n t).table.Lists n (presentSegments k.getModuleInfo modlist) := by
  rw [(constructTable_of_ret_zero hflag hlist hret).2, Construction.ofCursor]
  exact ⟨rfl, (lists_terminated_iff t n _ _ 1).mpr (lists_filled t hroom 1)⟩

/-- **Whose segments are in the table?**  When the driver has built a table of the modules of
`pid`, it lists their segments exactly when the kernel reports the same segments of these modules
for its own process (apart from segments behind them that start at the last address and are
empty). -/
theorem table_of_process_iff (k : ModuleKernel) (pid flags1 flags2 : Int32)
    (modlistLen segListLen : Nat) (t : SegmentTable) (modlist : ModuleList modlistLen)
    (hflag : ¬ 0 < t.moduleConstructured)
    (hlist : k.getModuleList pid flags1 flags2 modlistLen = .ok modlist)
    (hfew : (presentSegments (k.getModuleInfo pid) modlist).length < segListLen)
    (hret : (constructModuleRangeTable k pid flags1 flags2 modlistLen segListLen t).ret = 0) :
    (constructModuleRangeTable k pid flags1 flags2 modlistLen segListLen t).table.Lists segListLen
        (presentSegments (k.getModuleInfo pid) modlist) ↔
      ∃ rest, (presentSegments (k.getModuleInfo kernelPid) modlist).take segListLen =
          presentSegments (k.getModuleInfo pid) modlist ++ rest ∧
        ∀ p ∈ rest, p.vaddr = -1 ∧ p.memsz = 0 := by
  obtain ⟨_, hcall⟩ := constructTable_of_ret_zero (k := k.answers pid flags1 flags2 modlistLen)
    hflag hlist hret
  rw [constructModuleRangeTable, hcall, ← lists_filled_iff t hfew _ 1, ← lists_terminated_iff]
  rfl

/-- A kernel with a module that lies at one address in process `1` and at another in its own. -/
def relocatingKernel : ModuleKernel where
  getModuleList _ _ _ modlistLen := .ok ⟨[7].take modlistLen, List.length_take_le _ _⟩
  getModuleInfo pid _ :=
    let vaddr := if pid = kernelPid then 0x1000 else 0x81000000
    .ok ⟨Vector.replicate 28 0x61, #v[⟨vaddr, 0x100⟩, ⟨0, 0⟩, ⟨0, 0⟩, ⟨0, 0⟩]⟩

/-- The kernel's own table is right. -/
theorem table_of_kernel_lists :
    (constructModuleRangeTable relocatingKernel kernelPid 0 1 1 4
      ⟨fun _ => SegmentInfo.filler, 0⟩).table.Lists 4
        (presentSegments (relocatingKernel.getModuleInfo kernelPid) [7]) :=
  (table_of_process_iff relocatingKernel kernelPid 0 1 1 4 ⟨fun _ => SegmentInfo.filler, 0⟩
    ⟨[7], le_refl 1⟩ (by decide) rfl (by decide) rfl).mpr
      ⟨[], rfl, fun _ h => absurd h List.not_mem_nil⟩

/-- The table of process `1` holds the kernel's address of the module. -/
theorem table_of_process_wrong :
    (constructModuleRangeTable relocatingKernel 1 0 1 1 4
      ⟨fun _ => SegmentInfo.filler, 0⟩).ret = 0 ∧
    ¬ (constructModuleRangeTable relocatingKernel 1 0 1 1 4
      ⟨fun _ => SegmentInfo.filler, 0⟩).table.Lists 4
        (presentSegments (relocatingKernel.getModuleInfo 1) [7]) := by
  refine ⟨rfl, ?_⟩
  rintro ⟨rest, hsplit, _⟩
  have hstart : some (0x1000 : UInt32) = some 0x81000000 :=
    congrArg (fun es => es.head?.map fun e => e.range.start) hsplit
  exact absurd hstart (by decide)

/-! ## Where is it written? -/

/-- The kernel lists as many modules as there is room for, and each has all its segments. -/
def ModuleAnswers.Full {modlistLen : Nat} (k : ModuleAnswers modlistLen) : Prop :=
  ∃ modlist, k.getModuleList = .ok modlist ∧ modlist.1.length = modlistLen ∧
    ∀ m ∈ modlist.1, ∃ minfo, k.getModuleInfo m = .ok minfo ∧
      ∀ s, (minfo.segments.get s).vaddr ≠ 0

theorem KernelModuleInfo.length_present_iff (minfo : KernelModuleInfo) :
    minfo.present.length = 4 ↔ ∀ s, (minfo.segments.get s).vaddr ≠ 0 := by
  have hlength := @List.filterMap_length_eq_length _ _ (fun s : Fin 4 =>
    if (minfo.segments.get s).vaddr = 0 then none
    else some (PresentSegment.mk minfo.moduleName s (minfo.segments.get s).vaddr
      (minfo.segments.get s).memsz)) (List.finRange 4)
  rw [List.length_finRange] at hlength
  rw [present, hlength]
  constructor
  · intro h s hnull
    have := h s (List.mem_finRange s)
    rw [if_pos hnull] at this
    exact Bool.false_ne_true this
  · intro h s _
    rw [if_neg (h s)]
    rfl

/-- A module has four segments at most, so the modules have four each exactly when there are four
times as many segments. -/
theorem length_presentSegments (getModuleInfo : Int32 → Except ErrorCode KernelModuleInfo)
    (modlist : List Int32) :
    (presentSegments getModuleInfo modlist).length ≤ 4 * modlist.length ∧
    ((presentSegments getModuleInfo modlist).length = 4 * modlist.length ↔
      ∀ m ∈ modlist, ∃ minfo, getModuleInfo m = .ok minfo ∧
        ∀ s, (minfo.segments.get s).vaddr ≠ 0) := by
  induction modlist with
  | nil => exact ⟨le_refl 0, fun _ m hm => absurd hm List.not_mem_nil, fun _ => rfl⟩
  | cons m ms ih =>
      obtain ⟨hle, heq⟩ := ih
      rw [presentSegments, List.flatMap_cons, List.length_append, List.length_cons,
        ← presentSegments, List.forall_mem_cons, ← heq]
      cases hm : getModuleInfo m with
      | error ret =>
          refine ⟨by simp only [List.length_nil]; omega, ?_⟩
          constructor
          · intro h
            simp only [List.length_nil] at h
            omega
          · rintro ⟨⟨minfo, hinfo, _⟩, _⟩
            cases hinfo
      | ok minfo =>
          have hfour := minfo.length_present_le
          have hall : (∃ minfo', Except.ok (ε := ErrorCode) minfo = .ok minfo' ∧
              ∀ s, (minfo'.segments.get s).vaddr ≠ 0) ↔ minfo.present.length = 4 := by
            rw [minfo.length_present_iff]
            constructor
            · rintro ⟨_, ⟨⟩, h⟩
              exact h
            · exact fun h => ⟨minfo, rfl, h⟩
          rw [hall]
          dsimp only
          omega

/-- Four entries for each module are enough except for the final item behind a full table. -/
theorem writes_lt_iff {modlistLen : Nat} (k : ModuleAnswers modlistLen) (t : SegmentTable) :
    (∀ i ∈ (constructTable k (modlistLen * 4) t).writes, i < modlistLen * 4) ↔
      0 < t.moduleConstructured ∨ ¬ k.Full := by
  rcases constructTable_cases k (modlistLen * 4) t with
    ⟨hflag, hcall⟩ | ⟨hflag, ⟨ret, hlist, hcall⟩ | ⟨modlist, hlist, ⟨_, hcall⟩ |
      ⟨done, m, rest, ret, hsplit, herr, hcall⟩⟩⟩
  · rw [hcall]
    exact iff_of_true (fun i hi => absurd hi List.not_mem_nil) (Or.inl hflag)
  · rw [hcall]
    refine iff_of_true (fun i hi => absurd hi List.not_mem_nil) (Or.inr ?_)
    rintro ⟨modlist, hlist', _⟩
    cases hlist.symm.trans hlist'
  · -- All segments were written, and the final item behind them.
    obtain ⟨hle, heq⟩ := length_presentSegments k.getModuleInfo modlist
    have hroom := modlist.2
    rw [hcall, Construction.ofCursor, writes_terminated, range'_lt_iff]
    constructor
    · refine fun h => Or.inr ?_
      rintro ⟨modlist', hlist', hlen, hall⟩
      cases hlist.symm.trans hlist'
      have := heq.mpr hall
      omega
    · rintro (h | hfull)
      · exact absurd h hflag
      · by_contra hlt
        exact hfull ⟨modlist, hlist, by omega, heq.mp (by omega)⟩
  · -- The modules that were written are not all of the list.
    have hle := (length_presentSegments k.getModuleInfo done).1
    have hroom := modlist.2
    rw [hsplit, List.length_append, List.length_cons] at hroom
    rw [hcall, Construction.ofCursor, writes_filled, range'_lt_iff]
    refine iff_of_true (by omega) (Or.inr ?_)
    rintro ⟨modlist', hlist', _, hall⟩
    cases hlist.symm.trans hlist'
    obtain ⟨minfo, hinfo, _⟩ := hall m (hsplit ▸ List.mem_append_right _ (List.mem_cons_self ..))
    cases herr.symm.trans hinfo

/-- **Are all writes inside the table?**  They are, in both programs, unless a table that was not
constructed before is filled from a full list of modules with all their segments. -/
theorem writes_in_bounds_iff (t : SegmentTable) :
    (∀ (k : ModuleKernel) (pid flags1 flags2 : Int32),
      (∀ i ∈ (constructModuleRangeTable k pid flags1 flags2 modListSize segListSize t).writes,
        i < segListSize) ↔
      0 < t.moduleConstructured ∨ ¬ (k.answers pid flags1 flags2 modListSize).Full) ∧
    ∀ k : ErrorLogger.UserKernel,
      (∀ i ∈ (ErrorLogger.constructModuleRangeTable k t).writes, i < segListSize) ↔
      0 < t.moduleConstructured ∨ ¬ k.answers.Full :=
  ⟨fun k pid flags1 flags2 => writes_lt_iff (k.answers pid flags1 flags2 modListSize) t,
    fun k => writes_lt_iff k.answers t⟩

/-- A kernel with a full list of modules that have all their segments. -/
def fullKernel : ErrorLogger.UserKernel where
  getModuleList _ modlistLen := .ok ⟨List.replicate modlistLen 1, (List.length_replicate ..).le⟩
  getModuleInfo _ := .ok ⟨Vector.replicate 28 0x61, Vector.replicate 4 ⟨0x81000000, 0x100⟩⟩

theorem fullKernel_full : fullKernel.answers.Full := by
  refine ⟨_, rfl, List.length_replicate .., fun m _ => ⟨_, rfl, fun s => ?_⟩⟩
  rw [Vector.get_replicate]
  decide

/-- The final item is written behind the table. -/
theorem final_item_out_of_bounds :
    ¬ ∀ i ∈ (ErrorLogger.constructModuleRangeTable fullKernel
      ⟨fun _ => SegmentInfo.filler, 0⟩).writes, i < segListSize := by
  intro h
  rcases (writes_lt_iff fullKernel.answers ⟨fun _ => SegmentInfo.filler, 0⟩).mp h with h | h
  · exact absurd h (by decide)
  · exact h fullKernel_full

end PsvEmmc
