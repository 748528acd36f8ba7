/-
# `PsvEmmc.ErrorLogger.StackTrace` — the addresses on a stack

`stacktrace_global` looks up every word of a stack in the table of segments.
It keeps the words that lie in some segment, or in one segment that is asked
for, and writes them to the caller's memory one behind the other, with their
number.  No more words are kept than there are on the stack, so a caller's
buffer of that size is enough.

The memory of the stack and that of the addresses are separate.  The name that
is asked for is a string, and so is the name of every segment that is found:
its field ends in two zeros.
-/
import PsvEmmc.SegmentTable.Find

namespace PsvEmmc.ErrorLogger

open Filling

/-! ## The function -/

/-- The characters of a string. -/
abbrev CString := {s : List UInt8 // 0 ∉ s}

/-- The string that starts a field. -/
def fieldString {n : Nat} (field : Vector UInt8 n) : CString :=
  ⟨field.toList.takeWhile (· ≠ 0), fun h => by simpa using List.mem_takeWhile_imp h⟩

/-- What is printed for a word. -/
structure TraceLine where
  stackPtr : UInt32
  curValue : UInt32
  segment : SegmentInfo
  offset : UInt32

/-- The caller's memory with the pointer into it, the number, and the lines that are printed. -/
structure Trace where
  addresses : Cursor UInt32
  addressNum : UInt32 := 0
  lines : List TraceLine := []

/-- Keep a word that lies in `segment`. -/
def Trace.keep (r : Trace) (print : Int32) (stackPtr curValue : UInt32) (segment : SegmentInfo) :
    Trace where
  addresses := r.addresses.put curValue
  addressNum := r.addressNum + 1
  lines :=
    if print = 1 then
      r.lines ++ [⟨stackPtr, curValue, segment, curValue - segment.range.start⟩]
    else r.lines

/-- What a caller searches for. -/
structure Search where
  moduleNameSearch : CString
  segIndexSearch : Int32
  verbose : Int32

/-- The body of the loop. -/
def traceWord (t : SegmentTable) (search : Search) (print : Int32) (r : Trace)
    (stackPtr curValue : UInt32) : Trace :=
  let segidx := findInSegments segListSize t curValue
  if 0 ≤ segidx then
    let segment := t.segList segidx.toNat
    if search.verbose = 1 then r.keep print stackPtr curValue segment
    else if segment.seg = search.segIndexSearch then
      if search.moduleNameSearch = fieldString segment.moduleName then
        r.keep print stackPtr curValue segment
      else r
    else r
  else r

/-- The loop, over the words with these numbers. -/
def traceWords (t : SegmentTable) (search : Search) (print : Int32) (stackPtr : UInt32)
    (stack : Nat → UInt32) (is : List Nat) (r : Trace) : Trace :=
  is.foldl (fun r i => traceWord t search print r (stackPtr + 4 * UInt32.ofNat i) (stack i)) r

/-- `stacktrace_global`; the words of the stack are counted from `stackPtr` on. -/
def stacktraceGlobal (t : SegmentTable) (stackPtr : UInt32) (stack : Nat → UInt32)
    (search : Search) (stackSize print : Int32) (addresses : Nat → UInt32) : Int32 × Trace :=
  (0, traceWords t search print stackPtr stack (List.range stackSize.toNatClampNeg)
    { addresses := { cells := addresses } })

/-! ## The words that are wanted -/

/-- The word lies in an entry of the table, and in verbose mode in any. -/
def Wanted (t : SegmentTable) (search : Search) (word : UInt32) : Prop :=
  ∃ e ∈ t.entries segListSize, e.holds word = true ∧
    (search.verbose = 1 ∨
      e.seg = search.segIndexSearch ∧ fieldString e.moduleName = search.moduleNameSearch)

instance (t : SegmentTable) (search : Search) (word : UInt32) :
    Decidable (Wanted t search word) :=
  inferInstanceAs (Decidable (∃ e ∈ t.entries segListSize, _))

/-- No address is in the ranges of two entries. -/
def Apart (e e' : SegmentInfo) : Prop :=
  ∀ word, ¬ (e.holds word = true ∧ e'.holds word = true)

instance : Std.Symm Apart where
  symm _ _ h word hboth := h word hboth.symm

/-- The entries of a table of disjoint segments are apart. -/
theorem apart_of_lists {t : SegmentTable} {n : Nat} {ps : List PresentSegment}
    (hlists : t.Lists n ps) (hsep : Separate ps) : (t.entries n).Pairwise Apart := by
  obtain ⟨rest, hentries, hrest⟩ := hlists
  rw [hentries, List.pairwise_append]
  refine ⟨?_, ?_, ?_⟩
  · rw [List.pairwise_map]
    refine hsep.apart.imp_of_mem fun {p q} hp hq hpq word h => hpq word ?_
    exact ⟨(p.holds_entry_iff (hsep.bounded p hp) word).mp h.1,
      (q.holds_entry_iff (hsep.bounded q hq) word).mp h.2⟩
  · exact List.pairwise_of_forall_mem_list fun e _ e' he' word h =>
      not_holds_of_range (hrest e' he') word h.2
  · exact fun e _ e' he' word h => not_holds_of_range (hrest e' he') word h.2

/-- Where the ranges are disjoint, what is found is the only entry that holds the word. -/
theorem wanted_iff_of_found {t : SegmentTable}
    (hapart : (t.entries segListSize).Pairwise Apart) (search : Search) {word : UInt32}
    {e : SegmentInfo} (hfound : (t.entries segListSize).find? (SegmentInfo.holds word) = some e) :
    Wanted t search word ↔
      search.verbose = 1 ∨
        e.seg = search.segIndexSearch ∧ fieldString e.moduleName = search.moduleNameSearch := by
  have hmem := List.mem_of_find?_eq_some hfound
  have hholds := List.find?_some hfound
  constructor
  · rintro ⟨e', hmem', hholds', hsearch⟩
    have heq : e' = e := by
      by_contra hne
      exact hapart.forall hmem' hmem hne word ⟨hholds', hholds⟩
    rwa [heq] at hsearch
  · exact fun hsearch => ⟨e, hmem, hholds, hsearch⟩

/-- The body keeps a word that is wanted and passes over the others. -/
theorem traceWord_cases {t : SegmentTable} (hflag : t.moduleConstructured ≠ 0)
    (hapart : (t.entries segListSize).Pairwise Apart) (search : Search) (print : Int32)
    (r : Trace) (stackPtr word : UInt32) :
    (Wanted t search word ∧ ∃ segment,
      traceWord t search print r stackPtr word = r.keep print stackPtr word segment) ∨
    (¬ Wanted t search word ∧ traceWord t search print r stackPtr word = r) := by
  unfold traceWord
  rcases find_cases hflag segListSize word with ⟨s, hs, _, hfound⟩ | ⟨hs, hnone⟩
  · rw [wanted_iff_of_found hapart search hfound, hs]
    dsimp only
    rw [if_pos (Int.natCast_nonneg s), Int.toNat_natCast]
    by_cases hverbose : search.verbose = 1
    · rw [if_pos hverbose]
      exact Or.inl ⟨Or.inl hverbose, _, rfl⟩
    · rw [if_neg hverbose]
      by_cases hseg : (t.segList s).seg = search.segIndexSearch
      · rw [if_pos hseg]
        by_cases hname : search.moduleNameSearch = fieldString (t.segList s).moduleName
        · rw [if_pos hname]
          exact Or.inl ⟨Or.inr ⟨hseg, hname.symm⟩, _, rfl⟩
        · rw [if_neg hname]
          exact Or.inr ⟨fun h => h.elim hverbose fun h => hname h.2.symm, rfl⟩
      · rw [if_neg hseg]
        exact Or.inr ⟨fun h => h.elim hverbose fun h => hseg h.1, rfl⟩
  · rw [hs]
    refine Or.inr ⟨?_, rfl⟩
    rintro ⟨e, hmem, hholds, _⟩
    exact List.find?_eq_none.mp hnone e hmem hholds

/-! ## The whole stack -/

/-- After any of the words the memory holds those that were wanted, and their number is right. -/
theorem traceWords_kept {t : SegmentTable} (hflag : t.moduleConstructured ≠ 0)
    (hapart : (t.entries segListSize).Pairwise Apart) (search : Search) (print : Int32)
    (stackPtr : UInt32) (stack : Nat → UInt32) (is : List Nat) (r : Trace) :
    (traceWords t search print stackPtr stack is r).addresses =
      r.addresses.putAll ((is.map stack).filter (Wanted t search)) ∧
    (traceWords t search print stackPtr stack is r).addressNum =
      r.addressNum + UInt32.ofNat ((is.map stack).filter (Wanted t search)).length := by
  induction is generalizing r with
  | nil => exact ⟨rfl, (UInt32.add_zero _).symm⟩
  | cons i is ih =>
      rw [traceWords, List.foldl_cons, ← traceWords]
      rcases traceWord_cases hflag hapart search print r (stackPtr + 4 * UInt32.ofNat i)
        (stack i) with ⟨hwanted, segment, hword⟩ | ⟨hnot, hword⟩
      · have hkept : ((i :: is).map stack).filter (Wanted t search) =
            stack i :: (is.map stack).filter (Wanted t search) :=
          List.filter_cons_of_pos (decide_eq_true hwanted)
        obtain ⟨haddresses, hnum⟩ := ih (r.keep print _ (stack i) segment)
        rw [hword, hkept]
        refine ⟨haddresses, hnum.trans ?_⟩
        rw [List.length_cons, UInt32.ofNat_add, UInt32.add_comm (UInt32.ofNat _),
          ← UInt32.add_assoc]
        rfl
      · have hkept : ((i :: is).map stack).filter (Wanted t search) =
            (is.map stack).filter (Wanted t search) :=
          List.filter_cons_of_neg (by rwa [decide_eq_true_iff])
        rw [hword, hkept]
        exact ih r

/-- **The addresses on a stack.**  What is written is the wanted words in the order of the stack,
their number is right and no greater than the size of the stack, and the memory behind them is
what it was. -/
theorem stacktrace_addresses (t : SegmentTable) (hflag : t.moduleConstructured ≠ 0)
    (hapart : (t.entries segListSize).Pairwise Apart) (stackPtr : UInt32) (stack : Nat → UInt32)
    (search : Search) (stackSize print : Int32) (addresses : Nat → UInt32) :
    let r := (stacktraceGlobal t stackPtr stack search stackSize print addresses).2
    let words := (List.range stackSize.toNatClampNeg).map stack
    r.addressNum.toNat ≤ stackSize.toNatClampNeg ∧
    front r.addresses.cells r.addressNum.toNat = words.filter (Wanted t search) ∧
    ∀ j, r.addressNum.toNat ≤ j → r.addresses.cells j = addresses j := by
  intro r words
  obtain ⟨haddresses, hnum⟩ : r.addresses = _ ∧ r.addressNum = _ :=
    traceWords_kept hflag hapart search print stackPtr stack
      (List.range stackSize.toNatClampNeg) { addresses := { cells := addresses } }
  have hle : (words.filter (Wanted t search)).length ≤ stackSize.toNatClampNeg :=
    calc (words.filter (Wanted t search)).length ≤ words.length := List.length_filter_le _ _
      _ = stackSize.toNatClampNeg := by rw [List.length_map, List.length_range]
  have hcount : r.addressNum.toNat = (words.filter (Wanted t search)).length := by
    have hsmall := stackSize.toNatClampNeg_lt
    rw [hnum, UInt32.zero_add, UInt32.toNat_ofNat_of_lt']
    exact lt_of_le_of_lt hle (hsmall.trans (by decide))
  have hcell : ∀ j,
      r.addresses.cells j = (words.filter (Wanted t search)).getD j (addresses j) := by
    intro j
    have hput := Cursor.cells_putAll { cells := addresses } (words.filter (Wanted t search)) j
    rw [Nat.zero_add] at hput
    rw [haddresses]
    exact hput
  refine ⟨hcount ▸ hle, ?_, fun j hj => ?_⟩
  · rw [hcount, front_congr fun j _ => hcell j, front_getD]
  · rw [hcell, List.getD_eq_default _ _ (hcount ▸ hj)]

/-- The trace of an allocation. -/
theorem trace_of_allocation :
    let t := (constructTable twoModules segListSize ⟨fun _ => SegmentInfo.filler, 0⟩).table
    let stack : Nat → UInt32 := fun i => 0x2000 + UInt32.ofNat i
    let search : Search := ⟨⟨[], List.not_mem_nil⟩, 0, 1⟩
    let r := (stacktraceGlobal t 0x1000 stack search 20 0 (fun _ => 0)).2
    r.addressNum.toNat ≤ 20 ∧
    front r.addresses.cells r.addressNum.toNat =
      ((List.range 20).map stack).filter (Wanted t search) := by
  obtain ⟨hflag, hlists⟩ := constructTable_lists (k := twoModules) (n := segListSize)
    (t := ⟨fun _ => SegmentInfo.filler, 0⟩) (by decide) rfl rfl (by decide)
  obtain ⟨hle, hfront, _⟩ := stacktrace_addresses _ (by rw [hflag]; decide)
    (apart_of_lists hlists twoModules_separate) 0x1000 (fun i => 0x2000 + UInt32.ofNat i)
    ⟨⟨[], List.not_mem_nil⟩, 0, 1⟩ 20 0 (fun _ => 0)
  exact ⟨hle, hfront⟩

end PsvEmmc.ErrorLogger
