/-
# `PsvEmmc.Driver.StackTrace` — who called a hook

A hook of the driver finds its callers in the words on its stack: a word that
lies in a segment of a module is taken for a return address, and a line of the
log tells the module.  `stacktrace_from_here_global` and
`stacktrace_from_here_sd` are one function for two logs, over the table that
`module_start` has constructed and sorted.

The test for the end of the stack is commented out, so the function reads as
many words as it is asked for and as `SceKernelThreadInfo` has, whether the
stack has them or not.  When it has, the log shows for each of them the wanted
segment that contains it, whatever the kernel answered when the table was made
(`stacktrace_logs`).
-/
import PsvEmmc.Driver.Log
import PsvEmmc.ErrorLogger.StackTrace
import PsvEmmc.SegmentTable.Sorted

namespace PsvEmmc

open Filling ErrorLogger

/-! ## The function -/

def LogFile.label : LogFile → String
  | .global => "(global) "
  | .sdstorDevFs => "(sd) "

/-- `%08x: %08x %s %d %08x %08x` behind the label. -/
def traceText (f : LogFile) (stackPtr curValue : UInt32) (e : SegmentInfo) : List Char :=
  f.label.toList ++ hex8 stackPtr ++ ':' :: ' ' :: hex8 curValue ++
    ' ' :: (e.moduleName.toList.takeWhile (· ≠ 0)).map (fun b => Char.ofNat b.toNat) ++
    ' ' :: (toString e.seg.toInt).toList ++ ' ' :: hex8 e.range.start ++
    ' ' :: hex8 (curValue - e.range.start) ++ ['\n']

/-- The body of the loop, with the line that it writes. -/
def traceFromWord (f : LogFile) (t : SegmentTable) (search : Search)
    (stackPtr curValue : UInt32) : Option (List Char) :=
  let segidx := findInSegments segListSize t curValue
  if 0 ≤ segidx then
    let segment := t.segList segidx.toNat
    let line := (traceText f stackPtr curValue segment).take 255
    if search.verbose = 1 then some line
    else if segment.seg = search.segIndexSearch then
      if search.moduleNameSearch = fieldString segment.moduleName then some line else none
    else none
  else none

/-- The loop, over the words from `stackPtr` on up to the end of the stack; there is no result
when it reads behind the end. -/
def traceLoop (f : LogFile) (t : SegmentTable) (search : Search) :
    Nat → UInt32 → List UInt32 → Option (List (List Char))
  | 0, _, _ => some []
  | _ + 1, _, [] => none
  | rounds + 1, stackPtr, curValue :: stack =>
      (traceLoop f t search rounds (stackPtr + 4) stack).map fun lines =>
        (traceFromWord f t search stackPtr curValue).toList ++ lines

/-- `stackSize + sizeof(SceKernelThreadInfo) / 4`; the sum is one of unsigned numbers. -/
def traceSize (stackSize : Int32) (threadInfoSize : UInt32) : Int32 :=
  (stackSize.toUInt32 + threadInfoSize / 4).toInt32

/-- `stacktrace_from_here_global` and `stacktrace_from_here_sd`, with the lines they write. -/
def stacktraceFromHere (f : LogFile) (t : SegmentTable) (threadInfoSize : UInt32)
    (search : Search) (stackSize : Int32) (stackPtr : UInt32) (stack : List UInt32) :
    Option (Int32 × List (List Char)) :=
  (traceLoop f t search (traceSize stackSize threadInfoSize).toNatClampNeg stackPtr stack).map
    fun lines => (0, lines)

/-- The table of the kernel's segments, as `module_start` leaves it. -/
def kernelTable (k : ModuleKernel) (t : SegmentTable) : Option (Int × SegmentTable) :=
  sortTable segListSize
    (constructModuleRangeTable k kernelPid 0x80000001 1 modListSize segListSize t).table

/-- What the kernel answers when the table is constructed. -/
def ModuleKernel.kernelSegments (k : ModuleKernel) : List PresentSegment :=
  (k.answers kernelPid 0x80000001 1 modListSize).segments

/-! ## What the log should show -/

instance (p : PresentSegment) (item : UInt32) : Decidable (p.Contains item) :=
  inferInstanceAs (Decidable (_ ∧ _))

/-- The segment is asked for. -/
def PresentSegment.Wanted (search : Search) (p : PresentSegment) : Prop :=
  search.verbose = 1 ∨
    p.entry.seg = search.segIndexSearch ∧ search.moduleNameSearch = fieldString p.entry.moduleName

instance (search : Search) (p : PresentSegment) : Decidable (p.Wanted search) :=
  inferInstanceAs (Decidable (_ ∨ _))

/-- A line for each wanted segment that contains the word. -/
def linesFor (f : LogFile) (ps : List PresentSegment) (search : Search)
    (stackPtr curValue : UInt32) : List (List Char) :=
  (ps.filter fun p => p.Contains curValue ∧ p.Wanted search).map fun p =>
    traceText f stackPtr curValue p.entry

/-- The lines for the words of a stack. -/
def traceLines (f : LogFile) (ps : List PresentSegment) (search : Search) (stackPtr : UInt32)
    (words : List UInt32) : List (List Char) :=
  words.zipIdx.flatMap fun (curValue, i) =>
    linesFor f ps search (stackPtr + 4 * UInt32.ofNat i) curValue

/-! ## One word -/

theorem traceText_fits (f : LogFile) (stackPtr curValue : UInt32) (p : PresentSegment) :
    (traceText f stackPtr curValue p.entry).take 255 = traceText f stackPtr curValue p.entry := by
  refine List.take_of_length_le ?_
  have hlabel : f.label.toList.length ≤ 9 := by cases f <;> decide
  have hname : (p.entry.moduleName.toList.takeWhile (· ≠ 0)).length ≤ 30 :=
    (List.takeWhile_sublist _).length_le.trans_eq p.entry.moduleName.length_toList
  have hseg : ∀ s : Fin 4, (toString (Int32.ofNat s).toInt).toList.length = 1 := by decide
  have hone : (toString p.entry.seg.toInt).toList.length = 1 := hseg p.seg
  simp only [traceText, List.length_append, List.length_cons, List.length_map, length_hex8,
    List.length_nil, hone]
  omega

/-- Among disjoint segments only one contains an address. -/
theorem Separate.filter_contains {ps : List PresentSegment} (hsep : Separate ps)
    {p : PresentSegment} (hp : p ∈ ps) {item : UInt32} (hcontains : p.Contains item) :
    (ps.filter fun q => q.Contains item) = [p] := by
  obtain ⟨front, back, rfl⟩ := List.append_of_mem hp
  obtain ⟨-, hback, hfront⟩ := List.pairwise_append.mp hsep.apart
  have hnone : ∀ q, q ∈ front ∨ q ∈ back → ¬ q.Contains item := by
    rintro q (hq | hq) hqi
    · exact hfront q hq p List.mem_cons_self item ⟨hqi, hcontains⟩
    · exact (List.pairwise_cons.mp hback).1 q hq item ⟨hcontains, hqi⟩
  rw [List.filter_append, List.filter_cons, if_pos (decide_eq_true hcontains),
    List.filter_eq_nil_iff.mpr fun q hq => by simpa using hnone q (Or.inl hq),
    List.filter_eq_nil_iff.mpr fun q hq => by simpa using hnone q (Or.inr hq), List.nil_append]

/-- The body writes the line that there should be. -/
theorem traceFromWord_eq {f : LogFile} {t : SegmentTable} {ps : List PresentSegment}
    (hsep : Separate ps)
    (hfind : ∀ item e, t.entryAt (findInSegments segListSize t item) = some e ↔
      ∃ p ∈ ps, p.Contains item ∧ e = p.entry) (search : Search) (stackPtr word : UInt32) :
    (traceFromWord f t search stackPtr word).toList = linesFor f ps search stackPtr word := by
  have hentry := hfind word
  rw [SegmentTable.entryAt] at hentry
  have hfilter : (ps.filter fun p => p.Contains word ∧ p.Wanted search) =
      (ps.filter fun p => p.Contains word).filter fun p => p.Wanted search := by
    rw [List.filter_filter]
    refine List.filter_congr fun p _ => ?_
    rw [Bool.and_comm, Bool.decide_and]
  rw [linesFor, hfilter]
  unfold traceFromWord
  by_cases hfound : 0 ≤ findInSegments segListSize t word
  · obtain ⟨p, hp, hcontains, he⟩ := (hentry _).mp (if_pos hfound)
    dsimp only
    rw [if_pos hfound, he, traceText_fits, hsep.filter_contains hp hcontains, List.filter_singleton]
    by_cases hverbose : search.verbose = 1
    · have hwanted : p.Wanted search := Or.inl hverbose
      rw [if_pos hverbose, decide_eq_true hwanted]
      rfl
    · rw [if_neg hverbose]
      by_cases hseg : p.entry.seg = search.segIndexSearch
      · rw [if_pos hseg]
        by_cases hname : search.moduleNameSearch = fieldString p.entry.moduleName
        · have hwanted : p.Wanted search := Or.inr ⟨hseg, hname⟩
          rw [if_pos hname, decide_eq_true hwanted]
          rfl
        · have hnot : ¬ p.Wanted search := fun h => h.elim hverbose fun h => hname h.2
          rw [if_neg hname, decide_eq_false hnot]
          rfl
      · have hnot : ¬ p.Wanted search := fun h => h.elim hverbose fun h => hseg h.1
        rw [if_neg hseg, decide_eq_false hnot]
        rfl
  · have hnone : (ps.filter fun p => p.Contains word) = [] := by
      refine List.filter_eq_nil_iff.mpr fun p hp => ?_
      rw [decide_eq_true_iff]
      intro hcontains
      have hsome := (hentry p.entry).mpr ⟨p, hp, hcontains, rfl⟩
      rw [if_neg hfound] at hsome
      cases hsome
    dsimp only
    rw [if_neg hfound, hnone]
    rfl

/-! ## The stack -/

theorem traceLoop_eq {f : LogFile} {t : SegmentTable} {ps : List PresentSegment}
    {search : Search} (hword : ∀ stackPtr word,
      (traceFromWord f t search stackPtr word).toList = linesFor f ps search stackPtr word)
    (rounds i : Nat) (stackPtr : UInt32) (stack : List UInt32) :
    traceLoop f t search rounds (stackPtr + 4 * UInt32.ofNat i) stack =
      if rounds ≤ stack.length then
        some (((stack.take rounds).zipIdx i).flatMap fun (curValue, j) =>
          linesFor f ps search (stackPtr + 4 * UInt32.ofNat j) curValue)
      else none := by
  induction rounds generalizing i stack with
  | zero => rw [if_pos (Nat.zero_le _)]; rfl
  | succ rounds ih =>
      cases stack with
      | nil => rfl
      | cons word stack =>
          have hnext : stackPtr + 4 * UInt32.ofNat i + 4 =
              stackPtr + 4 * UInt32.ofNat (i + 1) := by
            rw [UInt32.ofNat_add, UInt32.mul_add, UInt32.add_assoc]
            rfl
          rw [traceLoop, hnext, ih, hword, List.length_cons, List.take_succ_cons,
            List.zipIdx_cons, List.flatMap_cons]
          by_cases hrounds : rounds ≤ stack.length
          · rw [if_pos hrounds, if_pos (Nat.succ_le_succ hrounds)]
            rfl
          · rw [if_neg hrounds, if_neg fun h => hrounds (Nat.le_of_succ_le_succ h)]
            rfl

/-- The table has room for all segments. -/
theorem ModuleKernel.length_kernelSegments (k : ModuleKernel) :
    k.kernelSegments.length ≤ segListSize := by
  rw [kernelSegments, ModuleAnswers.segments]
  refine (length_presentSegments _ _).1.trans ?_
  rw [ModuleAnswers.answered]
  cases hlist : (k.answers kernelPid 0x80000001 1 modListSize).getModuleList with
  | error ret => exact Nat.zero_le _
  | ok modlist =>
      have hle := (List.takeWhile_sublist
        (fun m => ((k.answers kernelPid 0x80000001 1 modListSize).getModuleInfo m).isOk)
        (l := modlist.1)).length_le
      have hroom := modlist.2
      rw [segListSize]
      dsimp only
      omega

/-- **What a hook's stack shows.**  With the table of a driver that was just started, and when the
segments that the kernel answered for are disjoint and end below `2^32`, a trace of a hook's stack
stays on the stack exactly when the stack has the words that are read; and then the log has for
each of them, in order, the line of the wanted segment that contains it, and no other line. -/
theorem stacktrace_logs (k : ModuleKernel) (t : SegmentTable) (hflag : ¬ 0 < t.moduleConstructured)
    (hsep : Separate k.kernelSegments) (f : LogFile) (threadInfoSize : UInt32) (search : Search)
    (stackSize : Int32) (stackPtr : UInt32) (stack : List UInt32) :
    ∃ sorted, kernelTable k t = some (0, sorted) ∧
      stacktraceFromHere f sorted threadInfoSize search stackSize stackPtr stack =
        let words := (traceSize stackSize threadInfoSize).toNatClampNeg
        if words ≤ stack.length then
          some (0, traceLines f k.kernelSegments search stackPtr (stack.take words))
        else none := by
  obtain ⟨hset, hlists⟩ := constructTable_lists_answered
    (k.answers kernelPid 0x80000001 1 modListSize) segListSize hflag k.length_kernelSegments
  obtain ⟨sorted, hsort, hflag', -, hperm, -⟩ := sortTable_spec hset segListSize
  have hset' : sorted.moduleConstructured ≠ 0 := by rwa [hflag']
  refine ⟨sorted, hsort, ?_⟩
  have hfind : ∀ item e, sorted.entryAt (findInSegments segListSize sorted item) = some e ↔
      ∃ p ∈ k.kernelSegments, p.Contains item ∧ e = p.entry := by
    intro item e
    rw [entryAt_find hset', find?_of_perm hlists hsep hperm]
    exact find?_eq_some_iff hlists hsep item e
  have hloop := traceLoop_eq (f := f) (traceFromWord_eq hsep hfind search)
    (traceSize stackSize threadInfoSize).toNatClampNeg 0 stackPtr stack
  have hstart : stackPtr + 4 * UInt32.ofNat 0 = stackPtr := UInt32.add_zero stackPtr
  rw [hstart] at hloop
  rw [stacktraceFromHere, hloop]
  dsimp only
  split <;> rfl

/-- A kernel with the two modules. -/
def twoModulesKernel : ModuleKernel where
  getModuleList _ _ _ modlistLen :=
    if h : 2 ≤ modlistLen then .ok ⟨[1, 2], h⟩ else .ok ⟨[], Nat.zero_le _⟩
  getModuleInfo _ := twoModules.getModuleInfo

theorem twoModulesKernel_segments :
    twoModulesKernel.kernelSegments = presentSegments twoModules.getModuleInfo [1, 2] := by
  decide

/-- Three words, of which the middle one is no address of a module. -/
theorem stacktrace_two_callers :
    ∃ sorted, kernelTable twoModulesKernel ⟨fun _ => SegmentInfo.filler, 0⟩ = some (0, sorted) ∧
      stacktraceFromHere .sdstorDevFs sorted 4 ⟨⟨[], List.not_mem_nil⟩, 0, 1⟩ 2 0x100
          [0x1004, 5, 0x2010] =
        some (0,
          ["(sd) 00000100: 00001004 aaaaaaaaaaaaaaaaaaaaaaaaaaaa 0 00001000 00000004\n",
            "(sd) 00000108: 00002010 aaaaaaaaaaaaaaaaaaaaaaaaaaaa 0 00002000 00000010\n"].map
            String.toList) := by
  have hsep : Separate twoModulesKernel.kernelSegments := by
    rw [twoModulesKernel_segments]
    exact twoModules_separate
  obtain ⟨sorted, hsorted, htrace⟩ := stacktrace_logs twoModulesKernel
    ⟨fun _ => SegmentInfo.filler, 0⟩ (by decide) hsep .sdstorDevFs 4
    ⟨⟨[], List.not_mem_nil⟩, 0, 1⟩ 2 0x100 [0x1004, 5, 0x2010]
  refine ⟨sorted, hsorted, htrace.trans ?_⟩
  rw [twoModulesKernel_segments]
  decide

end PsvEmmc
