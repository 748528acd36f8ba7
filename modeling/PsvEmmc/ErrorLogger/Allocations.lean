/-
# `PsvEmmc.ErrorLogger.Allocations` — who allocated a pointer

The hook of `scePafAllocateMem` writes what each allocation returned, and the
first address on its stack that lies in a segment, to a cyclic buffer.
`find_allocation_data` looks for a pointer from the first cell on.

The order of the cells is not the order of the allocations, a pointer can be
returned again after it was freed, and a cell that was not used holds a zero.
So the record that is found need not be that of the newest allocation
(`find_allocation_iff`); a run of two allocations shows a stale one.
-/
import PsvEmmc.ErrorLogger.StackTrace
import PsvEmmc.Lib.Cyclic
import PsvEmmc.Lib.Runs

namespace PsvEmmc.ErrorLogger

open Filling Cyclic Runs

/-! ## The hook -/

def allocDataBufferSize : Nat := 0x4000

def allocStacktraceSize : Int32 := 20

/-- `alloc_data`. -/
structure AllocData where
  ptr : UInt32
  caller : UInt32
  deriving DecidableEq, Repr

/-- A call of the hook: what the original returned, the table of segments, where `res` is, and the
words of the stack above it. -/
structure Allocation where
  res : UInt32
  table : SegmentTable
  stackPtr : UInt32
  above : Nat → UInt32

/-- The words from `res` on. -/
def Allocation.stack (a : Allocation) : Nat → UInt32
  | 0 => a.res
  | i + 1 => a.above i

/-- The globals of the hook; `g_scePafAllocateMem_allocCtr` is the index of the buffer. -/
structure AllocSt where
  addresses : Nat → UInt32 := fun _ => 0
  addressNum : UInt32 := 0
  allocData : Buffer AllocData := { cells := fun _ => ⟨0, 0⟩ }
  allocTotal : Int32 := 0

/-- Any address, in any module. -/
def anySegment : Search := ⟨⟨[], List.not_mem_nil⟩, 0, 1⟩

/-- `scePafAllocateMem_hook`. -/
def scePafAllocateMemHook (s : AllocSt) (a : Allocation) : UInt32 × AllocSt :=
  let cleared : Nat → UInt32 :=
    fun i => if i < allocStacktraceSize.toNatClampNeg then 0 else s.addresses i
  let trace :=
    (stacktraceGlobal a.table a.stackPtr a.stack anySegment allocStacktraceSize 0 cleared).2
  (a.res,
    { addresses := trace.addresses.cells
      addressNum := trace.addressNum
      allocData := s.allocData.put allocDataBufferSize ⟨a.res, trace.addresses.cells 0⟩
      allocTotal := s.allocTotal + 1 })

/-- An index, or `-1`. -/
def indexOrNeg : Option Nat → Int
  | some i => i
  | none => -1

/-- `find_allocation_data`: the first index. -/
def findAllocationData (s : AllocSt) (value : UInt32) : Int :=
  indexOrNeg ((front s.allocData.cells allocDataBufferSize).findIdx? fun d => d.ptr == value)

/-- The globals after these allocations. -/
def allocated (as : List Allocation) : AllocSt :=
  run (fun s a => (scePafAllocateMemHook s a).2) {} as

/-! ## The caller -/

abbrev InSegment (t : SegmentTable) (word : UInt32) : Prop :=
  0 ≤ findInSegments segListSize t word

/-- The words of the stack that the trace reads. -/
def Allocation.words (a : Allocation) : List UInt32 :=
  (List.range allocStacktraceSize.toNatClampNeg).map a.stack

/-- The first of them that lies in a segment, or zero. -/
def Allocation.caller (a : Allocation) : UInt32 := (a.words.filter (InSegment a.table)).headD 0

def Allocation.record (a : Allocation) : AllocData := ⟨a.res, a.caller⟩

/-- In verbose mode a word is kept when it is in a segment. -/
theorem traceWord_verbose (t : SegmentTable) {search : Search} (hverbose : search.verbose = 1)
    (print : Int32) (r : Trace) (stackPtr word : UInt32) :
    (traceWord t search print r stackPtr word).addresses =
      if InSegment t word then r.addresses.put word else r.addresses := by
  rw [traceWord, if_pos hverbose]
  by_cases hfound : InSegment t word
  · rw [if_pos hfound, if_pos hfound]
    rfl
  · rw [if_neg hfound, if_neg hfound]

theorem traceWords_verbose (t : SegmentTable) {search : Search} (hverbose : search.verbose = 1)
    (print : Int32) (stackPtr : UInt32) (stack : Nat → UInt32) (is : List Nat) (r : Trace) :
    (traceWords t search print stackPtr stack is r).addresses =
      r.addresses.putAll ((is.map stack).filter (InSegment t)) := by
  induction is generalizing r with
  | nil => rfl
  | cons i is ih =>
      rw [traceWords, List.foldl_cons, ← traceWords, ih]
      by_cases hfound : InSegment t (stack i)
      · have hword : ((i :: is).map stack).filter (InSegment t) =
            stack i :: (is.map stack).filter (InSegment t) :=
          List.filter_cons_of_pos (decide_eq_true hfound)
        rw [hword, traceWord_verbose t hverbose, if_pos hfound]
        rfl
      · have hword : ((i :: is).map stack).filter (InSegment t) =
            (is.map stack).filter (InSegment t) :=
          List.filter_cons_of_neg (by rwa [decide_eq_true_iff])
        rw [hword, traceWord_verbose t hverbose, if_neg hfound]

/-- What the hook records is told by the allocation. -/
theorem allocData_hook (s : AllocSt) (a : Allocation) :
    (scePafAllocateMemHook s a).2.allocData = s.allocData.put allocDataBufferSize a.record := by
  let cleared : Nat → UInt32 :=
    fun i => if i < allocStacktraceSize.toNatClampNeg then 0 else s.addresses i
  have hfirst : ∀ words : List UInt32,
      (Cursor.putAll { cells := cleared } words).cells 0 = words.headD 0 := by
    intro words
    have hput := Cursor.cells_putAll { cells := cleared } words 0
    rw [Nat.add_zero] at hput
    rw [hput, List.headD_eq_head?_getD, List.getD_eq_getElem?_getD, List.head?_eq_getElem?]
    rfl
  have htrace : (stacktraceGlobal a.table a.stackPtr a.stack anySegment allocStacktraceSize 0
      cleared).2.addresses =
        Cursor.putAll { cells := cleared } (a.words.filter (InSegment a.table)) :=
    traceWords_verbose a.table rfl 0 a.stackPtr a.stack _ _
  show s.allocData.put allocDataBufferSize ⟨a.res, _⟩ = _
  rw [Allocation.record, Allocation.caller, ← hfirst, ← htrace]

/-! ## The buffer -/

theorem allocated_concat (as : List Allocation) (a : Allocation) :
    allocated (as ++ [a]) = (scePafAllocateMemHook (allocated as) a).2 := by
  rw [allocated, run_append]
  rfl

/-- The buffer is told by the records. -/
theorem allocData_allocated (as : List Allocation) :
    (allocated as).allocData =
      (Buffer.mk (fun _ => ⟨0, 0⟩) 0).putAll allocDataBufferSize (as.map Allocation.record) := by
  induction as using List.reverseRecOn with
  | nil => rfl
  | append_singleton as a ih =>
      rw [allocated_concat, allocData_hook, ih, List.map_append, List.map_singleton,
        Buffer.putAll_concat]

/-! ## What is found -/

/-- The last `0x4000` allocations. -/
def lastAllocations (as : List Allocation) : List Allocation := recent allocDataBufferSize as

/-- The newest of them that returned the value. -/
def newest (as : List Allocation) (value : UInt32) : Option Allocation :=
  (lastAllocations as).reverse.find? fun a => a.res == value

/-- The cell that is found is the one of the newest of the allocations that returned the value and
holds its record, and there is none exactly when there is no such allocation. -/
def FindsNewest (as : List Allocation) (value : UInt32) : Prop :=
  let found := findAllocationData (allocated as) value
  (∀ i a, (lastAllocations as)[i]? = some a →
    IsLast (fun a : Allocation => a.res == value) (lastAllocations as) i →
      found = slot allocDataBufferSize as i ∧
        (allocated as).allocData.cells found.toNat = a.record) ∧
  (found = -1 ↔ ∀ a ∈ lastAllocations as, a.res ≠ value)

/-- The cell that is found holds what was recorded of the newest. -/
def FindsRecord (as : List Allocation) (value : UInt32) : Prop :=
  let found := findAllocationData (allocated as) value
  (∀ a, newest as value = some a →
    0 ≤ found ∧ (allocated as).allocData.cells found.toNat = a.record) ∧
  (found = -1 ↔ ∀ a ∈ lastAllocations as, a.res ≠ value)

/-- How many of them returned the value. -/
def returned (value : UInt32) (as : List Allocation) : Nat := as.countP fun a => a.res == value

/-- The value is `NULL`, and some cell was not used. -/
def NullInUnused (as : List Allocation) (value : UInt32) : Prop :=
  value = 0 ∧ as.length < allocDataBufferSize

/-- Since the index was last at the start one allocation returned the value; or none did, and one of
those before that are still there; or none of either, and no unused cell looks like one. -/
def ReturnedOnce (as : List Allocation) (value : UInt32) : Prop :=
  returned value (current allocDataBufferSize as) = 1 ∨
    (returned value (current allocDataBufferSize as) = 0 ∧
      (returned value (older allocDataBufferSize as) = 1 ∨
        (returned value (older allocDataBufferSize as) = 0 ∧ ¬ NullInUnused as value)))

/-- The first that returned the value, of those since the index was last at the start and then of
those before that are still there, has the caller of the newest; and where there is none, no
unused cell looks like one. -/
def CallersAgree (as : List Allocation) (value : UInt32) : Prop :=
  ((current allocDataBufferSize as ++ older allocDataBufferSize as).find?
      fun a => a.res == value).map Allocation.caller = (newest as value).map Allocation.caller ∧
    (newest as value = none → ¬ NullInUnused as value)

/-! ## The search -/

theorem indexOrNeg_eq_iff {found : Option Nat} {i : Nat} :
    indexOrNeg found = i ↔ found = some i := by
  cases found with
  | none => exact iff_of_false (fun h => by cases h) (fun h => by cases h)
  | some j => exact Int.ofNat_inj.trans Option.some_inj.symm

theorem indexOrNeg_eq_neg_one_iff {found : Option Nat} :
    indexOrNeg found = -1 ↔ found = none := by
  cases found with
  | none => exact iff_of_true rfl rfl
  | some j => exact iff_of_false (fun h => by cases h) (fun h => by cases h)

theorem indexOrNeg_neg_iff {found : Option Nat} :
    indexOrNeg found = -1 ↔ ¬ 0 ≤ indexOrNeg found := by
  cases found with
  | none => exact iff_of_true rfl (by decide)
  | some j => exact iff_of_false (fun h => by cases h) (not_not.mpr (Int.natCast_nonneg j))

/-- The record in the cell that is found. -/
theorem find?_eq (s : AllocSt) (value : UInt32) :
    (front s.allocData.cells allocDataBufferSize).find? (fun d => d.ptr == value) =
      if 0 ≤ findAllocationData s value then
        some (s.allocData.cells (findAllocationData s value).toNat)
      else none := by
  rw [List.find?_eq_bind_findIdx?_getElem?, findAllocationData]
  cases hfound : (front s.allocData.cells allocDataBufferSize).findIdx? fun d => d.ptr == value with
  | none => rfl
  | some i =>
      obtain ⟨hlt, _⟩ := List.findIdx?_eq_some_iff_getElem.mp hfound
      rw [length_front] at hlt
      exact getElem?_front s.allocData.cells hlt

/-- No unused cell has the value, unless it is `NULL`. -/
theorem unused_iff (as : List Allocation) (value : UInt32) :
    (∀ d ∈ unused allocDataBufferSize (fun _ => (⟨0, 0⟩ : AllocData)) (as.map Allocation.record),
      ¬ (d.ptr == value) = true) ↔ ¬ NullInUnused as value := by
  rw [unused, List.length_map, front, List.forall_mem_map, NullInUnused, not_and]
  constructor
  · intro h hvalue hlen
    refine h 0 (List.mem_range.mpr (by omega)) ?_
    rw [hvalue]
    rfl
  · intro h i hi heq
    exact h (eq_of_beq heq).symm (by have := List.mem_range.mp hi; omega)

/-- Allocations of one value have one record when they have one caller. -/
theorem map_record_eq_iff {value : UInt32} {x y : Option Allocation}
    (hx : ∀ a, x = some a → a.res = value) (hy : ∀ a, y = some a → a.res = value) :
    x.map Allocation.record = y.map Allocation.record ↔
      x.map Allocation.caller = y.map Allocation.caller := by
  cases x with
  | none => cases y <;> simp
  | some a =>
      cases y with
      | none => simp
      | some b =>
          have hres : a.res = b.res := (hx a rfl).trans (hy b rfl).symm
          simp [Allocation.record, hres]

theorem newest_eq_none_iff (as : List Allocation) (value : UInt32) :
    newest as value = none ↔ ∀ a ∈ lastAllocations as, a.res ≠ value := by
  simp [newest]

theorem map_newest (as : List Allocation) (value : UInt32) :
    (newest as value).map Allocation.record =
      (recent allocDataBufferSize (as.map Allocation.record)).reverse.find?
        fun d => d.ptr == value := by
  rw [recent_map, ← List.map_reverse, List.find?_map]
  rfl

theorem oneMatch_iff (as : List Allocation) (value : UInt32) :
    OneMatch (fun d : AllocData => d.ptr == value) allocDataBufferSize (fun _ => ⟨0, 0⟩)
      (as.map Allocation.record) ↔ ReturnedOnce as value := by
  rw [OneMatch, unused_iff, current_map, older_map, List.countP_map, List.countP_map]
  exact Iff.rfl

theorem firstAgrees_iff (as : List Allocation) (value : UInt32) :
    FirstAgrees (fun d : AllocData => d.ptr == value) allocDataBufferSize (fun _ => ⟨0, 0⟩)
      (as.map Allocation.record) ↔ CallersAgree as value := by
  have hres : ∀ (bs : List Allocation) (a : Allocation),
      (bs.find? fun a => a.res == value) = some a → a.res = value := fun bs a ha => by
    simpa using List.find?_some ha
  rw [FirstAgrees, unused_iff, ← map_newest, current_map, older_map, ← List.map_append,
    List.find?_map, recent_map, List.forall_mem_map, CallersAgree, newest_eq_none_iff]
  refine and_congr (map_record_eq_iff (hres _) (hres _)) (imp_congr_left ?_)
  exact forall₂_congr fun a _ => not_congr beq_iff_eq

/-- Each of the last allocations has a cell. -/
theorem record_slot (as : List Allocation) {i : Nat} {a : Allocation}
    (ha : (lastAllocations as)[i]? = some a) :
    (allocated as).allocData.cells (slot allocDataBufferSize as i) = a.record := by
  rw [allocData_allocated, ← slot_map as Allocation.record]
  refine cells_slot (by decide) _ _ ?_
  rw [recent_map, List.getElem?_map]
  exact congrArg (Option.map Allocation.record) ha

theorem findsNewest_iff (as : List Allocation) (value : UInt32) :
    FindsNewest as value ↔ ReturnedOnce as value := by
  rw [← oneMatch_iff, ← find_newest_iff (by decide), ← allocData_allocated, FindsNewest]
  refine and_congr (forall_congr' fun i => ?_) ?_
  · rw [← indexOrNeg_eq_iff, ← findAllocationData, recent_map, isLast_map, slot_map]
    constructor
    · intro h hlast
      obtain ⟨a, ha, _⟩ := hlast.holds
      exact (h a ha hlast).1
    · intro h a ha hlast
      refine ⟨h hlast, ?_⟩
      rw [h hlast, Int.toNat_natCast]
      exact record_slot as ha
  · rw [findAllocationData, indexOrNeg_eq_neg_one_iff, recent_map, List.forall_mem_map]
    refine iff_congr Iff.rfl (forall₂_congr fun a _ => ?_)
    exact not_congr beq_iff_eq.symm

theorem findsRecord_iff (as : List Allocation) (value : UInt32) :
    FindsRecord as value ↔ CallersAgree as value := by
  rw [← firstAgrees_iff, ← find_match_iff (by decide), ← allocData_allocated, ← map_newest,
    find?_eq, FindsRecord, ← newest_eq_none_iff]
  have hnone : findAllocationData (allocated as) value = -1 ↔
      ¬ 0 ≤ findAllocationData (allocated as) value := indexOrNeg_neg_iff
  rw [hnone]
  by_cases hfound : 0 ≤ findAllocationData (allocated as) value
  · rw [if_pos hfound]
    cases newest as value with
    | none => simp [hfound]
    | some a => simp [hfound]
  · rw [if_neg hfound]
    cases newest as value with
    | none => simp [hfound]
    | some a => simp [hfound]

/-- A pointer that was not returned twice is found. -/
theorem findsNewest_of_once {as : List Allocation} {value : UInt32} (hvalue : value ≠ 0)
    (honce : returned value (lastAllocations as) ≤ 1) : FindsNewest as value := by
  have hsum : returned value (lastAllocations as) =
      returned value (older allocDataBufferSize as) +
        returned value (current allocDataBufferSize as) := by
    rw [lastAllocations, recent_eq as (by decide)]
    exact List.countP_append
  have hnull : ¬ NullInUnused as value := fun h => hvalue h.1
  rw [findsNewest_iff, ReturnedOnce, and_iff_left hnull]
  omega

/-- **Who is found.**  The search finds the newest of the last allocations that returned a value
exactly when it was returned once in the part of the buffer that it meets first; and it finds a
record equal to that one's exactly when the first it meets has the same caller. -/
theorem find_allocation_iff (as : List Allocation) (value : UInt32) :
    (FindsNewest as value ↔ ReturnedOnce as value) ∧
      (FindsRecord as value ↔ CallersAgree as value) :=
  ⟨findsNewest_iff as value, findsRecord_iff as value⟩

/-- A table with one module in it. -/
def oneModule : SegmentTable := ⟨fun _ => { SegmentInfo.filler with range := ⟨0x2000, 0x3000⟩ }, 1⟩

/-- The address above `res` is where the call came from. -/
def allocationBy (ptr caller : UInt32) : Allocation := ⟨ptr, oneModule, 0x8000, fun _ => caller⟩

/-- A pointer that was returned again is still attributed to its first caller. -/
theorem stale_record_found :
    let as := [allocationBy 0x1000 0x2010, allocationBy 0x1000 0x2020]
    ¬ FindsNewest as 0x1000 ∧ ¬ FindsRecord as 0x1000 := by
  intro as
  have hshort : as.length < allocDataBufferSize := by decide
  rw [findsNewest_iff, findsRecord_iff, ReturnedOnce, CallersAgree, newest, lastAllocations,
    recent_eq as (by decide), current_of_lt as hshort, older_of_lt as hshort]
  have hcallers : (allocationBy 0x1000 0x2010).caller ≠ (allocationBy 0x1000 0x2020).caller := by
    decide +kernel
  exact ⟨fun h => h.elim (by decide) fun h => absurd h.1 (by decide),
    fun h => hcallers (Option.some.inj h.1)⟩

/-- With no allocation at all, `NULL` is found in the first cell. -/
example : ¬ FindsRecord [] 0 :=
  fun h => ((findsRecord_iff [] 0).mp h).2 rfl ⟨rfl, by decide⟩

end PsvEmmc.ErrorLogger
