/-
# `PsvEmmc.SegmentTable` — where the modules of a process are in memory

`mtable.c` keeps a table of the segments of all modules, so that an address in
a trace can be named.  `construct_module_range_table` fills it once, from the
list of modules and the information on each that the kernel gives,
`sort_segment_table` sorts it and `find_in_segments` searches it from the
front.  The driver and the error_logger have two copies of the text: the
driver's asks about the process it is told, and takes the table as an
argument; the error_logger's asks about its own process and has one table.

The table is an array in memory, and memory goes on behind it, so the cells
are a function of the index and the size of the array is an argument.  Before
it is filled all its bytes are `0xFF`, which makes an entry whose range starts
and ends at `-1`.

What the table should hold is a list of `PresentSegment`s: the segments that
are there, in the order of the modules and then of the segments.
-/
import PsvEmmc.Lib.Filling

namespace PsvEmmc

open Filling

/-! ## What the kernel reports -/

/-- A return code that is an error. -/
abbrev ErrorCode := {code : Int32 // code < 0}

/-- What `ksceKernelGetModuleList` writes: no more ids than there is room for. -/
abbrev ModuleList (modlistLen : Nat) := {modlist : List Int32 // modlist.length ≤ modlistLen}

/-- A segment as the kernel reports it; `vaddr` is `NULL` where there is none. -/
structure KernelSegment where
  vaddr : UInt32
  memsz : UInt32
  deriving DecidableEq

/-- The fields of `SceKernelModuleInfo` that are used. -/
structure KernelModuleInfo where
  moduleName : Vector UInt8 28
  segments : Vector KernelSegment 4
  deriving DecidableEq

/-- The kernel's two functions, for any process. -/
structure ModuleKernel where
  getModuleList : (pid flags1 flags2 : Int32) → (modlistLen : Nat) →
    Except ErrorCode (ModuleList modlistLen)
  getModuleInfo : (pid modid : Int32) → Except ErrorCode KernelModuleInfo

/-- The two functions as a caller uses them in one call. -/
structure ModuleAnswers (modlistLen : Nat) where
  getModuleList : Except ErrorCode (ModuleList modlistLen)
  getModuleInfo : (modid : Int32) → Except ErrorCode KernelModuleInfo

/-! ## The table -/

structure RangePair where
  start : UInt32
  end_ : UInt32
  deriving DecidableEq

/-- `segment_info`. -/
structure SegmentInfo where
  moduleName : Vector UInt8 30
  seg : Int32
  range : RangePair
  deriving DecidableEq

/-- An entry of `0xFF` bytes. -/
def SegmentInfo.filler : SegmentInfo := ⟨Vector.replicate 30 0xFF, -1, ⟨-1, -1⟩⟩

def modListSize : Nat := 0x80

def segListSize : Nat := modListSize * 4

/-- A table: its cells, with the memory behind them, and its flag. -/
structure SegmentTable where
  segList : Nat → SegmentInfo
  moduleConstructured : Int32

/-- The table itself. -/
def SegmentTable.entries (t : SegmentTable) (segListLen : Nat) : List SegmentInfo :=
  front t.segList segListLen

/-! ## Filling the table -/

/-- `memset` of thirty bytes and `memcpy` of the module's twenty-eight. -/
def nameField (moduleName : Vector UInt8 28) : Vector UInt8 30 := Vector.append moduleName #v[0, 0]

/-- The entry of segment `s`, if the module has it. -/
def KernelModuleInfo.entry (minfo : KernelModuleInfo) (s : Fin 4) : Option SegmentInfo :=
  if (minfo.segments.get s).vaddr = 0 then none
  else some
    { moduleName := nameField minfo.moduleName
      seg := Int32.ofNat s
      range :=
        { start := (minfo.segments.get s).vaddr
          end_ := (minfo.segments.get s).vaddr + (minfo.segments.get s).memsz } }

/-- The loop over the four segments. -/
def fillModule (minfo : KernelModuleInfo) (c : Cursor SegmentInfo) : Cursor SegmentInfo :=
  (List.finRange 4).foldl (fun c s => (minfo.entry s).elim c c.put) c

/-- The loop over the modules, with the code it returns from the middle. -/
def fillModules (getModuleInfo : Int32 → Except ErrorCode KernelModuleInfo) :
    List Int32 → Cursor SegmentInfo → Option ErrorCode × Cursor SegmentInfo
  | [], c => (none, c)
  | m :: ms, c =>
      match getModuleInfo m with
      | .error ret => (some ret, c)
      | .ok minfo => fillModules getModuleInfo ms (fillModule minfo c)

/-- The cells after `memset(segList, -1, ...)`. -/
def SegmentTable.blank (t : SegmentTable) (segListLen : Nat) : Nat → SegmentInfo :=
  fun i => if i < segListLen then SegmentInfo.filler else t.segList i

/-- What a call leaves: the return value, the table, and the indices of the table it wrote after
`memset`. -/
structure Construction where
  ret : Int32
  table : SegmentTable
  writes : List Nat

/-- A call that stops where the cursor is. -/
def Construction.ofCursor (ret : Int32) (c : Cursor SegmentInfo) : Construction :=
  ⟨ret, ⟨c.cells, 1⟩, c.writes⟩

/-- `construct_module_range_table` of both programs. -/
def constructTable {modlistLen : Nat} (k : ModuleAnswers modlistLen) (segListLen : Nat)
    (t : SegmentTable) : Construction :=
  if 0 < t.moduleConstructured then ⟨0, t, []⟩
  else
    match k.getModuleList with
    | .error ret => .ofCursor ret { cells := t.blank segListLen }
    | .ok modlist =>
        match fillModules k.getModuleInfo modlist { cells := t.blank segListLen } with
        | (some ret, c) => .ofCursor ret c
        | (none, c) =>
            -- Only the range of the final item is set.
            .ofCursor 0 (c.put { c.cells c.index with range := ⟨-1, -1⟩ })

/-! ## The two programs -/

/-- `KERNEL_PID`. -/
def kernelPid : Int32 := 0x10005

/-- What the driver asks when it constructs a table. -/
def ModuleKernel.answers (k : ModuleKernel) (pid flags1 flags2 : Int32) (modlistLen : Nat) :
    ModuleAnswers modlistLen where
  getModuleList := k.getModuleList pid flags1 flags2 modlistLen
  getModuleInfo := k.getModuleInfo kernelPid

/-- The driver's function. -/
def constructModuleRangeTable (k : ModuleKernel) (pid flags1 flags2 : Int32)
    (modlistLen segListLen : Nat) (t : SegmentTable) : Construction :=
  constructTable (k.answers pid flags1 flags2 modlistLen) segListLen t

namespace ErrorLogger

/-- The functions of the kernel that a process calls about itself. -/
structure UserKernel where
  getModuleList : (flags : Int32) → (modlistLen : Nat) → Except ErrorCode (ModuleList modlistLen)
  getModuleInfo : (modid : Int32) → Except ErrorCode KernelModuleInfo

/-- What the error_logger asks when it constructs its table. -/
def UserKernel.answers (k : UserKernel) : ModuleAnswers modListSize where
  getModuleList := k.getModuleList 0xFF modListSize
  getModuleInfo := k.getModuleInfo

/-- The error_logger's function. -/
def constructModuleRangeTable (k : UserKernel) (t : SegmentTable) : Construction :=
  constructTable k.answers segListSize t

end ErrorLogger

/-! ## Sorting and searching -/

def compareSegments (x y : SegmentInfo) : Int :=
  if x.range.start < y.range.start then -1
  else if y.range.start < x.range.start then 1
  else 0

/-- `sort_segment_table`, over `qsort_imp`. -/
def sortSegmentTable (qsortImp : List SegmentInfo → List SegmentInfo) (segListLen : Nat)
    (t : SegmentTable) : Int × SegmentTable :=
  if t.moduleConstructured = 0 then (-1, t)
  else
    (0, { t with segList := fun i => (qsortImp (t.entries segListLen)).getD i (t.segList i) })

/-- The comparison of `find_in_segments`. -/
def SegmentInfo.holds (item : UInt32) (e : SegmentInfo) : Bool :=
  decide (e.range.start ≤ item) && decide (item < e.range.end_)

/-- `find_in_segments`: the first index, or `-1`. -/
def findInSegments (segListLen : Nat) (t : SegmentTable) (item : UInt32) : Int :=
  if t.moduleConstructured = 0 then -1
  else
    match (t.entries segListLen).findIdx? (SegmentInfo.holds item) with
    | some s => s
    | none => -1

/-! ## What the table should hold -/

/-- A segment that is there: the module's name, the number, and where it is. -/
structure PresentSegment where
  moduleName : Vector UInt8 28
  seg : Fin 4
  vaddr : UInt32
  memsz : UInt32
  deriving DecidableEq

/-- The segments of a module that are there. -/
def KernelModuleInfo.present (minfo : KernelModuleInfo) : List PresentSegment :=
  (List.finRange 4).filterMap fun s =>
    if (minfo.segments.get s).vaddr = 0 then none
    else some ⟨minfo.moduleName, s, (minfo.segments.get s).vaddr, (minfo.segments.get s).memsz⟩

/-- The segments of all modules, in order; a module the kernel says nothing about has none. -/
def presentSegments (getModuleInfo : Int32 → Except ErrorCode KernelModuleInfo)
    (modlist : List Int32) : List PresentSegment :=
  modlist.flatMap fun m =>
    match getModuleInfo m with
    | .error _ => []
    | .ok minfo => minfo.present

/-- The entry that names a segment. -/
def PresentSegment.entry (p : PresentSegment) : SegmentInfo where
  moduleName := nameField p.moduleName
  seg := Int32.ofNat p.seg
  range := ⟨p.vaddr, p.vaddr + p.memsz⟩

/-! ## What a call does -/

theorem KernelModuleInfo.present_entry (minfo : KernelModuleInfo) :
    minfo.present.map PresentSegment.entry = (List.finRange 4).filterMap minfo.entry := by
  rw [present, List.map_filterMap]
  refine List.filterMap_congr fun s _ => ?_
  unfold KernelModuleInfo.entry
  split <;> rfl

theorem KernelModuleInfo.length_present_le (minfo : KernelModuleInfo) :
    minfo.present.length ≤ 4 :=
  List.length_filterMap_le _ _

theorem fillModule_eq (minfo : KernelModuleInfo) (c : Cursor SegmentInfo) :
    fillModule minfo c = c.putAll (minfo.present.map PresentSegment.entry) := by
  rw [minfo.present_entry]
  exact Cursor.foldl_put _ _ _

/-- The loop fills in the segments of the modules it gets to: all of them, or those in front of
one that the kernel refuses. -/
theorem fillModules_cases (getModuleInfo : Int32 → Except ErrorCode KernelModuleInfo)
    (modlist : List Int32) (c : Cursor SegmentInfo) :
    ((∀ m ∈ modlist, ∃ minfo, getModuleInfo m = .ok minfo) ∧
      fillModules getModuleInfo modlist c =
        (none, c.putAll ((presentSegments getModuleInfo modlist).map PresentSegment.entry))) ∨
    ∃ done m rest ret, modlist = done ++ m :: rest ∧ getModuleInfo m = .error ret ∧
      fillModules getModuleInfo modlist c =
        (some ret, c.putAll ((presentSegments getModuleInfo done).map PresentSegment.entry)) := by
  induction modlist generalizing c with
  | nil => exact Or.inl ⟨fun m hm => absurd hm List.not_mem_nil, rfl⟩
  | cons m ms ih =>
      rw [fillModules]
      cases hm : getModuleInfo m with
      | error ret => exact Or.inr ⟨[], m, ms, ret, rfl, hm, rfl⟩
      | ok minfo =>
          have hsegments : ∀ ms, (presentSegments getModuleInfo (m :: ms)).map
              PresentSegment.entry = minfo.present.map PresentSegment.entry ++
                (presentSegments getModuleInfo ms).map PresentSegment.entry := by
            intro ms
            rw [presentSegments, List.flatMap_cons, hm, List.map_append]
            rfl
          dsimp only
          rw [fillModule_eq]
          rcases ih (c.putAll (minfo.present.map PresentSegment.entry)) with
            ⟨hall, hfill⟩ | ⟨done, m', rest, ret, hsplit, herr, hfill⟩
          · refine Or.inl ⟨List.forall_mem_cons.mpr ⟨⟨minfo, hm⟩, hall⟩, ?_⟩
            rw [hfill, hsegments, Cursor.putAll_append]
          · refine Or.inr ⟨m :: done, m', rest, ret, by rw [hsplit]; rfl, herr, ?_⟩
            rw [hfill, hsegments, Cursor.putAll_append]

/-- The kernel has information on every module of the list. -/
def AllKnown (getModuleInfo : Int32 → Except ErrorCode KernelModuleInfo) (modlist : List Int32) :
    Prop :=
  ∀ m ∈ modlist, ∃ minfo, getModuleInfo m = .ok minfo

/-- The blank table filled with the entries of `ps`. -/
def SegmentTable.filled (t : SegmentTable) (segListLen : Nat) (ps : List PresentSegment) :
    Cursor SegmentInfo :=
  Cursor.putAll { cells := t.blank segListLen } (ps.map PresentSegment.entry)

/-- The final item: the next entry with its range set. -/
def Cursor.terminated (c : Cursor SegmentInfo) : Cursor SegmentInfo :=
  c.put { c.cells c.index with range := ⟨-1, -1⟩ }

/-- **What a call does.**  It finds the table constructed; or it is refused the list; or it fills
in all segments and the final item; or it is refused the information on a module after it has
filled in the segments of those in front. -/
theorem constructTable_cases {modlistLen : Nat} (k : ModuleAnswers modlistLen)
    (segListLen : Nat) (t : SegmentTable) :
    (0 < t.moduleConstructured ∧ constructTable k segListLen t = ⟨0, t, []⟩) ∨
    (¬ 0 < t.moduleConstructured ∧
      ((∃ ret, k.getModuleList = .error ret ∧
        constructTable k segListLen t = .ofCursor ret (t.filled segListLen [])) ∨
      ∃ modlist, k.getModuleList = .ok modlist ∧
        ((AllKnown k.getModuleInfo modlist ∧
          constructTable k segListLen t = .ofCursor 0 (Cursor.terminated
            (t.filled segListLen (presentSegments k.getModuleInfo modlist)))) ∨
        ∃ done m rest ret, modlist.1 = done ++ m :: rest ∧ k.getModuleInfo m = .error ret ∧
          constructTable k segListLen t = .ofCursor ret
            (t.filled segListLen (presentSegments k.getModuleInfo done))))) := by
  unfold constructTable
  by_cases hflag : 0 < t.moduleConstructured
  · rw [if_pos hflag]
    exact Or.inl ⟨hflag, rfl⟩
  · rw [if_neg hflag]
    refine Or.inr ⟨hflag, ?_⟩
    cases hlist : k.getModuleList with
    | error ret => exact Or.inl ⟨ret, rfl, rfl⟩
    | ok modlist =>
        refine Or.inr ⟨modlist, rfl, ?_⟩
        rcases fillModules_cases k.getModuleInfo modlist { cells := t.blank segListLen } with
          ⟨hall, hfill⟩ | ⟨done, m, rest, ret, hsplit, herr, hfill⟩
        · refine Or.inl ⟨hall, ?_⟩
          dsimp only
          rw [hfill]
          rfl
        · refine Or.inr ⟨done, m, rest, ret, hsplit, herr, ?_⟩
          dsimp only
          rw [hfill]
          rfl

end PsvEmmc
