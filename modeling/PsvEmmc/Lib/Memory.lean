/-
# `Memory` — byte memory and a block allocator seen through its return codes

A memory is a total map from addresses to bytes: reading through a stale
pointer answers something, it just need not answer anything useful.  `fill`
writes a run of bytes, `load` reads one back.

The allocator is described the way its caller sees it.  Every call answers
with a signed code, negative for an error, and the caller learns nothing
else.  What a call may answer is data (`AllocAnswer`, or the code itself for
the other two calls), so a theorem over all answers is a theorem over all
behaviours of the allocator.  A granted block is never smaller than the
request: its size is the request plus a slack.
-/
import PsvEmmc.Lib.Words

namespace Memory

/-! ## Bytes at addresses -/

abbrev Mem := Nat → UInt8

/-- The `n` bytes from address `a` on. -/
def load (m : Mem) (a n : Nat) : List UInt8 := (List.range n).map (fun i => m (a + i))

/-- `m` with byte `i` of a run of `n` bytes from `a` on replaced by `f i`. -/
def fill (m : Mem) (a n : Nat) (f : Nat → UInt8) : Mem :=
  fun x => if a ≤ x ∧ x < a + n then f (x - a) else m x

/-- `m` with the bytes of `bs` from address `a` on. -/
def store (m : Mem) (a : Nat) (bs : List UInt8) : Mem :=
  fill m a bs.length (fun i => bs.getD i 0)

@[simp] theorem length_load (m : Mem) (a n : Nat) : (load m a n).length = n := by
  simp [load]

theorem load_fill (m : Mem) (a n : Nat) (f : Nat → UInt8) :
    load (fill m a n f) a n = (List.range n).map f := by
  refine List.map_congr_left fun i hi => ?_
  have hi : i < n := List.mem_range.mp hi
  simp only [fill]
  rw [if_pos ⟨by omega, by omega⟩, Nat.add_sub_cancel_left]

/-- A list read byte by byte. -/
theorem map_range_getD {bs : List UInt8} {n : Nat} (h : bs.length = n) :
    (List.range n).map (fun i => bs.getD i 0) = bs := by
  subst h
  apply List.ext_getElem
  · simp
  · intro i _ h₂
    simp [List.getD_eq_getElem?_getD, h₂]

theorem load_store (m : Mem) (a : Nat) (bs : List UInt8) :
    load (store m a bs) a bs.length = bs := by
  rw [store, load_fill, map_range_getD rfl]

/-- Reading back as many bytes as were stored, the count given separately. -/
theorem load_store_of_length {m : Mem} {a n : Nat} {bs : List UInt8} (h : bs.length = n) :
    load (store m a bs) a n = bs := by
  subst h
  exact load_store m a bs

/-! ## Accesses and blocks -/

/-- A run of bytes the program touched. -/
structure Access where
  addr : Nat
  len : Nat
  deriving DecidableEq, Repr

structure Block where
  uid : Int32
  base : Nat
  size : Nat
  deriving DecidableEq, Repr

/-- The blocks allocated at one moment, newest first. -/
abbrev Heap := List Block

/-- Every byte of the access lies in some allocated block. -/
def Heap.Covers (h : Heap) (a : Access) : Prop :=
  ∀ i < a.len, ∃ b ∈ h, b.base ≤ a.addr + i ∧ a.addr + i < b.base + b.size

/-- The size of the allocated block that starts at `ptr`; zero when there is none. -/
def Heap.capacity (h : Heap) (ptr : Nat) : Nat :=
  match h.find? (fun b => b.base == ptr) with
  | some b => b.size
  | none => 0

theorem Heap.capacity_cons {h : Heap} {b : Block} : Heap.capacity (b :: h) b.base = b.size := by
  simp [Heap.capacity]

theorem Heap.exists_block_of_capacity (h : Heap) (ptr : Nat) (hpos : 0 < h.capacity ptr) :
    ∃ b ∈ h, b.base = ptr ∧ b.size = h.capacity ptr := by
  cases hf : h.find? (fun b => b.base == ptr) with
  | none => simp [Heap.capacity, hf] at hpos
  | some b =>
      refine ⟨b, List.mem_of_find?_eq_some hf, ?_, by simp [Heap.capacity, hf]⟩
      simpa using List.find?_some hf

/-- An access from the start of a block that stays within its size is covered. -/
theorem Heap.covers_of_le_capacity {h : Heap} {ptr n : Nat} (hle : n ≤ h.capacity ptr) :
    h.Covers ⟨ptr, n⟩ := by
  intro i hi
  have hi : i < n := hi
  obtain ⟨b, hb, hbase, hsize⟩ := exists_block_of_capacity h ptr (by omega)
  refine ⟨b, hb, ?_, ?_⟩
  · rw [hbase]
    exact Nat.le_add_right ptr i
  · rw [hbase, hsize]
    exact Nat.add_lt_add_left (Nat.lt_of_lt_of_le hi hle) ptr

/-! ## The allocator's calls -/

/-- What one allocation request answers: an error code, or a block at `base`
that is `slack` bytes larger than the request. -/
inductive AllocAnswer where
  | refused (code : Int32) (neg : code < 0)
  | granted (uid : Int32) (nonneg : 0 ≤ uid) (base slack : Nat)

/-- The request was granted. -/
def AllocAnswer.isGranted : AllocAnswer → Bool
  | .refused _ _ => false
  | .granted _ _ _ _ => true

/-- Ask for `n` bytes.  The code is the new block's uid, or the error. -/
def allocMemBlock (answer : AllocAnswer) (n : Nat) (h : Heap) : Int32 × Heap :=
  match answer with
  | .refused code _ => (code, h)
  | .granted uid _ base slack => (uid, ⟨uid, base, n + slack⟩ :: h)

/-- Ask for the base address of block `uid`; `ptr` is overwritten on success only. -/
def getMemBlockBase (answer : Int32) (uid : Int32) (h : Heap) (ptr : Nat) : Int32 × Nat :=
  if answer < 0 then (answer, ptr)
  else
    match h.find? (fun b => b.uid == uid) with
    | some b => (answer, b.base)
    | none => (answer, ptr)

/-- Give block `uid` back. -/
def freeMemBlock (answer : Int32) (uid : Int32) (h : Heap) : Int32 × Heap :=
  if answer < 0 then (answer, h)
  else (answer, h.filter (fun b => b.uid != uid))

end Memory
