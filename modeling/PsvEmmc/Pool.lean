/-
# `PsvEmmc.Pool` — the cluster pool, kept twice

The server process and the kernel module each keep a pool for one cluster:
the geometry it was made for, a flag, the uid and the base of one memory
block.  Their two pairs of functions, `initializePool`/`deinitializePool` and
`psvemmcInitialize`/`psvemmcDeinitialize`, differ in nothing but the prefix of
the kernel calls, so `Pool` is the state of either side and `poolInit`
and `poolDeinit` are the text of both.

`poolInit_cases` and `poolDeinit_cases` say once what a call can
do.  The order of the updates matters: the geometry is recorded before the
allocation and the uid before its sign is looked at, so a call that fails
half-way leaves its traces.
-/
import PsvEmmc.Lib.Memory
import PsvEmmc.Protocol

namespace PsvEmmc

open Words Memory

/-- The pool globals of one side, its allocated pool blocks and its memory. -/
structure Pool where
  gBytesPerSector : Int32 := 0
  gSectorsPerCluster : Int32 := 0
  gClusterPoolInitialized : Bool := false
  gClusterPool : Int32 := 0
  gClusterPoolPtr : Nat := 0
  blocks : Heap := []
  mem : Mem := fun _ => 0

/-- What the kernel answers to the pool calls made while one request is handled. -/
structure PoolAnswers where
  alloc : AllocAnswer
  base : Int32
  free : Int32

namespace Pool

/-- `g_bytesPerSector * g_sectorsPerCluster`, an `int`. -/
def clusterSize (p : Pool) : Int32 := p.gBytesPerSector * p.gSectorsPerCluster

/-- The same product where a size is expected. -/
def clusterBytes (p : Pool) : Nat := p.clusterSize.toUInt32.toNat

/-- The size of the allocated block `g_clusterPoolPtr` points to, zero if there is none. -/
def capacity (p : Pool) : Nat := p.blocks.capacity p.gClusterPoolPtr

end Pool

/-! ## The two functions -/

/-- `initializePool` in the server, `psvemmcInitialize` in the driver. -/
def poolInit (k : PoolAnswers) (bytesPerSector sectorsPerCluster : Int32) (p : Pool) :
    Int32 × Pool :=
  if p.gClusterPoolInitialized then (-1, p)
  else if bytesPerSector ≠ sdDefaultSectorSize then (-2, p)
  else
    let p := { p with gBytesPerSector := bytesPerSector, gSectorsPerCluster := sectorsPerCluster }
    let (uid, blocks) := allocMemBlock k.alloc p.clusterBytes p.blocks
    let p := { p with gClusterPool := uid, blocks := blocks }
    if p.gClusterPool < 0 then (p.gClusterPool, p)
    else
      let (res1, ptr) := getMemBlockBase k.base p.gClusterPool p.blocks p.gClusterPoolPtr
      let p := { p with gClusterPoolPtr := ptr }
      if res1 < 0 then (res1, p)
      else (0, { p with gClusterPoolInitialized := true })

/-- `deinitializePool` in the server, `psvemmcDeinitialize` in the driver. -/
def poolDeinit (k : PoolAnswers) (p : Pool) : Int32 × Pool :=
  if p.gClusterPoolInitialized = false then (-1, p)
  else
    let (res1, blocks) := freeMemBlock k.free p.gClusterPool p.blocks
    let p := { p with blocks := blocks }
    if res1 < 0 then (res1, p)
    else (0, { p with gClusterPoolInitialized := false })

/-- Every call succeeds. -/
structure PoolAnswers.Succeeds (k : PoolAnswers) : Prop where
  granted : k.alloc.isGranted = true
  base : ¬ k.base < 0
  free : ¬ k.free < 0

/-- Every call succeeds, and the block is at `base`. -/
def PoolAnswers.grant (base : Nat) : PoolAnswers := ⟨.granted 1 (by decide) base 0, 0, 0⟩

theorem PoolAnswers.grant_succeeds (base : Nat) : (PoolAnswers.grant base).Succeeds :=
  ⟨rfl, (by decide : ¬ (0 : Int32) < 0), (by decide : ¬ (0 : Int32) < 0)⟩

/-! ## What a call can do -/

/-- The geometry a call is about to record. -/
def Pool.withGeometry (p : Pool) (bytesPerSector sectorsPerCluster : Int32) : Pool :=
  { p with gBytesPerSector := bytesPerSector, gSectorsPerCluster := sectorsPerCluster }

/-- The pool after a granted allocation whose base could be had. -/
def Pool.opened (p : Pool) (sectorsPerCluster uid : Int32) (base slack : Nat) : Pool :=
  { p with
    gBytesPerSector := sdDefaultSectorSize, gSectorsPerCluster := sectorsPerCluster,
    gClusterPoolInitialized := true, gClusterPool := uid, gClusterPoolPtr := base,
    blocks := ⟨uid, base, (sdDefaultSectorSize * sectorsPerCluster).toUInt32.toNat + slack⟩
      :: p.blocks }

/-- The pool after its block was given back. -/
def Pool.closed (p : Pool) : Pool :=
  { p with
    gClusterPoolInitialized := false, blocks := p.blocks.filter (fun b => b.uid != p.gClusterPool) }

@[simp] theorem Pool.clusterBytes_opened (p : Pool) (spc uid : Int32) (base slack : Nat) :
    (p.opened spc uid base slack).clusterBytes =
      (sdDefaultSectorSize * spc).toUInt32.toNat := rfl

@[simp] theorem Pool.capacity_opened (p : Pool) (spc uid : Int32) (base slack : Nat) :
    (p.opened spc uid base slack).capacity =
      (sdDefaultSectorSize * spc).toUInt32.toNat + slack :=
  Heap.capacity_cons

theorem poolInit_of_set {k : PoolAnswers} {bps spc : Int32} {p : Pool}
    (h : p.gClusterPoolInitialized = true) : poolInit k bps spc p = (-1, p) :=
  if_pos h

/-- The outcomes of an initialization: refused at the flag, refused at the
sector size, no block, a block but no base, and success. -/
theorem poolInit_cases (k : PoolAnswers) (bps spc : Int32) (p : Pool) :
    (p.gClusterPoolInitialized = true ∧ poolInit k bps spc p = (-1, p)) ∨
    (p.gClusterPoolInitialized = false ∧ bps ≠ sdDefaultSectorSize ∧
      poolInit k bps spc p = (-2, p)) ∨
    (p.gClusterPoolInitialized = false ∧ bps = sdDefaultSectorSize ∧
      ∃ code neg, k.alloc = .refused code neg ∧
        poolInit k bps spc p =
          (code, { p.withGeometry bps spc with gClusterPool := code })) ∨
    (p.gClusterPoolInitialized = false ∧ bps = sdDefaultSectorSize ∧
      ∃ uid nonneg base slack, k.alloc = .granted uid nonneg base slack ∧ k.base < 0 ∧
        poolInit k bps spc p =
          (k.base, { p.withGeometry bps spc with
            gClusterPool := uid,
            blocks := ⟨uid, base, (bps * spc).toUInt32.toNat + slack⟩ :: p.blocks })) ∨
    (p.gClusterPoolInitialized = false ∧ bps = sdDefaultSectorSize ∧
      ∃ uid nonneg base slack, k.alloc = .granted uid nonneg base slack ∧ ¬ k.base < 0 ∧
        poolInit k bps spc p = (0, p.opened spc uid base slack)) := by
  cases hflag : p.gClusterPoolInitialized with
  | true => exact Or.inl ⟨rfl, poolInit_of_set hflag⟩
  | false =>
      right
      by_cases hbps : bps = sdDefaultSectorSize
      · right
        cases halloc : k.alloc with
        | refused code neg =>
            left
            refine ⟨rfl, hbps, code, neg, rfl, ?_⟩
            simp [poolInit, hflag, hbps, halloc, allocMemBlock, neg, Pool.withGeometry]
        | granted uid nonneg base slack =>
            have huid : ¬ uid < 0 := Int32.not_lt.mpr nonneg
            right
            by_cases hbase : k.base < 0
            · left
              refine ⟨rfl, hbps, uid, nonneg, base, slack, rfl, hbase, ?_⟩
              simp [poolInit, hflag, hbps, halloc, allocMemBlock, huid, getMemBlockBase,
                hbase, Pool.withGeometry, Pool.clusterBytes, Pool.clusterSize]
            · right
              refine ⟨rfl, hbps, uid, nonneg, base, slack, rfl, hbase, ?_⟩
              simp [poolInit, hflag, hbps, halloc, allocMemBlock, huid, getMemBlockBase,
                hbase, Pool.opened, Pool.clusterBytes, Pool.clusterSize]
      · left
        exact ⟨rfl, hbps, by simp [poolInit, hflag, hbps]⟩

/-- The outcomes of a deinitialization: nothing to free, the free failed, success. -/
theorem poolDeinit_cases (k : PoolAnswers) (p : Pool) :
    (p.gClusterPoolInitialized = false ∧ poolDeinit k p = (-1, p)) ∨
    (p.gClusterPoolInitialized = true ∧ k.free < 0 ∧ poolDeinit k p = (k.free, p)) ∨
    (p.gClusterPoolInitialized = true ∧ ¬ k.free < 0 ∧ poolDeinit k p = (0, p.closed)) := by
  cases hflag : p.gClusterPoolInitialized with
  | false => exact Or.inl ⟨rfl, by simp [poolDeinit, hflag]⟩
  | true =>
      right
      by_cases hfree : k.free < 0
      · have hset : ¬ p.gClusterPoolInitialized = false := by simp [hflag]
        refine Or.inl ⟨rfl, hfree, ?_⟩
        simp only [poolDeinit, if_neg hset, freeMemBlock, if_pos hfree]
      · exact Or.inr ⟨rfl, hfree,
          by simp [poolDeinit, hflag, freeMemBlock, hfree, Pool.closed]⟩

/-! ## When a call answers zero -/

/-- There is no pool, the sector size is the default one, and the kernel gives a block and
its base. -/
def Pool.InitCompletes (k : PoolAnswers) (bytesPerSector : Int32) (p : Pool) : Prop :=
  p.gClusterPoolInitialized = false ∧ bytesPerSector = sdDefaultSectorSize ∧
    k.alloc.isGranted = true ∧ ¬ k.base < 0

/-- There is a pool and the kernel takes its block back. -/
def Pool.DeinitCompletes (k : PoolAnswers) (p : Pool) : Prop :=
  p.gClusterPoolInitialized = true ∧ ¬ k.free < 0

/-- An initialization answers zero and opens the pool, or answers a negative code. -/
theorem poolInit_completes_or (k : PoolAnswers) (bps spc : Int32) (p : Pool) :
    (p.InitCompletes k bps ∧ (poolInit k bps spc p).1 = 0 ∧
      ∃ uid base slack, (poolInit k bps spc p).2 = p.opened spc uid base slack) ∨
    (¬ p.InitCompletes k bps ∧ (poolInit k bps spc p).1 < 0 ∧
      (poolInit k bps spc p).2.gClusterPoolInitialized = p.gClusterPoolInitialized) := by
  rcases poolInit_cases k bps spc p with
    ⟨hf, h⟩ | ⟨hf, hbps, h⟩ | ⟨hf, hbps, code, hneg, halloc, h⟩ |
    ⟨hf, hbps, uid, _, base, slack, halloc, hbase, h⟩ |
    ⟨hf, hbps, uid, _, base, slack, halloc, hbase, h⟩
  · right
    rw [h]
    exact ⟨fun hc => absurd hc.1 (ne_false_of_eq_true hf), (by decide : (-1 : Int32) < 0), rfl⟩
  · right
    rw [h]
    exact ⟨fun hc => hbps hc.2.1, (by decide : (-2 : Int32) < 0), rfl⟩
  · right
    rw [h]
    refine ⟨fun hc => ?_, hneg, rfl⟩
    rw [Pool.InitCompletes, halloc] at hc
    exact Bool.false_ne_true hc.2.2.1
  · right
    rw [h]
    exact ⟨fun hc => hc.2.2.2 hbase, hbase, rfl⟩
  · left
    rw [h]
    exact ⟨⟨hf, hbps, by rw [halloc]; rfl, hbase⟩, rfl, uid, base, slack, rfl⟩

/-- A deinitialization answers zero and closes the pool, or answers a negative code and
leaves it as it was. -/
theorem poolDeinit_completes_or (k : PoolAnswers) (p : Pool) :
    (p.DeinitCompletes k ∧ poolDeinit k p = (0, p.closed)) ∨
    (¬ p.DeinitCompletes k ∧ ∃ code < 0, poolDeinit k p = (code, p)) := by
  rcases poolDeinit_cases k p with ⟨hf, h⟩ | ⟨_, hfree, h⟩ | ⟨hf, hfree, h⟩
  · exact Or.inr ⟨fun hc => absurd hc.1 (ne_true_of_eq_false hf), -1,
      (by decide : (-1 : Int32) < 0), h⟩
  · exact Or.inr ⟨fun hc => hc.2 hfree, k.free, hfree, h⟩
  · exact Or.inl ⟨⟨hf, hfree⟩, h⟩

end PsvEmmc
