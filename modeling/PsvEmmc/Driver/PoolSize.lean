/-
# `PsvEmmc.Driver.PoolSize` — does the kernel pool hold a cluster?

`readCluster` asks the storage driver to write `g_sectorsPerCluster` sectors
of 512 bytes into the pool.  The pool was allocated with the `int` product
`g_bytesPerSector * g_sectorsPerCluster`, and nothing checks
`sectorsPerCluster` before the product is taken.  Below `2^23` sectors the
product is exact and the block is large enough in every run of the exported
functions; from `2^23` on the product has wrapped and the block may hold
almost nothing.
-/
import PsvEmmc.Driver
import PsvEmmc.Lib.Runs

namespace PsvEmmc

open Words Memory Runs

/-! ## Runs of the exported functions -/

/-- A call of an exported function that reads or changes the pool, with the kernel's answers. -/
inductive DriverCall where
  | init (k : DriverAnswers) (bytesPerSector sectorsPerCluster : Int32)
  | deinit (k : DriverAnswers)
  | readCluster (dev : Device) (k : DriverAnswers) (cluster : Int32)

def Driver.call (d : Driver) : DriverCall → Driver
  | .init k bps spc => (psvemmcInitialize k bps spc d).2
  | .deinit k => Prod.snd <| psvemmcDeinitialize k d
  | .readCluster dev k cluster => (readClusterOn dev k cluster d).2.2

/-- The pool block behind the pointer holds the sectors a cluster read asks for. -/
def Driver.PoolHoldsCluster (d : Driver) : Prop :=
  d.pool.gClusterPoolInitialized = true →
    ∃ b ∈ d.pool.blocks, b.uid = d.pool.gClusterPool ∧ b.base = d.pool.gClusterPoolPtr ∧
      512 * d.pool.gSectorsPerCluster.toInt ≤ b.size

/-- The size product of an initialization does not wrap, or the call is refused before it is
taken. -/
def Driver.ProductFits (d : Driver) (bytesPerSector sectorsPerCluster : Int32) : Prop :=
  d.pool.gClusterPoolInitialized = true ∨ bytesPerSector ≠ sdDefaultSectorSize ∨
    512 * sectorsPerCluster.toInt < 2 ^ 32

def DriverCall.SizeFits (d : Driver) : DriverCall → Prop
  | .init _ bps spc => d.ProductFits bps spc
  | _ => True

/-- Below the wrap the requested size is at least the exact one; a negative count asks for more. -/
theorem le_requested_size {spc : Int32} (h : 512 * spc.toInt < 2 ^ 32) :
    512 * spc.toInt ≤ ((sdDefaultSectorSize * spc).toUInt32.toNat : Int) := by
  rw [toNat_toUInt32_mul, show sdDefaultSectorSize.toInt = 512 from rfl]
  omega

/-- From the wrap on the requested size is less than the exact one. -/
theorem requested_size_lt {spc : Int32} (h : ¬ 512 * spc.toInt < 2 ^ 32) :
    ((sdDefaultSectorSize * spc).toUInt32.toNat : Int) < 512 * spc.toInt := by
  rw [toNat_toUInt32_mul, show sdDefaultSectorSize.toInt = 512 from rfl]
  omega

/-- One call that fits keeps the pool large enough. -/
theorem Driver.call_holds (d : Driver) (c : DriverCall) (hd : d.PoolHoldsCluster)
    (hfit : c.SizeFits d) : (d.call c).PoolHoldsCluster := by
  cases c with
  | init k bps spc =>
      rcases poolInit_cases k.pool bps spc d.pool with
        ⟨_, h⟩ | ⟨_, _, h⟩ | ⟨hf, _, code, _, _, h⟩ | ⟨hf, _, uid, _, base, slack, _, _, h⟩ |
        ⟨hf, hbps, uid, _, base, slack, _, _, h⟩
      · simpa only [Driver.call, psvemmcInitialize, h] using hd
      · simpa only [Driver.call, psvemmcInitialize, h] using hd
      · intro hset
        simp [Driver.call, psvemmcInitialize, h, Pool.withGeometry, hf] at hset
      · intro hset
        simp [Driver.call, psvemmcInitialize, h, Pool.withGeometry, hf] at hset
      · intro _
        have hsmall : 512 * spc.toInt < 2 ^ 32 := by
          rcases hfit with hset | hne | hlt
          · exact absurd hset (by simp [hf])
          · exact absurd hbps hne
          · exact hlt
        have hle := le_requested_size hsmall
        simp only [Driver.call, psvemmcInitialize, h, Pool.opened]
        refine ⟨_, List.mem_cons_self, rfl, rfl, ?_⟩
        push_cast
        omega
  | deinit k =>
      rcases poolDeinit_cases k.pool d.pool with ⟨_, h⟩ | ⟨_, _, h⟩ | ⟨_, _, h⟩
      · simpa only [Driver.call, psvemmcDeinitialize, h] using hd
      · simpa only [Driver.call, psvemmcDeinitialize, h] using hd
      · intro hset
        simp [Driver.call, psvemmcDeinitialize, h, Pool.closed] at hset
  | readCluster dev k cluster =>
      obtain ⟨mem, h⟩ := readClusterOn_pool dev k cluster d
      show (readClusterOn dev k cluster d).2.2.PoolHoldsCluster
      rw [h]
      exact hd

/-- An initialization whose product wraps: some answer of the kernel leaves the pool too small. -/
theorem Driver.call_wrapped (d : Driver) (bps spc : Int32) (hwrap : ¬ d.ProductFits bps spc) :
    ∃ k, ¬ (d.call (.init k bps spc)).PoolHoldsCluster := by
  obtain ⟨hf, hbps, hbig⟩ : d.pool.gClusterPoolInitialized = false ∧
      bps = sdDefaultSectorSize ∧ ¬ 512 * spc.toInt < 2 ^ 32 := by
    simp only [Driver.ProductFits, not_or] at hwrap
    exact ⟨by simpa using hwrap.1, not_not.mp hwrap.2.1, hwrap.2.2⟩
  -- A base no other block has, so that only the new block is behind the pointer.
  obtain ⟨base, hbase⟩ : ∃ base, ∀ b ∈ d.pool.blocks, b.base ≠ base := by
    refine ⟨(d.pool.blocks.map (·.base)).sum + 1, fun b hb heq => ?_⟩
    have := List.le_sum_of_mem (List.mem_map_of_mem (f := (·.base)) hb)
    omega
  refine ⟨{ DriverAnswers.succeed with pool := ⟨.granted 1 (by decide) base 0, 0, 0⟩ },
    fun hholds => ?_⟩
  have hcall : (d.call (.init
      { DriverAnswers.succeed with pool := ⟨.granted 1 (by decide) base 0, 0, 0⟩ } bps spc)).pool
      = d.pool.opened spc 1 base 0 := by
    simp [Driver.call, psvemmcInitialize, poolInit, hf, hbps, allocMemBlock,
      getMemBlockBase, Pool.opened, Pool.clusterBytes, Pool.clusterSize]
  rw [Driver.PoolHoldsCluster, hcall] at hholds
  obtain ⟨b, hmem, _, hptr, hsize⟩ := hholds rfl
  have hlt := requested_size_lt hbig
  rcases List.mem_cons.mp hmem with rfl | hold
  · simp only [Pool.opened] at hsize
    push_cast at hsize
    omega
  · exact hbase b hold hptr

/-! ## The result -/

/-- **The pool holds a cluster as long as no size product wraps.**  From a
module without a pool on, in every run of the exported functions in which
every initialization that takes the product takes one below `2^32`, the block
behind the pointer holds `512 * g_sectorsPerCluster` bytes.  From any state,
an initialization outside this condition breaks it for some answer of the
kernel. -/
theorem driver_pool_holds_cluster (d : Driver) :
    (∀ calls : List DriverCall, d.pool.gClusterPoolInitialized = false →
      Along Driver.call (fun d c => c.SizeFits d) d calls →
      (run Driver.call d calls).PoolHoldsCluster) ∧
    (∀ bps spc : Int32, ¬ d.ProductFits bps spc →
      ∃ k, ¬ (d.call (.init k bps spc)).PoolHoldsCluster) := by
  refine ⟨?_, d.call_wrapped⟩
  intro calls hd hfit
  refine inv_run (fun d c hd hc => Driver.call_holds d c hd hc) ?_ hfit
  intro hset
  exact absurd hset (ne_true_of_eq_false hd)

/-- A cluster read of an ordinary pool, and the smallest geometry that wraps. -/
theorem driver_pool_eight_sectors :
    (run Driver.call { gEmmcCtxInitialized := true }
      [.init .succeed 512 8, .readCluster .emmc .succeed 5]).PoolHoldsCluster ∧
    ∃ k, ¬ (Driver.call {} (.init k 512 8388608)).PoolHoldsCluster :=
  ⟨(driver_pool_holds_cluster { gEmmcCtxInitialized := true }).1
      [.init .succeed 512 8, .readCluster .emmc .succeed 5] rfl
      ⟨Or.inr (Or.inr (by decide)), trivial, trivial⟩,
    (driver_pool_holds_cluster {}).2 512 8388608 (by unfold Driver.ProductFits; decide)⟩

/-- The product of `512` and `8388609` is `2^32 + 512`: one sector is allocated and
`8388609` sectors are read into it. -/
theorem driver_pool_too_small :
    ¬ ∀ calls : List DriverCall, (run Driver.call {} calls).PoolHoldsCluster := by
  intro h
  obtain ⟨b, hb, _, _, hsize⟩ := h [.init .succeed 512 8388609] rfl
  have hblocks : (run Driver.call {} [.init .succeed 512 8388609]).pool.blocks =
      [⟨1, 0x20000, 512⟩] := by decide
  rw [hblocks] at hb
  obtain rfl := List.mem_singleton.mp hb
  exact absurd hsize (by decide)

end PsvEmmc
