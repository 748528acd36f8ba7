/-
# `PsvEmmc.Driver` — the kernel module's exported functions

`driver/psvemmc.c` exports fourteen functions: the two pool functions and,
for each of the three devices, reads and writes of a sector or a cluster.
The three functions of a kind have one text, in which the context flag and
the storage call are the device's, so a kind is one definition with the
device as a parameter and every exported name is an instance of it.

The storage driver (`ksceSdifReadSectorAsync`, `ksceMsifReadSector`) and
`ksceKernelMemcpyKernelToUser` are not in the repository.  Their answers are
parameters: a return code, and for a storage read also the bytes it puts into
the buffer.  A buffer in user memory is a result, `none` when the copy was
not made.
-/
import PsvEmmc.Pool

namespace PsvEmmc

open Words Memory

/-! ## State and answers -/

/-- The globals of the module: which contexts are initialized, and the pool. -/
structure Driver where
  gEmmcCtxInitialized : Bool := false
  gGcCtxInitialized : Bool := false
  gMsCtxInitialized : Bool := false
  pool : Pool := {}

def Driver.ctxInitialized (d : Driver) : Device → Bool
  | .emmc => d.gEmmcCtxInitialized
  | .gc => d.gGcCtxInitialized
  | .ms => d.gMsCtxInitialized

/-- What the kernel answers to the module while one exported function runs. -/
structure DriverAnswers where
  pool : PoolAnswers
  /-- A storage read of `nSectors` from `sector` on: its code and the bytes read. -/
  storage : Device → (sector nSectors : Int32) → Int32 × (Nat → UInt8)
  /-- `ksceKernelMemcpyKernelToUser`. -/
  memcpy : Int32

/-- No call fails. -/
structure DriverAnswers.Succeeds (k : DriverAnswers) : Prop where
  pool : k.pool.Succeeds
  storage : ∀ dev sector nSectors, ¬ (k.storage dev sector nSectors).1 < 0
  memcpy : ¬ k.memcpy < 0

/-- No call fails and every storage read gives zeros. -/
def DriverAnswers.succeed : DriverAnswers where
  pool := .grant 0x20000
  storage := fun _ _ _ => (0, fun _ => 0)
  memcpy := 0

theorem DriverAnswers.succeed_succeeds : DriverAnswers.succeed.Succeeds :=
  ⟨PoolAnswers.grant_succeeds _, fun _ _ _ => (by decide : ¬ (0 : Int32) < 0),
    (by decide : ¬ (0 : Int32) < 0)⟩

/-! ## The pool functions -/

def psvemmcInitialize (k : DriverAnswers) (bytesPerSector sectorsPerCluster : Int32)
    (d : Driver) : Int32 × Driver :=
  let (res, pool) := poolInit k.pool bytesPerSector sectorsPerCluster d.pool
  (res, { d with pool := pool })

def psvemmcDeinitialize (k : DriverAnswers) (d : Driver) : Int32 × Driver :=
  let (res, pool) := poolDeinit k.pool d.pool
  (res, { d with pool := pool })

/-! ## Sectors -/

/-- `readSector`, `readSectorGc` and `readSectorMs`, the code and the caller's buffer afterwards. -/
def readSectorOn (dev : Device) (k : DriverAnswers) (sector : Int32) (buffer : Sector)
    (d : Driver) : Int32 × Sector :=
  if d.ctxInitialized dev = false then (-1, buffer)
  else
    let (res1, bytes) := k.storage dev sector 1
    let bufferKernel : Sector := Vector.ofFn fun i => bytes i
    if res1 < 0 then (res1, buffer)
    else if k.memcpy < 0 then (k.memcpy, buffer)
    else (0, bufferKernel)

def readSector := readSectorOn .emmc
def readSectorGc := readSectorOn .gc
def readSectorMs := readSectorOn .ms

/-- `writeSector`, `writeSectorGc` and `writeSectorMs`: not implemented. -/
def writeSectorOn (dev : Device) (_sector : Int32) (_buffer : Sector) (d : Driver) : Int32 :=
  if d.ctxInitialized dev = false then -1 else -2

def writeSector := writeSectorOn .emmc
def writeSectorGc := writeSectorOn .gc
def writeSectorMs := writeSectorOn .ms

/-! ## Clusters -/

/-- `readCluster`, `readClusterGc` and `readClusterMs`: the code, what was copied to the
caller's buffer, and the module afterwards.  The sector number is an `int` product. -/
def readClusterOn (dev : Device) (k : DriverAnswers) (cluster : Int32) (d : Driver) :
    Int32 × Option (List UInt8) × Driver :=
  if d.ctxInitialized dev = false then (-1, none, d)
  else if d.pool.gClusterPoolInitialized = false then (-2, none, d)
  else
    let nSectors := d.pool.gSectorsPerCluster
    let (res1, bytes) := k.storage dev (nSectors * cluster) nSectors
    let mem := fill d.pool.mem d.pool.gClusterPoolPtr (0x200 * nSectors.toInt.toNat) bytes
    let d := { d with pool := { d.pool with mem := mem } }
    if res1 < 0 then (res1, none, d)
    else if k.memcpy < 0 then (k.memcpy, none, d)
    else (0, some (load mem d.pool.gClusterPoolPtr d.pool.clusterBytes), d)

def readCluster := readClusterOn .emmc
def readClusterGc := readClusterOn .gc
def readClusterMs := readClusterOn .ms

/-- `writeCluster`, `writeClusterGc` and `writeClusterMs`: not implemented. -/
def writeClusterOn (dev : Device) (_cluster : Int32) (_buffer : List UInt8) (d : Driver) : Int32 :=
  if d.ctxInitialized dev = false then -1
  else if d.pool.gClusterPoolInitialized = false then -2
  else -3

def writeCluster := writeClusterOn .emmc
def writeClusterGc := writeClusterOn .gc
def writeClusterMs := writeClusterOn .ms

/-! ## What the reads do -/

/-- A cluster read touches nothing of the pool but the bytes in it. -/
theorem readClusterOn_pool (dev : Device) (k : DriverAnswers) (cluster : Int32) (d : Driver) :
    ∃ mem, (readClusterOn dev k cluster d).2.2 = { d with pool := { d.pool with mem := mem } } := by
  unfold readClusterOn
  split
  · exact ⟨d.pool.mem, rfl⟩
  · split
    · exact ⟨d.pool.mem, rfl⟩
    · dsimp only
      split
      · exact ⟨_, rfl⟩
      · split <;> exact ⟨_, rfl⟩

/-- A copy is made exactly when the read answers zero, and then it has the module's own
cluster size and the module's pool was initialized. -/
theorem readClusterOn_copied (dev : Device) (k : DriverAnswers) (cluster : Int32) (d : Driver) :
    ((readClusterOn dev k cluster d).1 ≠ 0 ∧ (readClusterOn dev k cluster d).2.1 = none) ∨
    ((readClusterOn dev k cluster d).1 = 0 ∧ d.pool.gClusterPoolInitialized = true ∧
      ∃ bytes, (readClusterOn dev k cluster d).2.1 = some bytes ∧
        bytes.length = d.pool.clusterBytes) := by
  unfold readClusterOn
  split
  · exact Or.inl ⟨(by decide : (-1 : Int32) ≠ 0), rfl⟩
  · split
    · exact Or.inl ⟨(by decide : (-2 : Int32) ≠ 0), rfl⟩
    · rename_i _ hpool
      dsimp only
      split
      · rename_i hres
        exact Or.inl ⟨Int32.ne_of_lt hres, rfl⟩
      · split
        · rename_i hcpy
          exact Or.inl ⟨Int32.ne_of_lt hcpy, rfl⟩
        · exact Or.inr ⟨rfl, by simpa using hpool, _, rfl, length_load _ _ _⟩

end PsvEmmc
