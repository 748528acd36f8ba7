/-
# `PsvEmmc.Driver.SharedPool` — cluster reads of several threads through one pool

`readCluster` and its two siblings work in two steps: the device read puts a
cluster into the module's pool, the copy takes the pool to the caller.  They
are exported to every process and take no lock, so between the two steps of
one call another call may put its own cluster into the pool.

Here the steps are apart: `readClusterDevice` is a call up to the device read
and `readClusterCopy` what is left of it, and one after the other they are
`readClusterOn`.  The model keeps the calls between their two steps and the
calls that have returned.  While every device read leaves in the pool what
the calls under way are about to copy, the pool is the cluster of each of
them (`SharedSt.Inv`); the first read that does not makes one of them return
a cluster it never asked for.
-/
import PsvEmmc.Driver
import PsvEmmc.Lib.Runs

namespace PsvEmmc

open Words Memory Runs

/-! ## The two steps of a cluster read -/

/-- `readCluster`, `readClusterGc` and `readClusterMs` up to the device read, which answers
`answer`: the code if the call ends here, and the module. -/
def readClusterDevice (dev : Device) (answer : Int32 × (Nat → UInt8)) (d : Driver) :
    Option Int32 × Driver :=
  if d.ctxInitialized dev = false then (some (-1), d)
  else if d.pool.gClusterPoolInitialized = false then (some (-2), d)
  else
    let mem := fill d.pool.mem d.pool.gClusterPoolPtr
      (0x200 * d.pool.gSectorsPerCluster.toInt.toNat) answer.2
    let d := { d with pool := { d.pool with mem := mem } }
    if answer.1 < 0 then (some answer.1, d) else (none, d)

/-- The copy to the caller, the same in the three functions. -/
def readClusterCopy (memcpy : Int32) (d : Driver) : Int32 × Option (List UInt8) :=
  if memcpy < 0 then (memcpy, none)
  else (0, some (load d.pool.mem d.pool.gClusterPoolPtr d.pool.clusterBytes))

/-- The two steps in a row are the whole call. -/
theorem readClusterOn_eq_steps (dev : Device) (k : DriverAnswers) (cluster : Int32) (d : Driver) :
    readClusterOn dev k cluster d =
      match readClusterDevice dev (k.storage dev (d.pool.gSectorsPerCluster * cluster)
          d.pool.gSectorsPerCluster) d with
      | (some res, d) => (res, none, d)
      | (none, d) => ((readClusterCopy k.memcpy d).1, (readClusterCopy k.memcpy d).2, d) := by
  unfold readClusterOn readClusterDevice readClusterCopy
  split
  · rfl
  · split
    · rfl
    · dsimp only
      split
      · rfl
      · split <;> rfl

/-! ## Many threads -/

/-- A call of one of the three functions. -/
structure ClusterCall (τ : Type*) where
  thread : τ
  dev : Device
  cluster : Int32
  deriving DecidableEq

/-- A call that has returned: its code and what was copied to its caller. -/
structure ClusterReturn (τ : Type*) where
  call : ClusterCall τ
  code : Int32
  copied : Option (List UInt8)

/-- A step of a call, with what the kernel answers to it. -/
inductive ClusterStep (τ : Type*) where
  | reads (c : ClusterCall τ) (answer : Int32 × (Nat → UInt8))
  | copies (t : τ) (memcpy : Int32)

/-- The module, the calls between their two steps, and the calls that have returned. -/
structure SharedSt (τ : Type*) where
  driver : Driver
  copying : List (ClusterCall τ) := []
  returned : List (ClusterReturn τ) := []

variable {τ : Type*} [DecidableEq τ]

def SharedSt.step (s : SharedSt τ) : ClusterStep τ → SharedSt τ
  | .reads c answer =>
      match readClusterDevice c.dev answer s.driver with
      | (some res, d) => { s with driver := d, returned := ⟨c, res, none⟩ :: s.returned }
      | (none, d) => { s with driver := d, copying := c :: s.copying }
  | .copies t memcpy =>
      match s.copying.find? (fun c => c.thread = t) with
      | none => s
      | some c =>
          { s with
            copying := s.copying.eraseP (fun c => c.thread = t)
            returned := ⟨c, (readClusterCopy memcpy s.driver).1,
              (readClusterCopy memcpy s.driver).2⟩ :: s.returned }

/-! ## What a call should deliver -/

/-- The cluster a call asks for: `g_sectorsPerCluster` sectors of its device from
`g_sectorsPerCluster * cluster` on, as exact numbers. -/
def ClusterCall.wanted (disk : Device → List Sector) (spc : Int32) (c : ClusterCall τ) :
    List UInt8 :=
  sectorBytes (disk c.dev) (spc.toInt * c.cluster.toInt).toNat spc.toInt.toNat

/-- A call that returned zero has delivered its cluster. -/
def ClusterReturn.Delivered (disk : Device → List Sector) (spc : Int32) (r : ClusterReturn τ) :
    Prop :=
  r.code = 0 → r.copied = some (r.call.wanted disk spc)

/-- The pool is initialized for clusters of `g_sectorsPerCluster` sectors, and the size of one
does not wrap. -/
structure Driver.Initialised (d : Driver) : Prop where
  flag : d.pool.gClusterPoolInitialized = true
  bps : d.pool.gBytesPerSector = sdDefaultSectorSize
  nonneg : 0 ≤ d.pool.gSectorsPerCluster.toInt
  size : 512 * d.pool.gSectorsPerCluster.toInt < 2 ^ 32

/-- A device read that succeeds reads inside the device, and gives its sectors. -/
def StorageReads (disk : Device → List Sector) (dev : Device) (sector nSectors : Int32)
    (answer : Int32 × (Nat → UInt8)) : Prop :=
  0 ≤ answer.1 → 0 ≤ sector.toInt ∧
    sector.toInt.toNat + nSectors.toInt.toNat ≤ (disk dev).length ∧
    (List.range (0x200 * nSectors.toInt.toNat)).map answer.2 =
      sectorBytes (disk dev) sector.toInt.toNat nSectors.toInt.toNat

/-- A thread makes one call at a time, its sector number is an `int`, and the storage driver
reads the devices. -/
def SharedSt.Follows (disk : Device → List Sector) (s : SharedSt τ) : ClusterStep τ → Prop
  | .reads c answer =>
      c.thread ∉ s.copying.map ClusterCall.thread ∧
      (s.driver.pool.gSectorsPerCluster * c.cluster).toInt =
        s.driver.pool.gSectorsPerCluster.toInt * c.cluster.toInt ∧
      StorageReads disk c.dev (s.driver.pool.gSectorsPerCluster * c.cluster)
        s.driver.pool.gSectorsPerCluster answer
  | .copies t _ => t ∈ s.copying.map ClusterCall.thread

/-- A device read leaves the pool as the calls under way need it: there is none, or their
clusters have the same bytes. -/
def SharedSt.NoOverlap (disk : Device → List Sector) (s : SharedSt τ) : ClusterStep τ → Prop
  | .reads c answer => s.driver.ctxInitialized c.dev = true → ∀ c' ∈ s.copying,
      (List.range s.driver.pool.clusterBytes).map answer.2 =
        c'.wanted disk s.driver.pool.gSectorsPerCluster
  | .copies _ _ => True

def ClusterStep.IsCopy : ClusterStep τ → Prop
  | .copies _ _ => True
  | .reads _ _ => False

/-! ## The pool between the steps -/

def Driver.withMem (d : Driver) (mem : Mem) : Driver :=
  { d with pool := { d.pool with mem := mem } }

/-- The bytes that a copy would take. -/
def Driver.poolBytes (d : Driver) : List UInt8 :=
  load d.pool.mem d.pool.gClusterPoolPtr d.pool.clusterBytes

theorem Driver.Initialised.clusterBytes {d : Driver} (h : d.Initialised) :
    d.pool.clusterBytes = 0x200 * d.pool.gSectorsPerCluster.toInt.toNat := by
  have hmul := toNat_toUInt32_mul sdDefaultSectorSize d.pool.gSectorsPerCluster
  rw [show sdDefaultSectorSize.toInt = 512 from rfl] at hmul
  have hnonneg := h.nonneg
  have hsize := h.size
  rw [Pool.clusterBytes, Pool.clusterSize, h.bps]
  omega

/-- A successful `psvemmcInitialize` initializes the module, unless the size wraps. -/
theorem initialised_of_psvemmcInitialize {k : DriverAnswers} {bps spc : Int32} {d : Driver}
    (hnonneg : 0 ≤ spc.toInt) (hsize : 512 * spc.toInt < 2 ^ 32)
    (hres : (psvemmcInitialize k bps spc d).1 = 0) :
    (psvemmcInitialize k bps spc d).2.Initialised := by
  simp only [psvemmcInitialize] at hres ⊢
  rcases poolInit_cases k.pool bps spc d.pool with ⟨_, h⟩ | ⟨_, _, h⟩ | ⟨_, _, code, neg, _, h⟩ |
    ⟨_, _, _, _, _, _, _, hneg, h⟩ | ⟨_, _, _, _, _, _, _, _, h⟩
  · rw [h] at hres
    exact absurd hres (by decide : ¬ (-1 : Int32) = 0)
  · rw [h] at hres
    exact absurd hres (by decide : ¬ (-2 : Int32) = 0)
  · rw [h] at hres
    exact absurd hres (Int32.ne_of_lt neg)
  · rw [h] at hres
    exact absurd hres (Int32.ne_of_lt hneg)
  · rw [h]
    exact ⟨rfl, rfl, hnonneg, hsize⟩

/-- What the device read of a call does to an initialized module. -/
theorem readClusterDevice_cases (dev : Device) (answer : Int32 × (Nat → UInt8)) {d : Driver}
    (h : d.Initialised) :
    (d.ctxInitialized dev = false ∧ readClusterDevice dev answer d = (some (-1), d)) ∨
    (d.ctxInitialized dev = true ∧ ∃ d', d'.Initialised ∧
      d'.pool.gSectorsPerCluster = d.pool.gSectorsPerCluster ∧
      d'.ctxInitialized = d.ctxInitialized ∧
      d'.poolBytes = (List.range d.pool.clusterBytes).map answer.2 ∧
      readClusterDevice dev answer d =
        (if answer.1 < 0 then some answer.1 else none, d')) := by
  unfold readClusterDevice
  cases hctx : d.ctxInitialized dev with
  | false => exact Or.inl ⟨rfl, rfl⟩
  | true =>
      refine Or.inr ⟨rfl, d.withMem (fill d.pool.mem d.pool.gClusterPoolPtr
        (0x200 * d.pool.gSectorsPerCluster.toInt.toNat) answer.2),
        ⟨h.flag, h.bps, h.nonneg, h.size⟩, rfl, rfl, ?_, ?_⟩
      · show load (fill _ _ _ _) d.pool.gClusterPoolPtr d.pool.clusterBytes = _
        rw [h.clusterBytes]
        exact load_fill _ _ _ _
      · rw [if_neg (by decide), if_neg (ne_false_of_eq_true h.flag)]
        dsimp only
        split <;> rfl

/-- The pool holds the cluster of every call under way, and every call that has returned zero
has delivered its own. -/
structure SharedSt.Inv (disk : Device → List Sector) (spc : Int32) (s : SharedSt τ) : Prop where
  initialised : s.driver.Initialised
  spc_eq : s.driver.pool.gSectorsPerCluster = spc
  threads : (s.copying.map ClusterCall.thread).Nodup
  pool : ∀ c ∈ s.copying, s.driver.poolBytes = c.wanted disk spc
  delivered : ∀ r ∈ s.returned, r.Delivered disk spc

omit [DecidableEq τ] in
theorem SharedSt.inv_start (disk : Device → List Sector) {d : Driver} (h : d.Initialised) :
    ({ driver := d } : SharedSt τ).Inv disk d.pool.gSectorsPerCluster :=
  ⟨h, rfl, List.nodup_nil, fun _ hc => (List.not_mem_nil hc).elim,
    fun _ hr => (List.not_mem_nil hr).elim⟩

/-- Among calls of different threads, a call is found by its thread. -/
theorem find_thread {l : List (ClusterCall τ)} (hnodup : (l.map ClusterCall.thread).Nodup)
    {c : ClusterCall τ} (hc : c ∈ l) : l.find? (fun c' => c'.thread = c.thread) = some c := by
  induction l with
  | nil => cases hc
  | cons a l ih =>
      obtain ⟨hnot, hl⟩ := List.nodup_cons.mp hnodup
      rcases List.mem_cons.mp hc with rfl | hc
      · exact List.find?_cons_of_pos (decide_eq_true rfl)
      · have hne : a.thread ≠ c.thread := fun h => hnot (h ▸ List.mem_map_of_mem hc)
        rw [List.find?_cons_of_neg (by simpa using hne)]
        exact ih hl hc

/-- The device read of a call, taken as a step. -/
theorem SharedSt.step_reads (disk : Device → List Sector) {spc : Int32} {s : SharedSt τ}
    (h : s.Inv disk spc) (c : ClusterCall τ) (answer : Int32 × (Nat → UInt8)) :
    (s.driver.ctxInitialized c.dev = false ∧
      s.step (.reads c answer) = { s with returned := ⟨c, -1, none⟩ :: s.returned }) ∨
    (s.driver.ctxInitialized c.dev = true ∧ ∃ d, d.Initialised ∧
      d.pool.gSectorsPerCluster = spc ∧
      d.poolBytes = (List.range s.driver.pool.clusterBytes).map answer.2 ∧
      ((answer.1 < 0 ∧ s.step (.reads c answer) =
          { s with driver := d, returned := ⟨c, answer.1, none⟩ :: s.returned }) ∨
        (0 ≤ answer.1 ∧ s.step (.reads c answer) =
          { s with driver := d, copying := c :: s.copying }))) := by
  rcases readClusterDevice_cases c.dev answer h.initialised with
    ⟨hctx, hread⟩ | ⟨hctx, d, hd, hspc, _, hbytes, hread⟩
  · exact Or.inl ⟨hctx, by simp only [step, hread]⟩
  · refine Or.inr ⟨hctx, d, hd, hspc.trans h.spc_eq, hbytes, ?_⟩
    by_cases hneg : answer.1 < 0
    · rw [if_pos hneg] at hread
      exact Or.inl ⟨hneg, by simp only [step, hread]⟩
    · rw [if_neg hneg] at hread
      exact Or.inr ⟨Int32.not_lt.mp hneg, by simp only [step, hread]⟩

/-- The copy of a call, taken as a step. -/
theorem SharedSt.step_copies {s : SharedSt τ} {t : τ} {c : ClusterCall τ}
    (hfind : s.copying.find? (fun c => c.thread = t) = some c) (memcpy : Int32) :
    s.step (.copies t memcpy) =
      { s with
        copying := s.copying.eraseP (fun c => c.thread = t)
        returned := ⟨c, (readClusterCopy memcpy s.driver).1,
          (readClusterCopy memcpy s.driver).2⟩ :: s.returned } := by
  simp only [step, hfind]

omit [DecidableEq τ] in
/-- A call that fails delivers nothing, and need not. -/
theorem ClusterReturn.delivered_of_neg {disk : Device → List Sector} {spc : Int32}
    {r : ClusterReturn τ} (h : r.code < 0) : r.Delivered disk spc :=
  fun hzero => absurd hzero (Int32.ne_of_lt h)

theorem SharedSt.inv_step {disk : Device → List Sector} {spc : Int32} (s : SharedSt τ)
    (e : ClusterStep τ) (h : s.Inv disk spc) (hg : s.Follows disk e ∧ s.NoOverlap disk e) :
    (s.step e).Inv disk spc := by
  cases e with
  | reads c answer =>
      obtain ⟨⟨hthread, hexact, hstorage⟩, hquiet⟩ := hg
      rw [h.spc_eq] at hexact hstorage
      rcases SharedSt.step_reads disk h c answer with ⟨_, hstep⟩ | ⟨hctx, d, hd, hspc, hbytes,
        ⟨hneg, hstep⟩ | ⟨hpos, hstep⟩⟩
      · rw [hstep]
        refine ⟨h.initialised, h.spc_eq, h.threads, h.pool, ?_⟩
        rintro r (_ | ⟨_, hr⟩)
        · exact ClusterReturn.delivered_of_neg (by decide : (-1 : Int32) < 0)
        · exact h.delivered r hr
      · -- A failed read may have written to the pool, but only what the others copy anyway.
        rw [hstep]
        refine ⟨hd, hspc, h.threads, fun c' hc' => ?_, ?_⟩
        · rw [hbytes, hquiet hctx c' hc', h.spc_eq]
        · rintro r (_ | ⟨_, hr⟩)
          · exact ClusterReturn.delivered_of_neg hneg
          · exact h.delivered r hr
      · rw [hstep]
        refine ⟨hd, hspc, List.nodup_cons.mpr ⟨hthread, h.threads⟩, ?_, h.delivered⟩
        rintro c' (_ | ⟨_, hc'⟩)
        · obtain ⟨_, _, hread⟩ := hstorage hpos
          rw [hbytes, h.initialised.clusterBytes, h.spc_eq, hread, hexact]
          rfl
        · show d.poolBytes = _
          rw [hbytes, hquiet hctx c' hc', h.spc_eq]
  | copies t memcpy =>
      obtain ⟨c, hc, rfl⟩ := List.mem_map.mp hg.1
      rw [SharedSt.step_copies (find_thread h.threads hc)]
      refine ⟨h.initialised, h.spc_eq,
        h.threads.sublist (List.eraseP_sublist.map _),
        fun c' hc' => h.pool c' (List.mem_of_mem_eraseP hc'), ?_⟩
      rintro r (_ | ⟨_, hr⟩)
      · intro hzero
        simp only [readClusterCopy] at hzero ⊢
        split at hzero
        · rename_i hneg
          exact absurd hzero (Int32.ne_of_lt hneg)
        · rename_i hneg
          rw [if_neg hneg]
          exact congrArg some (h.pool c hc)
      · exact h.delivered r hr

/-! ## The interleavings -/

/-- A copy that succeeds delivers what the pool holds, whoever put it there. -/
theorem SharedSt.copy_delivers {s : SharedSt τ} (h : (s.copying.map ClusterCall.thread).Nodup)
    {c : ClusterCall τ} (hc : c ∈ s.copying) :
    ∃ r ∈ (s.step (.copies c.thread 0)).returned,
      r.call = c ∧ r.code = 0 ∧ r.copied = some s.driver.poolBytes := by
  rw [SharedSt.step_copies (find_thread h hc)]
  exact ⟨_, List.mem_cons_self, rfl, rfl, rfl⟩

/-- A read over the pool of another call makes that call return a cluster it did not ask for. -/
theorem SharedSt.copy_of_other {disk : Device → List Sector} {spc : Int32} {s : SharedSt τ}
    (h : s.Inv disk spc) {c : ClusterCall τ} {answer : Int32 × (Nat → UInt8)}
    (hthread : c.thread ∉ s.copying.map ClusterCall.thread)
    (hover : ¬ s.NoOverlap disk (.reads c answer)) :
    ∃ t, (s.step (.reads c answer)).Follows disk (.copies t 0) ∧
      ∃ r ∈ ((s.step (.reads c answer)).step (.copies t 0)).returned, ¬ r.Delivered disk spc := by
  obtain ⟨hctx, c', hc', hbad⟩ : s.driver.ctxInitialized c.dev = true ∧ ∃ c' ∈ s.copying,
      (List.range s.driver.pool.clusterBytes).map answer.2 ≠
        c'.wanted disk s.driver.pool.gSectorsPerCluster := by
    by_contra hall
    refine hover fun hctx c' hc' => ?_
    by_contra hne
    exact hall ⟨hctx, c', hc', hne⟩
  rw [h.spc_eq] at hbad
  refine ⟨c'.thread, ?_⟩
  rcases SharedSt.step_reads disk h c answer with ⟨hno, _⟩ | ⟨_, d, _, _, hbytes,
    ⟨_, hstep⟩ | ⟨_, hstep⟩⟩
  · exact absurd hctx (ne_true_of_eq_false hno)
  · rw [hstep]
    refine ⟨List.mem_map_of_mem hc', ?_⟩
    obtain ⟨r, hr, rfl, hcode, hcopied⟩ := SharedSt.copy_delivers
      (s := { s with driver := d, returned := ⟨c, answer.1, none⟩ :: s.returned }) h.threads hc'
    exact ⟨r, hr, fun hdel =>
      hbad (hbytes.symm.trans (Option.some.inj (hcopied.symm.trans (hdel hcode))))⟩
  · rw [hstep]
    have hmem := List.mem_cons_of_mem c hc'
    refine ⟨List.mem_map_of_mem hmem, ?_⟩
    obtain ⟨r, hr, rfl, hcode, hcopied⟩ := SharedSt.copy_delivers
      (s := { s with driver := d, copying := c :: s.copying })
      (List.nodup_cons.mpr ⟨hthread, h.threads⟩) hmem
    exact ⟨r, hr, fun hdel =>
      hbad (hbytes.symm.trans (Option.some.inj (hcopied.symm.trans (hdel hcode))))⟩

omit [DecidableEq τ] in
/-- Copies put nothing into the pool. -/
theorem SharedSt.noOverlap_of_isCopy (disk : Device → List Sector) (s : SharedSt τ)
    (e : ClusterStep τ) (h : e.IsCopy) : s.NoOverlap disk e := by
  cases e with
  | copies t memcpy => trivial
  | reads c answer => exact h.elim

/-- After a step that overlaps, one copy that is due delivers another call's cluster. -/
theorem SharedSt.overlapped {disk : Device → List Sector} {spc : Int32} (s : SharedSt τ)
    (e : ClusterStep τ) (h : s.Inv disk spc) (hf : s.Follows disk e)
    (hover : ¬ s.NoOverlap disk e) :
    ∃ ws, (∀ w ∈ ws, w.IsCopy) ∧ Along step (Follows disk) (s.step e) ws ∧
      ¬ ∀ r ∈ (run step (s.step e) ws).returned, r.Delivered disk spc := by
  cases e with
  | copies t memcpy => exact absurd trivial hover
  | reads c answer =>
      obtain ⟨t, hdue, r, hr, hbad⟩ := SharedSt.copy_of_other h hf.1 hover
      refine ⟨[.copies t 0], fun w hw => ?_, ⟨hdue, trivial⟩, fun hall => hbad (hall r hr)⟩
      obtain rfl := List.mem_singleton.mp hw
      trivial

/-- **Every call that returns zero delivers its own cluster**, in every way the beginnings of a
run can be completed by the copies that are due, if and only if no device read of the run puts
other bytes into the pool than those that the calls under way are to copy. -/
theorem clusters_delivered_iff (disk : Device → List Sector) (d : Driver) (hd : d.Initialised)
    (es : List (ClusterStep τ))
    (hf : Along SharedSt.step (SharedSt.Follows disk) { driver := d } es) :
    (∀ p ws, p <+: es → (∀ e ∈ ws, e.IsCopy) →
      Along SharedSt.step (SharedSt.Follows disk) { driver := d } (p ++ ws) →
      ∀ r ∈ (run SharedSt.step { driver := d } (p ++ ws)).returned,
        r.Delivered disk d.pool.gSectorsPerCluster) ↔
    Along SharedSt.step (SharedSt.NoOverlap disk) { driver := d } es := by
  exact along_iff_completions
    (Q := fun s => ∀ r ∈ s.returned, r.Delivered disk d.pool.gSectorsPerCluster)
    SharedSt.inv_step (fun s h => h.delivered) (SharedSt.noOverlap_of_isCopy disk)
    SharedSt.overlapped (SharedSt.inv_start disk hd) hf

/-! ## Two threads -/

/-- A storage driver over the devices `disk` that answers a request inside a device. -/
def storageAnswer (disk : Device → List Sector) (dev : Device) (sector nSectors : Int32) :
    Int32 × (Nat → UInt8) :=
  (0, fun i => (sectorBytes (disk dev) sector.toInt.toNat nSectors.toInt.toNat).getD i 0)

theorem storageReads_storageAnswer {disk : Device → List Sector} {dev : Device}
    {sector nSectors : Int32} (hpos : 0 ≤ sector.toInt)
    (hin : sector.toInt.toNat + nSectors.toInt.toNat ≤ (disk dev).length) :
    StorageReads disk dev sector nSectors (storageAnswer disk dev sector nSectors) :=
  fun _ => ⟨hpos, hin, map_range_getD (length_sectorBytes hin)⟩

/-- Two sectors on every device, zeros and ones. -/
def twoSectors : Device → List Sector := fun _ => [Vector.replicate 0x200 0, Vector.replicate 0x200 1]

/-- The module after `psvemmcInitialize(512, 1)`. -/
def oneSectorDriver : Driver :=
  (psvemmcInitialize DriverAnswers.succeed 512 1 { gEmmcCtxInitialized := true }).2

theorem oneSectorDriver_initialised : oneSectorDriver.Initialised :=
  initialised_of_psvemmcInitialize (by decide) (by decide) (by decide +kernel)

/-- Thread `t` reads a one-sector cluster. -/
def readsSector (t : Nat) (cluster : Int32) : ClusterStep Nat :=
  .reads ⟨t, .emmc, cluster⟩ (storageAnswer twoSectors .emmc cluster 1)

theorem follows_readsSector {s : SharedSt Nat} {t : Nat} {cluster : Int32}
    (hspc : s.driver.pool.gSectorsPerCluster = 1) (ht : t ∉ s.copying.map ClusterCall.thread)
    (hin : cluster = 0 ∨ cluster = 1) : s.Follows twoSectors (readsSector t cluster) := by
  simp only [readsSector, SharedSt.Follows, hspc]
  rcases hin with rfl | rfl
  · exact ⟨ht, by decide, storageReads_storageAnswer (by decide) (by decide)⟩
  · exact ⟨ht, by decide, storageReads_storageAnswer (by decide) (by decide)⟩

theorem follows_copies {s : SharedSt Nat} {t : Nat} {threads : List Nat}
    (h : s.copying.map ClusterCall.thread = threads) (ht : t ∈ threads) (memcpy : Int32) :
    s.Follows twoSectors (.copies t memcpy) := by
  subst h
  exact ht

/-- Two calls, one after the other: each gets its own cluster. -/
theorem clusters_delivered_in_turn :
    Along SharedSt.step (SharedSt.Follows twoSectors) { driver := oneSectorDriver }
        [readsSector 1 0, .copies 1 0, readsSector 2 1] ∧
      ∀ r ∈ (run SharedSt.step { driver := oneSectorDriver }
        ([readsSector 1 0, .copies 1 0, readsSector 2 1] ++ [.copies 2 0])).returned,
        r.Delivered twoSectors oneSectorDriver.pool.gSectorsPerCluster := by
  have hfirst : (run SharedSt.step { driver := oneSectorDriver }
      [readsSector 1 0]).copying.map ClusterCall.thread = [1] := by
    decide +kernel
  have hfree : (run SharedSt.step { driver := oneSectorDriver }
      [readsSector 1 0, .copies 1 0]).copying = [] := by
    decide +kernel
  have hsecond : (run SharedSt.step { driver := oneSectorDriver }
      [readsSector 1 0, .copies 1 0, readsSector 2 1]).copying.map ClusterCall.thread = [2] := by
    decide +kernel
  have hrun : Along SharedSt.step (SharedSt.Follows twoSectors) { driver := oneSectorDriver }
      [readsSector 1 0, .copies 1 0, readsSector 2 1] :=
    ⟨follows_readsSector (by decide +kernel) List.not_mem_nil (Or.inl rfl),
      follows_copies hfirst (List.mem_singleton_self _) 0,
      follows_readsSector (by decide +kernel) (hfree ▸ List.not_mem_nil) (Or.inr rfl), trivial⟩
  refine ⟨hrun, (clusters_delivered_iff twoSectors oneSectorDriver oneSectorDriver_initialised
    [readsSector 1 0, .copies 1 0, readsSector 2 1] hrun).mpr ⟨?_, trivial, ?_, trivial⟩
    _ [.copies 2 0] List.prefix_rfl (by simp [ClusterStep.IsCopy])
    (along_append.mpr ⟨hrun, follows_copies hsecond (List.mem_singleton_self _) 0, trivial⟩)⟩
  · intro _ c hc
    exact (List.not_mem_nil hc).elim
  · intro _ c hc
    exact (List.not_mem_nil (hfree ▸ hc)).elim

/-- The second thread reads its cluster between the two steps of the first one's call: the
first caller gets the second one's cluster. -/
theorem cluster_of_other_call :
    ¬ ∀ (disk : Device → List Sector) (d : Driver), d.Initialised →
      ∀ es : List (ClusterStep Nat),
        Along SharedSt.step (SharedSt.Follows disk) { driver := d } es →
        ∀ r ∈ (run SharedSt.step { driver := d } es).returned,
          r.Delivered disk d.pool.gSectorsPerCluster := by
  intro h
  have hfirst : (run SharedSt.step { driver := oneSectorDriver }
      [readsSector 1 0]).copying.map ClusterCall.thread = [1] := by
    decide +kernel
  have hboth : (run SharedSt.step { driver := oneSectorDriver }
      [readsSector 1 0, readsSector 2 1]).copying.map ClusterCall.thread = [2, 1] := by
    decide +kernel
  have hall := h twoSectors oneSectorDriver oneSectorDriver_initialised
    [readsSector 1 0, readsSector 2 1, .copies 1 0]
    ⟨follows_readsSector (by decide +kernel) List.not_mem_nil (Or.inl rfl),
      follows_readsSector (by decide +kernel) (hfirst ▸ (by decide)) (Or.inr rfl),
      follows_copies hboth (List.mem_cons_of_mem 2 List.mem_cons_self) 0, trivial⟩
  obtain ⟨r, hr, hcode, hcopied, hwanted⟩ : ∃ r ∈ (run SharedSt.step
      { driver := oneSectorDriver } [readsSector 1 0, readsSector 2 1, .copies 1 0]).returned,
      r.code = 0 ∧ r.copied.map List.head? = some (some 1) ∧
        (r.call.wanted twoSectors oneSectorDriver.pool.gSectorsPerCluster).head? = some 0 := by
    decide +kernel
  rw [hall r hr hcode, Option.map_some, hwanted] at hcopied
  exact absurd hcopied (by decide)

end PsvEmmc
