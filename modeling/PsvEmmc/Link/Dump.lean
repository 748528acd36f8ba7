/-
# `PsvEmmc.Link.Dump` — is the dump the partition?

`dump_partition` reads whole clusters by cluster number and what is left by
sector number.  The first cluster's number is `partitionOffset / 8`, which
drops the offset's remainder, while the first leftover sector's number keeps
it.  So the clusters come from the cluster boundary below the partition, and
the sectors from where they should (`dump_link`).

A dump that runs through is therefore the partition exactly when there is no
remainder to drop, or no whole cluster to read, or the device happens to
repeat itself over that distance.
-/
import PsvEmmc.Link.Reads
import PsvEmmc.Lib.Slice

namespace PsvEmmc

open Words Memory Stream Runs Slice

/-! ## Devices -/

/-- Every kernel call succeeds, and the storage driver reads the devices `disk`. -/
structure Answers.ReadsDisk (k : Answers) (disk : Device → List Sector) : Prop where
  succeeds : k.Succeeds
  storage : ∀ dev (a n : Nat), a + n ≤ (disk dev).length → a < 2 ^ 31 → n < 2 ^ 31 →
    (List.range (0x200 * n)).map (k.kernel.storage dev (Int32.ofNat a) (Int32.ofNat n)).2 =
      sectorBytes (disk dev) a n

/-- A kernel that never fails, over the devices `disk`. -/
def Answers.ofDisk (disk : Device → List Sector) : Answers :=
  { Answers.succeed with
    kernel := { DriverAnswers.succeed with
      storage := fun dev sector nSectors =>
        (0, fun i => (sectorBytes (disk dev) sector.toInt.toNat nSectors.toInt.toNat).getD i 0) } }

theorem Answers.ofDisk_readsDisk (disk : Device → List Sector) :
    (Answers.ofDisk disk).ReadsDisk disk := by
  refine ⟨⟨Answers.succeed_succeeds.user, ?_⟩, ?_⟩
  · exact ⟨PoolAnswers.grant_succeeds _, fun _ _ _ => (by decide : ¬ (0 : Int32) < 0),
      (by decide : ¬ (0 : Int32) < 0)⟩
  · intro dev a n hin ha hn
    simp only [Answers.ofDisk, Int32.toInt_ofNat_of_lt ha, Int32.toInt_ofNat_of_lt hn,
      Int.toNat_natCast]
    exact map_range_getD (length_sectorBytes hin)

/-! ## The driver's reads of a device -/

theorem readSectorOn_disk {k : Answers} {disk : Device → List Sector} (hk : k.ReadsDisk disk)
    {dev : Device} {d : Driver} (hctx : d.ctxInitialized dev = true) {a : Nat}
    (hin : a + 1 ≤ (disk dev).length) (ha : a < 2 ^ 31) (buffer : Sector) :
    (readSectorOn dev k.kernel (Int32.ofNat a) buffer d).1 = 0 ∧
      (readSectorOn dev k.kernel (Int32.ofNat a) buffer d).2.toList =
        sectorBytes (disk dev) a 1 := by
  have hbytes := hk.storage dev a 1 hin ha (by decide)
  have hread : readSectorOn dev k.kernel (Int32.ofNat a) buffer d =
      (0, Vector.ofFn fun i => (k.kernel.storage dev (Int32.ofNat a) (Int32.ofNat 1)).2 i) := by
    unfold readSectorOn
    rw [if_neg (ne_false_of_eq_true hctx)]
    dsimp only
    rw [if_neg (hk.succeeds.kernel.storage _ _ _), if_neg hk.succeeds.kernel.memcpy]
    rfl
  rw [hread]
  refine ⟨rfl, ?_⟩
  rw [← hbytes]
  apply List.ext_getElem
  · simp
  · intro i h₁ h₂
    simp

/-- A cluster of eight sectors, by cluster number. -/
theorem readClusterOn_disk {k : Answers} {disk : Device → List Sector} (hk : k.ReadsDisk disk)
    {dev : Device} {d : Driver} (hctx : d.ctxInitialized dev = true)
    (hflag : d.pool.gClusterPoolInitialized = true)
    (hspc : d.pool.gSectorsPerCluster = sectorsPerCluster) (hsize : d.pool.clusterBytes = 4096)
    {c : Nat} (hin : 8 * c + 8 ≤ (disk dev).length) (hc : 8 * c < 2 ^ 31) :
    (readClusterOn dev k.kernel (Int32.ofNat c) d).1 = 0 ∧
      (readClusterOn dev k.kernel (Int32.ofNat c) d).2.1 =
        some (sectorBytes (disk dev) (8 * c) 8) := by
  have hbytes := hk.storage dev (8 * c) 8 hin hc (by decide)
  have hsector : d.pool.gSectorsPerCluster * Int32.ofNat c = Int32.ofNat (8 * c) := by
    rw [hspc, Int32.ofNat_mul]
    rfl
  unfold readClusterOn
  rw [if_neg (ne_false_of_eq_true hctx), if_neg (ne_false_of_eq_true hflag)]
  dsimp only
  rw [if_neg (hk.succeeds.kernel.storage _ _ _), if_neg hk.succeeds.kernel.memcpy]
  refine ⟨rfl, congrArg some ?_⟩
  show load (fill d.pool.mem d.pool.gClusterPoolPtr
    (0x200 * d.pool.gSectorsPerCluster.toInt.toNat)
    (k.kernel.storage dev (d.pool.gSectorsPerCluster * Int32.ofNat c)
      d.pool.gSectorsPerCluster).2) d.pool.gClusterPoolPtr d.pool.clusterBytes = _
  rw [hsize, hsector, hspc, ← hbytes]
  exact load_fill _ _ _ _

/-! ## Reads during a dump -/

namespace Link

/-- The state of the link while a dump of `dev` runs. -/
structure Dumping (dev : Device) (disk : Device → List Sector) (l : Link) : Prop where
  serves : l.Serves 4096
  opened : l.closed = false
  ctx : l.st.driver.ctxInitialized dev = true
  flag : l.st.driver.pool.gClusterPoolInitialized = true
  spc : l.st.driver.pool.gSectorsPerCluster = sectorsPerCluster
  headersSent : ∀ i, 12 ≤ (l.answers i).accept 0
  headersReceived : ∀ p, 12 ≤ l.inbox.cut p
  answered : ∀ i, (l.answers i).ReadsDisk disk

variable {dev : Device} {disk : Device → List Sector} {fuel : Nat}

theorem Dumping.headerWhole {l : Link} (hl : l.Dumping dev disk) : l.HeaderWhole :=
  ⟨hl.headersSent l.served, hl.headersReceived _⟩

/-- A read that the driver answers with `bytes` gives the client these bytes, and the dump
goes on. -/
theorem dumping_read {l : Link} (hl : l.Dumping dev disk) (hfuel : 4096 ≤ fuel)
    (rd : ClientRead) {bytes : List UInt8}
    (hread : (rd.driverRead l.next.kernel l.st.driver).1 = 0 ∧
      (rd.driverRead l.next.kernel l.st.driver).2 = some bytes) :
    ∃ l', rd.call fuel 4096 l = some (0, bytes, l') ∧ l'.Dumping dev disk := by
  have hdel : l.HeaderDelivered rd := by
    cases rd with
    | sector dev i => trivial
    | cluster dev i => exact hl.headerWhole
  rcases read_open hl.serves hl.opened (Nat.le_trans (by decide) hfuel) hfuel hdel with
    ⟨_, data, hcall, hdata, _⟩ | ⟨hne, _⟩
  · obtain rfl := Option.some.inj (hread.2.symm.trans hdata)
    obtain ⟨_, mem, hd⟩ := execute_read_sameControl rd l.next (l.atExecution rd.request)
    have hdriver : (l.afterRead rd).st.driver =
        { l.st.driver with pool := { l.st.driver.pool with mem := mem } } := hd
    refine ⟨_, hcall, afterRead_serves hl.serves hl.opened hdel, hl.opened, ?_, ?_, ?_,
      hl.headersSent, hl.headersReceived, hl.answered⟩
    · rw [hdriver, ← hl.ctx]
      cases dev <;> rfl
    · rw [hdriver]
      exact hl.flag
    · rw [hdriver]
      exact hl.spc
  · exact absurd hread.1 hne

/-- The client's read of a sector of the device. -/
theorem dumping_sector {l : Link} (hl : l.Dumping dev disk) (hfuel : 4096 ≤ fuel) {a : Nat}
    (hin : a + 1 ≤ (disk dev).length) (ha : a < 2 ^ 31) :
    ∃ l', readSectorMode winsock fuel dev.dumpMode (Int32.ofNat a) l =
      some (0, sectorBytes (disk dev) a 1, l') ∧ l'.Dumping dev disk := by
  rw [readSectorMode_dumpMode]
  obtain ⟨hcode, hdata⟩ := readSectorOn_disk (hl.answered l.served) hl.ctx hin ha
    (Vector.replicate 0x200 0)
  exact dumping_read hl hfuel (.sector dev (Int32.ofNat a)) ⟨hcode, congrArg some hdata⟩

/-- The client's read of a cluster of the device. -/
theorem dumping_cluster {l : Link} (hl : l.Dumping dev disk) (hfuel : 4096 ≤ fuel) {c : Nat}
    (hin : 8 * c + 8 ≤ (disk dev).length) (hc : 8 * c < 2 ^ 31) :
    ∃ l', readClusterMode winsock fuel dev.dumpMode (Int32.ofNat c) 4096 l =
      some (0, sectorBytes (disk dev) (8 * c) 8, l') ∧ l'.Dumping dev disk := by
  rw [readClusterMode_dumpMode]
  have hread := readClusterOn_disk (hl.answered l.served) hl.ctx hl.flag hl.spc
    hl.serves.driverSize hin hc
  exact dumping_read hl hfuel (.cluster dev (Int32.ofNat c)) hread

/-! ## The loops -/

/-- A loop whose reads all succeed writes what they read, in order. -/
theorem dumpLoop_link (read : Int32 → Link → Option (Int × List UInt8 × Link))
    (sectors : List Sector) (base off w n i : Nat) (l : Link) (hl : l.Dumping dev disk)
    (hread : ∀ j, i ≤ j → j < i + n → ∀ l : Link, l.Dumping dev disk →
      ∃ l', read (Int32.ofNat base + Int32.ofNat j) l =
        some (0, sectorBytes sectors (off + w * j) w, l') ∧ l'.Dumping dev disk) :
    ∃ l', dumpLoop read (Int32.ofNat base) i n l =
      some (true, sectorBytes sectors (off + w * i) (w * n), l') ∧ l'.Dumping dev disk := by
  induction n generalizing i l with
  | zero =>
      rw [Nat.mul_zero]
      exact ⟨l, rfl, hl⟩
  | succ n ih =>
      obtain ⟨l₁, hfirst, hl₁⟩ := hread i (Nat.le_refl i) (Nat.lt_add_of_pos_right (Nat.succ_pos n))
        l hl
      obtain ⟨l₂, hrest, hl₂⟩ := ih (i + 1) l₁ hl₁ (by
        intro j hj hjn
        exact hread j (Nat.le_of_succ_le hj) (by rw [Nat.add_succ, ← Nat.succ_add]; exact hjn))
      refine ⟨l₂, ?_, hl₂⟩
      unfold dumpLoop
      rw [hfirst]
      dsimp only
      rw [if_neg (by decide), hrest]
      dsimp only
      rw [Nat.mul_succ w n, Nat.add_comm (w * n) w, sectorBytes_add, Nat.mul_succ, Nat.add_assoc]

/-! ## The dump -/

/-- Nothing has been opened yet, no kernel call fails, and every message is delivered whole:
the requests, the headers, and the rest however cut. -/
structure DumpReady (dev : Device) (disk : Device → List Sector) (l : Link) : Prop where
  ready : l.Ready
  serverClosed : l.st.server.gClusterPoolInitialized = false
  driverClosed : l.st.driver.pool.gClusterPoolInitialized = false
  ctx : l.st.driver.ctxInitialized dev = true
  words : ∀ p, 8 ≤ l.st.conn.cut p
  headersReceived : ∀ p, 12 ≤ l.inbox.cut p
  headersSent : ∀ i, 12 ≤ (l.answers i).accept 0
  accepts : ∀ i j, 0 < (l.answers i).accept j
  answered : ∀ i, (l.answers i).ReadsDisk disk

theorem clusterDataSize : (sdDefaultSectorSize * sectorsPerCluster).toUInt32.toNat = 4096 := by
  decide

theorem emmcInit_dumping {l : Link} (hl : l.DumpReady dev disk) :
    ∃ l', emmcInit winsock sdDefaultSectorSize sectorsPerCluster l = (0, l') ∧
      l'.Dumping dev disk := by
  have hk := (hl.answered l.served).succeeds
  have haccepts := (init_accepts_iff hl.ready sdDefaultSectorSize sectorsPerCluster).mpr
    ⟨hl.words _, ⟨hl.serverClosed, rfl, hk.user.granted, hk.user.base⟩,
      hl.driverClosed, rfl, hk.kernel.pool.granted, hk.kernel.pool.base⟩
  have hwords : ∀ p, 4 ≤ l.st.conn.cut p :=
    fun p => Int.le_trans (by decide) (hl.words p)
  obtain ⟨uid, base, slack, uid', base', slack', l', hcall, hst, hready, hserved, hanswers, hcut⟩ :=
    emmcInit_opens hl.ready ⟨hl.headersSent _, hl.headersReceived _⟩ hwords haccepts
  refine ⟨l', hcall, ⟨?_, ?_, ?_, ?_, ?_, hready.replies, fun _ => hready⟩, hready.connected,
    ?_, ?_, ?_, ?_, ?_, ?_⟩
  · rw [hst]
    exact hwords
  · rw [hcut]
    exact fun p => Int.lt_of_lt_of_le (by decide) (hl.headersReceived p)
  · rw [hanswers]
    exact hl.accepts
  · rw [hst, Pool.clusterBytes_opened, clusterDataSize]
  · rw [hst, Pool.clusterBytes_opened, clusterDataSize]
  · rw [hst, ← hl.ctx]
    cases dev <;> rfl
  · rw [hst]
    rfl
  · rw [hst]
    rfl
  · rw [hanswers]
    exact hl.headersSent
  · rw [hcut]
    exact hl.headersReceived
  · rw [hanswers]
    exact hl.answered

/-- What a dump writes: the clusters from the boundary below the offset, and the rest from
where it is. -/
theorem dump_link {l : Link} (hl : l.DumpReady dev disk) (hfuel : 4096 ≤ fuel)
    {partition : PartitionEntry} {off size : Nat} (hoff : partition.partitionOffset.toNat = off)
    (hsize : partition.partitionSize.toNat = size) (hin : off + size ≤ (disk dev).length)
    (hbelow : off + size ≤ 2 ^ 31) :
    ∃ l', dumpPartition winsock fuel dev.dumpMode partition l =
      some ⟨none, sectorBytes (disk dev) (8 * (off / 8)) (8 * (size / 8)) ++
        sectorBytes (disk dev) (off + 8 * (size / 8)) (size % 8), l'⟩ := by
  have hdiv : (partition.partitionSize / sectorsPerCluster.toUInt32).toNat = size / 8 := by
    rw [UInt32.toNat_div, hsize]
    rfl
  have hmod : (partition.partitionSize % sectorsPerCluster.toUInt32).toNat = size % 8 := by
    rw [UInt32.toNat_mod, hsize]
    rfl
  have hcluster : (partition.partitionOffset / sectorsPerCluster.toUInt32).toInt32 =
      Int32.ofNat (off / 8) := by
    rw [toInt32_eq_ofNat, UInt32.toNat_div, hoff]
    rfl
  have htail : (partition.partitionOffset +
      ((partition.partitionSize / sectorsPerCluster.toUInt32).toInt32 *
        sectorsPerCluster).toUInt32).toInt32 = Int32.ofNat (off + 8 * (size / 8)) := by
    rw [UInt32.toInt32_add, Int32.toInt32_toUInt32, toInt32_eq_ofNat, toInt32_eq_ofNat, hoff, hdiv,
      Int32.ofNat_add, Nat.mul_comm 8, Int32.ofNat_mul]
    rfl
  have hsplit : 8 * (size / 8) + size % 8 = size := Nat.div_add_mod size 8
  have hboundary : 8 * (off / 8) ≤ off := Nat.mul_div_le off 8
  obtain ⟨l₁, hinit, hl₁⟩ := emmcInit_dumping hl
  -- The clusters.
  obtain ⟨l₂, hclusters, hl₂⟩ := dumpLoop_link
    (fun cluster => readClusterMode winsock fuel dev.dumpMode cluster 4096) (disk dev)
    (off / 8) (8 * (off / 8)) 8 (size / 8) 0 l₁ hl₁ (by
      intro j _ hj l hl
      rw [← Int32.ofNat_add, ← Nat.mul_add]
      exact dumping_cluster hl hfuel (by omega) (by omega))
  -- The sectors that are left.
  obtain ⟨l₃, hsectors, hl₃⟩ := dumpLoop_link (readSectorMode winsock fuel dev.dumpMode) (disk dev)
    (off + 8 * (size / 8)) (off + 8 * (size / 8)) 1 (size % 8) 0 l₂ hl₂ (by
      intro j _ hj l hl
      rw [← Int32.ofNat_add, Nat.one_mul]
      exact dumping_sector hl hfuel (by omega) (by omega))
  have hdeinit := emmcDeinit_link (hl₃.serves.ready hl₃.opened) hl₃.headerWhole (hl₃.serves.words _)
  rw [Nat.mul_zero, Nat.add_zero] at hclusters
  rw [Nat.mul_zero, Nat.add_zero, Nat.one_mul] at hsectors
  refine ⟨l₃.afterReply (handle .deinit l₃.next (l₃.atHandler .deinit)), ?_⟩
  unfold dumpPartition
  rw [hinit]
  dsimp only
  rw [if_neg (by decide), UInt32.toUInt32_toInt32, UInt32.toUInt32_toInt32, hdiv, hmod, hcluster,
    htail]
  rw [clusterDataSize, hclusters]
  dsimp only
  rw [hsectors]
  dsimp only
  rw [hdeinit]
  dsimp only
  rw [if_neg (by decide)]

/-! ## Is it the partition? -/

/-- The dump runs to its end and the file holds the partition's sectors, in order. -/
def DumpExact (fuel : Nat) (dev : Device) (sectors : List Sector) (partition : PartitionEntry)
    (l : Link) : Prop :=
  ∃ d, dumpPartition winsock fuel dev.dumpMode partition l = some d ∧ d.ret = none ∧
    d.written = sectorBytes sectors partition.partitionOffset.toNat partition.partitionSize.toNat

/-- The dump is the partition exactly when the whole clusters from the boundary on are the
sectors from the offset on. -/
theorem dumpExact_iff_window {l : Link} (hl : l.DumpReady dev disk) (hfuel : 4096 ≤ fuel)
    {partition : PartitionEntry} {off size : Nat} (hoff : partition.partitionOffset.toNat = off)
    (hsize : partition.partitionSize.toNat = size) (hin : off + size ≤ (disk dev).length)
    (hbelow : off + size ≤ 2 ^ 31) :
    DumpExact fuel dev (disk dev) partition l ↔
      slice (disk dev) (8 * (off / 8)) (8 * (size / 8)) =
        slice (disk dev) off (8 * (size / 8)) := by
  obtain ⟨l', hdump⟩ := dump_link hl hfuel hoff hsize hin hbelow
  have hpartition : sectorBytes (disk dev) off size =
      sectorBytes (disk dev) off (8 * (size / 8)) ++
        sectorBytes (disk dev) (off + 8 * (size / 8)) (size % 8) := by
    rw [← sectorBytes_add, Nat.div_add_mod]
  rw [← sectorBytes_inj, DumpExact, hoff, hsize, hpartition]
  constructor
  · rintro ⟨d, hd, _, hwritten⟩
    obtain rfl := Option.some.inj (hdump.symm.trans hd)
    exact List.append_cancel_right hwritten
  · intro hwindow
    exact ⟨_, hdump, rfl, congrArg (· ++ _) hwindow⟩

/-- The two ways in which the shift is none, and the one in which it does not show. -/
theorem dumpExact_iff_cases {l : Link} {partition : PartitionEntry} (hl : l.DumpReady dev disk)
    (hfuel : 4096 ≤ fuel)
    (hin : partition.partitionOffset.toNat + partition.partitionSize.toNat ≤ (disk dev).length)
    (hbelow : partition.partitionOffset.toNat + partition.partitionSize.toNat ≤ 2 ^ 31) :
    DumpExact fuel dev (disk dev) partition l ↔
      8 ∣ partition.partitionOffset.toNat ∨ partition.partitionSize.toNat < 8 ∨
        slice (disk dev) (8 * (partition.partitionOffset.toNat / 8))
            (8 * (partition.partitionSize.toNat / 8)) =
          slice (disk dev) partition.partitionOffset.toNat
            (8 * (partition.partitionSize.toNat / 8)) := by
  rw [dumpExact_iff_window hl hfuel rfl rfl hin hbelow]
  constructor
  · intro hwindow
    exact Or.inr (Or.inr hwindow)
  · rintro (haligned | hsmall | hwindow)
    · rw [Nat.mul_div_cancel' haligned]
    · rw [Nat.div_eq_of_lt hsmall, Nat.mul_zero, slice_zero, slice_zero]
    · exact hwindow

/-- A device of zeros with one sector of ones. -/
def markedDisk (mark n : Nat) : List Sector :=
  (List.replicate n (Vector.replicate 0x200 0)).set mark (Vector.replicate 0x200 1)

theorem length_markedDisk (mark n : Nat) : (markedDisk mark n).length = n := by
  rw [markedDisk, List.length_set, List.length_replicate]

/-- A window that starts at the mark is not the window that starts after it. -/
theorem markedDisk_window {mark a n w : Nat} (hmark : mark < a) (ha : a < n) (hw : 0 < w) :
    slice (markedDisk mark n) mark w ≠ slice (markedDisk mark n) a w := by
  intro h
  have hfirst := congrArg (fun xs => xs[0]?) h
  simp only [getElem?_slice _ hw, Nat.add_zero, markedDisk] at hfirst
  rw [List.getElem?_set_self (by rw [List.length_replicate]; exact hmark.trans ha),
    List.getElem?_set_ne (Nat.ne_of_lt hmark), List.getElem?_replicate_of_lt ha] at hfirst
  have hbyte := congrArg (fun s : Sector => s.toList.head?) (Option.some.inj hfirst)
  exact absurd hbyte (by decide)

/-- A started system over the devices `disk`, and a client that has just connected. -/
def connectDisk (disk : Device → List Sector) : Link := connect St.boot fun _ => .ofDisk disk

theorem connectDisk_ready (dev : Device) (disk : Device → List Sector) :
    (connectDisk disk).DumpReady dev disk where
  ready := connect_ready _ _
  serverClosed := rfl
  driverClosed := rfl
  ctx := by cases dev <;> rfl
  words := fun _ => (by decide : (8 : Int) ≤ 2 ^ 31 - 1)
  headersReceived := fun _ => (by decide : (12 : Int) ≤ 2 ^ 31 - 1)
  headersSent := fun _ => (by decide : (12 : Int) ≤ 2 ^ 31 - 1)
  accepts := fun _ _ => (by decide : (0 : Int) < 2 ^ 31 - 1)
  answered := fun _ => Answers.ofDisk_readsDisk disk

/-- An offset with a remainder and a whole cluster to read: the marked sector below the
partition is dumped in place of its first one. -/
theorem dump_shifted {fuel : Nat} (hfuel : 4096 ≤ fuel) (dev : Device) (partition : PartitionEntry)
    {off size : Nat} (hoff : partition.partitionOffset.toNat = off)
    (hsize : partition.partitionSize.toNat = size) (hbelow : off + size ≤ 2 ^ 31)
    (hrem : ¬ 8 ∣ off) (hwhole : ¬ size < 8) :
    ¬ DumpExact fuel dev (markedDisk (8 * (off / 8)) (off + size)) partition
      (connectDisk fun _ => markedDisk (8 * (off / 8)) (off + size)) := by
  have hin : off + size ≤ (markedDisk (8 * (off / 8)) (off + size)).length := by
    rw [length_markedDisk]
  intro hexact
  have hwindow := (dumpExact_iff_window (connectDisk_ready dev _) hfuel hoff hsize hin hbelow).mp
    hexact
  have hlt : 8 * (off / 8) < off := by
    rw [Nat.dvd_iff_mod_eq_zero] at hrem
    omega
  exact markedDisk_window hlt (by omega) (by omega) hwindow

/-- **When the dump is the partition.**  With no pool open at the start, no failing call and
whole messages, of any devices: exactly when the offset is a multiple of the cluster, or
there is no whole cluster to read, or the device repeats itself so that the shift does not
show.  Over all contents of the device, the first two are all there is. -/
theorem dump_exact_iff (dev : Device) (partition : PartitionEntry) {fuel : Nat}
    (hfuel : 4096 ≤ fuel)
    (hbelow : partition.partitionOffset.toNat + partition.partitionSize.toNat ≤ 2 ^ 31) :
    (∀ (disk : Device → List Sector) (l : Link), l.DumpReady dev disk →
      partition.partitionOffset.toNat + partition.partitionSize.toNat ≤ (disk dev).length →
      (DumpExact fuel dev (disk dev) partition l ↔
        8 ∣ partition.partitionOffset.toNat ∨ partition.partitionSize.toNat < 8 ∨
          slice (disk dev) (8 * (partition.partitionOffset.toNat / 8))
              (8 * (partition.partitionSize.toNat / 8)) =
            slice (disk dev) partition.partitionOffset.toNat
              (8 * (partition.partitionSize.toNat / 8)))) ∧
    ((∀ (disk : Device → List Sector) (l : Link), l.DumpReady dev disk →
      partition.partitionOffset.toNat + partition.partitionSize.toNat ≤ (disk dev).length →
      DumpExact fuel dev (disk dev) partition l) ↔
        8 ∣ partition.partitionOffset.toNat ∨ partition.partitionSize.toNat < 8) := by
  refine ⟨fun disk l hl hin => dumpExact_iff_cases hl hfuel hin hbelow, ?_, ?_⟩
  · intro hall
    by_contra hneither
    rw [not_or] at hneither
    refine dump_shifted hfuel dev partition rfl rfl hbelow hneither.1 hneither.2 ?_
    exact hall _ _ (connectDisk_ready dev _) (by rw [length_markedDisk])
  · intro hcond disk l hl hin
    refine (dumpExact_iff_cases hl hfuel hin hbelow).mpr ?_
    rcases hcond with haligned | hsmall
    · exact Or.inl haligned
    · exact Or.inr (Or.inl hsmall)

/-- Nine sectors from sector 8 on. -/
theorem dump_exact_aligned :
    (DumpExact 4096 .ms (markedDisk 8 17) ⟨8, 9⟩ (connectDisk fun _ => markedDisk 8 17) ↔
      8 ∣ 8 ∨ 9 < 8 ∨ slice (markedDisk 8 17) 8 8 = slice (markedDisk 8 17) 8 8) ∧
    ((∀ (disk : Device → List Sector) (l : Link), l.DumpReady .ms disk →
        8 + 9 ≤ (disk .ms).length → DumpExact 4096 .ms (disk .ms) ⟨8, 9⟩ l) ↔ 8 ∣ 8 ∨ 9 < 8) :=
  ⟨(dump_exact_iff .ms ⟨8, 9⟩ (Nat.le_refl 4096) (by decide)).1 (fun _ => markedDisk 8 17)
      (connectDisk fun _ => markedDisk 8 17) (connectDisk_ready .ms _)
      (by rw [length_markedDisk]; decide),
    (dump_exact_iff .ms ⟨8, 9⟩ (Nat.le_refl 4096) (by decide)).2⟩

/-- Eight sectors from sector 1 on: the file holds sectors 0 to 7. -/
theorem dump_shifted_by_one :
    ¬ ∀ (dev : Device) (disk : Device → List Sector) (partition : PartitionEntry) (fuel : Nat)
      (l : Link), l.DumpReady dev disk → 4096 ≤ fuel →
      partition.partitionOffset.toNat + partition.partitionSize.toNat ≤ (disk dev).length →
      partition.partitionOffset.toNat + partition.partitionSize.toNat ≤ 2 ^ 31 →
      DumpExact fuel dev (disk dev) partition l := by
  intro h
  exact dump_shifted (Nat.le_refl 4096) .emmc ⟨1, 8⟩ rfl rfl (by decide) (by decide)
    (by decide) (h .emmc _ ⟨1, 8⟩ 4096 _ (connectDisk_ready .emmc _) (Nat.le_refl 4096)
      (by rw [length_markedDisk]) (by decide))

end Link

end PsvEmmc
