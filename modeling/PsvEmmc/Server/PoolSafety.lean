/-
# `PsvEmmc.Server.PoolSafety` — what goes through the server's pool, and does it fit?

Two invariants over all runs of the system, with restarts of the server
application and any answers of the kernels.

**Transfers.**  The cluster handlers send from and receive into
`g_clusterPoolPtr` without a look at `g_clusterPoolInitialized`; the check is
in the kernel module's `readCluster`, whose refusal the handler ignores.  While
the flag is set the block behind the pointer has the recorded geometry's size
(`PoolInv`), so a cluster command that arrives while the flag is set transfers
within it.  After DEINIT, or after an INIT that failed, the geometry is still
recorded and the pointer is stale.

**Copies.**  `readCluster` copies the *module's* cluster size into the
*server's* pool.  The two agree as long as the module has no pool of its own
left when the server makes one (`CopyInv`); a restart of the server
application breaks that.
-/
import PsvEmmc.Server.Pools
import PsvEmmc.Lib.Runs

namespace PsvEmmc

open Words Memory Stream Runs

/-! ## What a round transfers -/

/-- A cluster command is next and the field after its word arrives. -/
def clusterNext (st : St) (c : Command) : Prop :=
  nextCommand st.conn = some c ∧ (st.afterWord.conn.recv 4).count = 4

/-- Every byte the round sends from or receives into the pool is in an allocated block. -/
def TouchesCovered (st : St) : Event → Prop
  | .round k => ∀ h, poll k st = some h → ∀ a ∈ h.touched, st.server.blocks.Covers a
  | _ => True

/-- What the module copies into the server's pool in this round is no more than its size. -/
def CopiesFit (st : St) : Event → Prop
  | .round k => ∀ h, poll k st = some h → ∀ a ∈ h.copied, a.len ≤ st.server.capacity
  | _ => True

/-- Only the cluster handlers use the pool. -/
theorem handle_untouched {c : Command} (hr : ∀ dev, c ≠ .readCluster dev)
    (hw : ∀ dev, c ≠ .writeCluster dev) (k : Answers) (st : St) :
    (handle c k st).touched = [] ∧ (handle c k st).copied = [] := by
  cases c with
  | ping => exact ⟨rfl, rfl⟩
  | term => exact ⟨rfl, rfl⟩
  | init =>
      rcases handleCommand2_cases k st with ⟨_, h⟩ | ⟨_, _, h⟩ | ⟨_, bps, spc, _, h⟩ <;>
      · rw [show handle .init k st = handleCommand2 k st from rfl, h]
        exact ⟨rfl, rfl⟩
  | deinit =>
      rcases handleCommand3_cases k st with ⟨_, h⟩ | ⟨_, h⟩ <;>
      · rw [show handle .deinit k st = handleCommand3 k st from rfl, h]
        exact ⟨rfl, rfl⟩
  | readSector dev =>
      rcases handleReadSector_cases dev k st with ⟨_, h⟩ | ⟨_, h⟩ <;>
      · rw [handle_readSector, h]
        exact ⟨rfl, rfl⟩
  | writeSector dev =>
      rcases handleWriteSector_cases dev k st with ⟨_, h⟩ | ⟨_, h⟩ <;>
      · rw [handle_writeSector, h]
        exact ⟨rfl, rfl⟩
  | readCluster dev => exact absurd rfl (hr dev)
  | writeCluster dev => exact absurd rfl (hw dev)

/-- What a cluster read sends comes from the start of the pool and is at most one cluster. -/
theorem handleReadCluster_touched (dev : Device) (k : Answers) (st : St) :
    ∀ a ∈ (handleReadCluster dev k st).touched, (st.conn.recv 4).count = 4 ∧
      a.addr = st.server.gClusterPoolPtr ∧ a.len ≤ st.server.clusterBytes := by
  intro a ha
  rcases handleReadCluster_cases dev k st with ⟨_, h⟩ | ⟨hcount, h⟩
  · rw [h] at ha
    exact absurd ha List.not_mem_nil
  · rw [h] at ha
    obtain rfl := List.mem_singleton.mp ha
    refine ⟨hcount, rfl, ?_⟩
    exact (length_sendAll_le _ _ _).trans (by rw [length_load]; exact Nat.le_refl _)

/-- What a cluster write receives goes to the start of the pool and is at most one cluster. -/
theorem handleWriteCluster_touched (dev : Device) (k : Answers) (st : St) :
    ∀ a ∈ (handleWriteCluster dev k st).touched, (st.conn.recv 4).count = 4 ∧
      a.addr = st.server.gClusterPoolPtr ∧ a.len ≤ st.server.clusterBytes := by
  intro a ha
  rcases handleWriteCluster_cases dev k st with ⟨_, h⟩ | ⟨hcount, _, h⟩ | ⟨hcount, _, h⟩
  · rw [h] at ha
    exact absurd ha List.not_mem_nil
  · -- The loop gave up: what it received up to then is in the pool.
    obtain ⟨n, hn, _, hres, _⟩ :=
      Inbound.recvAll_spec st.server.clusterBytes (st.conn.recv 4).rest
    rw [h] at ha
    obtain rfl := List.mem_singleton.mp ha
    refine ⟨hcount, rfl, ?_⟩
    show ((st.conn.recv 4).rest.recvAll st.server.clusterBytes).2.1.length ≤ _
    rw [hres, List.length_take]
    exact (Nat.min_le_left _ _).trans hn
  · rw [h] at ha
    obtain rfl := List.mem_singleton.mp ha
    refine ⟨hcount, rfl, ?_⟩
    exact Nat.le_of_eq (length_load _ _ _)

/-- Every transfer belongs to a cluster command whose field arrived, starts at the pool's
start and is at most one cluster. -/
theorem handle_touched (c : Command) (k : Answers) (st : St) :
    ∀ a ∈ (handle c k st).touched,
      (∃ dev, c = .readCluster dev ∨ c = .writeCluster dev) ∧ (st.conn.recv 4).count = 4 ∧
        a.addr = st.server.gClusterPoolPtr ∧ a.len ≤ st.server.clusterBytes := by
  intro a ha
  by_cases hr : ∃ dev, c = .readCluster dev
  · obtain ⟨dev, rfl⟩ := hr
    rw [handle_readCluster] at ha
    exact ⟨⟨dev, Or.inl rfl⟩, handleReadCluster_touched dev k st a ha⟩
  · by_cases hw : ∃ dev, c = .writeCluster dev
    · obtain ⟨dev, rfl⟩ := hw
      rw [handle_writeCluster] at ha
      exact ⟨⟨dev, Or.inr rfl⟩, handleWriteCluster_touched dev k st a ha⟩
    · rw [(handle_untouched (not_exists.mp hr) (not_exists.mp hw) k st).1] at ha
      exact absurd ha List.not_mem_nil

theorem handleWriteCluster_copied (dev : Device) (k : Answers) (st : St) :
    (handleWriteCluster dev k st).copied = [] := by
  rcases handleWriteCluster_cases dev k st with ⟨_, h⟩ | ⟨_, _, h⟩ | ⟨_, _, h⟩ <;>
  · rw [h]
    rfl

/-- What a cluster read copies is one cluster of the module's own, initialized pool. -/
theorem handleReadCluster_copied (dev : Device) (k : Answers) (st : St) :
    ∀ a ∈ (handleReadCluster dev k st).copied, (st.conn.recv 4).count = 4 ∧
      st.driver.pool.gClusterPoolInitialized = true ∧ a.len = st.driver.pool.clusterBytes := by
  intro a ha
  rcases handleReadCluster_cases dev k st with ⟨_, h⟩ | ⟨hcount, h⟩
  · rw [h] at ha
    exact absurd ha List.not_mem_nil
  · rw [h] at ha
    simp only [executeReadCluster] at ha
    rcases readClusterOn_copied dev k.kernel (ofLeInt (st.conn.recv 4).bytes) st.driver with
      ⟨_, hnone⟩ | ⟨_, hflag, bytes, hsome, hlen⟩
    · rw [hnone] at ha
      exact absurd ha List.not_mem_nil
    · rw [hsome] at ha
      obtain rfl := List.mem_singleton.mp ha
      exact ⟨hcount, hflag, hlen⟩

/-- The module copies for a cluster read only, and only from an initialized pool of its own. -/
theorem handle_copied (c : Command) (k : Answers) (st : St) :
    ∀ a ∈ (handle c k st).copied,
      (∃ dev, c = .readCluster dev) ∧ (st.conn.recv 4).count = 4 ∧
        st.driver.pool.gClusterPoolInitialized = true ∧
        a.len = st.driver.pool.clusterBytes := by
  intro a ha
  by_cases hr : ∃ dev, c = .readCluster dev
  · obtain ⟨dev, rfl⟩ := hr
    rw [handle_readCluster] at ha
    exact ⟨⟨dev, rfl⟩, handleReadCluster_copied dev k st a ha⟩
  · have hnil : (handle c k st).copied = [] := by
      by_cases hw : ∃ dev, c = .writeCluster dev
      · obtain ⟨dev, rfl⟩ := hw
        rw [handle_writeCluster]
        exact handleWriteCluster_copied dev k st
      · exact (handle_untouched (not_exists.mp hr) (not_exists.mp hw) k st).2
    rw [hnil] at ha
    exact absurd ha List.not_mem_nil

theorem poll_some {k : Answers} {st : St} {h : Handled} (hpoll : poll k st = some h) :
    ∃ c, nextCommand st.conn = some c ∧ h = handle c k st.afterWord := by
  cases hc : nextCommand st.conn with
  | none => simp [poll, hc] at hpoll
  | some c =>
      simp only [poll, hc] at hpoll
      exact ⟨c, rfl, (Option.some.inj hpoll).symm⟩

/-! ## Transfers stay in the block -/

/-- While the flag is set the block behind the pointer has room for one cluster. -/
def PoolInv (p : Pool) : Prop := p.gClusterPoolInitialized = true → p.clusterBytes ≤ p.capacity

theorem poolInv_of_clear {p : Pool} (h : p.gClusterPoolInitialized = false) : PoolInv p :=
  fun hset => absurd hset (ne_true_of_eq_false h)

theorem poolInit_inv {k : PoolAnswers} {bps spc : Int32} {p : Pool} (hp : PoolInv p) :
    PoolInv (poolInit k bps spc p).2 := by
  rcases poolInit_cases k bps spc p with
    ⟨_, h⟩ | ⟨_, _, h⟩ | ⟨hf, _, code, _, _, h⟩ | ⟨hf, _, uid, _, base, slack, _, _, h⟩ |
    ⟨_, _, uid, _, base, slack, _, _, h⟩
  · rwa [h]
  · rwa [h]
  · rw [h]
    exact poolInv_of_clear hf
  · rw [h]
    exact poolInv_of_clear hf
  · rw [h]
    intro _
    rw [Pool.clusterBytes_opened, Pool.capacity_opened]
    exact Nat.le_add_right _ _

theorem poolDeinit_inv {k : PoolAnswers} {p : Pool} (hp : PoolInv p) :
    PoolInv (poolDeinit k p).2 := by
  rcases poolDeinit_cases k p with ⟨_, h⟩ | ⟨_, _, h⟩ | ⟨_, _, h⟩
  · rwa [h]
  · rwa [h]
  · rw [h]
    exact poolInv_of_clear rfl

theorem pollState_poolInv {k : Answers} {st : St} (hp : PoolInv st.server) :
    PoolInv (pollState k st).server := by
  rcases round_cases k st with ⟨⟨mem, hs⟩, _⟩ | ⟨_, _, bps, spc, _, hs, _⟩ | ⟨_, _, hs, _⟩
  · rw [hs]
    exact hp
  · rw [hs]
    exact poolInit_inv hp
  · rw [hs]
    exact poolDeinit_inv hp

theorem step_poolInv (st : St) (e : Event) (hp : PoolInv st.server) :
    PoolInv (st.step e).server := by
  cases e with
  | accept conn => exact hp
  | round k => exact pollState_poolInv hp
  | restart => exact poolInv_of_clear rfl

/-- A cluster command arrives only while the server's pool is initialized, or while the
recorded cluster is empty. -/
def ClusterCommandsFindPool (st : St) : Event → Prop
  | .round _ => ∀ dev, clusterNext st (.readCluster dev) ∨ clusterNext st (.writeCluster dev) →
      st.server.gClusterPoolInitialized = true ∨ st.server.clusterBytes = 0
  | _ => True

theorem touches_covered_of_inv (st : St) (e : Event) (hp : PoolInv st.server)
    (hg : ClusterCommandsFindPool st e) : TouchesCovered st e := by
  cases e with
  | accept conn => trivial
  | restart => trivial
  | round k =>
      intro h hpoll a ha
      obtain ⟨c, hc, rfl⟩ := poll_some hpoll
      obtain ⟨⟨dev, hdev⟩, hcount, haddr, hlen⟩ := handle_touched c k st.afterWord a ha
      have hnext : clusterNext st (.readCluster dev) ∨ clusterNext st (.writeCluster dev) := by
        rcases hdev with rfl | rfl
        · exact Or.inl ⟨hc, hcount⟩
        · exact Or.inr ⟨hc, hcount⟩
      have hle : a.len ≤ st.server.capacity := by
        rcases hg dev hnext with hset | hzero
        · exact hlen.trans (hp hset)
        · exact hlen.trans (by rw [show st.afterWord.server = st.server from rfl, hzero]; omega)
      have haddr : a.addr = st.server.gClusterPoolPtr := haddr
      rw [show a = ⟨st.server.gClusterPoolPtr, a.len⟩ by rw [← haddr]]
      exact Heap.covers_of_le_capacity hle

/-- **Transfers through the pool stay in the allocated block** in every run in which no
cluster command arrives while there is no pool and the recorded geometry is not empty. -/
theorem cluster_transfers_covered (st : St) (events : List Event)
    (hinit : st.server.gClusterPoolInitialized = false)
    (hguard : Along St.step ClusterCommandsFindPool st events) :
    Along St.step TouchesCovered st events :=
  along_of_inv (fun st e hp _ => step_poolInv st e hp) touches_covered_of_inv
    (poolInv_of_clear hinit) hguard

theorem cluster_transfer_covered_once :
    Along St.step TouchesCovered St.boot
      [.accept (session [.init 512 1, .readCluster .emmc 0]), .round .succeed, .round .succeed] :=
  cluster_transfers_covered St.boot
    [.accept (session [.init 512 1, .readCluster .emmc 0]), .round .succeed, .round .succeed] rfl
    ⟨trivial, fun _ _ => Or.inr (by decide), fun _ _ => Or.inl (by decide +kernel), trivial⟩

/-- DEINIT frees the block, and a cluster read after it sends what the pointer still points at. -/
theorem cluster_transfer_from_freed_pool :
    ¬ ∀ events : List Event, Along St.step TouchesCovered St.boot events := by
  intro h
  obtain ⟨_, _, _, hread, _⟩ := h
    [.accept (session [.init 512 1, .deinit, .readCluster .emmc 0]),
      .round .succeed, .round .succeed, .round .succeed]
  have hpoll : (poll .succeed (run St.step St.boot
      [.accept (session [.init 512 1, .deinit, .readCluster .emmc 0]),
        .round .succeed, .round .succeed])).map Handled.touched = some [⟨0x10000, 512⟩] := by
    decide +kernel
  have hblocks : (run St.step St.boot
      [.accept (session [.init 512 1, .deinit, .readCluster .emmc 0]),
        .round .succeed, .round .succeed]).server.blocks = [] := by
    decide +kernel
  obtain ⟨r, hr, htouched⟩ := Option.map_eq_some_iff.mp hpoll
  have hcovers := hread r hr ⟨0x10000, 512⟩ (by rw [htouched]; exact List.mem_singleton_self _)
  obtain ⟨b, hb, _⟩ := hcovers 0 (by decide)
  exact absurd (hblocks ▸ hb) List.not_mem_nil

/-! ## Copies fit the server's pool -/

/-- When both sides have a pool, the server's has room for the module's cluster. -/
def CopyInv (st : St) : Prop :=
  st.server.gClusterPoolInitialized = true → st.driver.pool.gClusterPoolInitialized = true →
    st.driver.pool.clusterBytes ≤ st.server.capacity

theorem copyInv_of_clear {st : St} (h : st.server.gClusterPoolInitialized = false) :
    CopyInv st :=
  fun hset => absurd hset (ne_true_of_eq_false h)

/-- An INIT that makes the server's pool finds the module without a pool, or with one whose
cluster is no larger; and a cluster read arrives only while the server has a pool, or while
the module has none to copy from. -/
def PoolsInStep (st : St) : Event → Prop
  | .round k =>
      (∀ spc, nextCommand st.conn = some .init →
        initRequest st.afterWord.conn = some (sdDefaultSectorSize, spc) →
        st.server.gClusterPoolInitialized = false →
        k.user.alloc.isGranted = true → ¬ k.user.base < 0 →
        st.driver.pool.gClusterPoolInitialized = false ∨
          st.driver.pool.clusterBytes ≤ (sdDefaultSectorSize * spc).toUInt32.toNat) ∧
      (∀ dev, clusterNext st (.readCluster dev) →
        st.server.gClusterPoolInitialized = true ∨
          st.driver.pool.gClusterPoolInitialized = false ∨ st.driver.pool.clusterBytes = 0)
  | _ => True

/-- The INIT case of the step lemma. -/
theorem initPools_copyInv (k : Answers) (bps spc : Int32) (server : Pool) (driver : Driver)
    (conn : Inbound) (hclear : server.gClusterPoolInitialized = false)
    (hfit : bps = sdDefaultSectorSize → k.user.alloc.isGranted = true → ¬ k.user.base < 0 →
      driver.pool.gClusterPoolInitialized = false ∨
        driver.pool.clusterBytes ≤ (sdDefaultSectorSize * spc).toUInt32.toNat) :
    CopyInv ⟨(initPools k bps spc server driver).1, (initPools k bps spc server driver).2,
      conn⟩ := by
  rcases initPools_cases k bps spc server driver with
    ⟨_, _, _, uid, base, slack, uid', base', slack', ho⟩ |
    ⟨hs, _, _, ⟨uid, base, slack, ho⟩, hkept⟩ | ⟨_, _, hflag, _⟩
  · rw [ho]
    intro _ _
    show (driver.pool.opened spc uid' base' slack').clusterBytes ≤
      (server.opened spc uid base slack).capacity
    rw [Pool.clusterBytes_opened, Pool.capacity_opened]
    exact Nat.le_add_right _ slack
  · -- The server's pool was made, and the module's is the old one, which fits.
    intro _ hset
    have hpool := hkept hset
    show (initPools k bps spc server driver).2.pool.clusterBytes ≤
      (initPools k bps spc server driver).1.capacity
    rw [hpool] at hset ⊢
    rw [ho, Pool.capacity_opened]
    rcases hfit hs.2.1 hs.2.2.1 hs.2.2.2 with hclear' | hle
    · exact absurd hset (ne_true_of_eq_false hclear')
    · exact hle.trans (Nat.le_add_right _ slack)
  · exact copyInv_of_clear (hflag.trans hclear)

/-- The DEINIT case of the step lemma. -/
theorem deinitPools_copyInv (k : Answers) {st : St} (conn : Inbound) (hst : CopyInv st) :
    CopyInv ⟨(deinitPools k st.server st.driver).1, (deinitPools k st.server st.driver).2,
      conn⟩ := by
  rcases poolDeinit_cases k.user st.server with ⟨hf, h⟩ | ⟨_, _, h⟩ | ⟨_, _, h⟩
  · exact copyInv_of_clear (by simp only [deinitPools, deinitializePool, h]; exact hf)
  · rcases poolDeinit_cases k.kernel.pool st.driver.pool with ⟨_, h'⟩ | ⟨_, _, h'⟩ | ⟨_, _, h'⟩
    · simpa only [CopyInv, deinitPools, deinitializePool, psvemmcDeinitialize, h, h'] using hst
    · simpa only [CopyInv, deinitPools, deinitializePool, psvemmcDeinitialize, h, h'] using hst
    · intro _ hset
      simp only [deinitPools, psvemmcDeinitialize, h', Pool.closed] at hset
      exact absurd hset (by decide)
  · exact copyInv_of_clear (by simp only [deinitPools, deinitializePool, h]; rfl)

theorem step_copyInv (st : St) (e : Event) (hst : CopyInv st) (hg : PoolsInStep st e) :
    CopyInv (st.step e) := by
  cases e with
  | accept conn => exact hst
  | restart => exact copyInv_of_clear rfl
  | round k =>
      show CopyInv (pollState k st)
      rcases round_cases k st with
        ⟨⟨mem, hs⟩, ⟨mem', hd⟩⟩ | ⟨hc, hclear, bps, spc, hreq, hs, hd⟩ | ⟨_, _, hs, hd⟩
      · intro hset hset'
        rw [hs, hd] at *
        exact hst hset hset'
      · have h := initPools_copyInv k bps spc st.server st.driver (pollState k st).conn hclear (by
            rintro rfl hgrant hbase
            exact hg.1 spc hc hreq hclear hgrant hbase)
        rwa [← hs, ← hd] at h
      · have h := deinitPools_copyInv k (pollState k st).conn hst
        rwa [← hs, ← hd] at h

theorem copies_fit_of_inv (st : St) (e : Event) (hst : CopyInv st) (hg : PoolsInStep st e) :
    CopiesFit st e := by
  cases e with
  | accept conn => trivial
  | restart => trivial
  | round k =>
      intro h hpoll a ha
      obtain ⟨c, hc, rfl⟩ := poll_some hpoll
      obtain ⟨⟨dev, rfl⟩, hcount, hset, hlen⟩ := handle_copied c k st.afterWord a ha
      have hset : st.driver.pool.gClusterPoolInitialized = true := hset
      have hlen : a.len = st.driver.pool.clusterBytes := hlen
      rcases hg.2 dev ⟨hc, hcount⟩ with hs | hd | hzero
      · rw [hlen]
        exact hst hs hset
      · exact absurd hset (ne_true_of_eq_false hd)
      · rw [hlen, hzero]
        exact Nat.zero_le _

/-- **What the module copies fits the server's pool** in every run in which the two pools stay
in step: from two sides without a pool, through connections, requests and restarts. -/
theorem cluster_copies_fit (st : St) (events : List Event)
    (hinit : st.server.gClusterPoolInitialized = false)
    (hguard : Along St.step PoolsInStep st events) :
    Along St.step CopiesFit st events :=
  along_of_inv step_copyInv copies_fit_of_inv (copyInv_of_clear hinit) hguard

theorem cluster_copy_fits_once :
    Along St.step CopiesFit St.boot
      [.accept (session [.init 512 2, .readCluster .emmc 0]), .round .succeed, .round .succeed] :=
  cluster_copies_fit St.boot
    [.accept (session [.init 512 2, .readCluster .emmc 0]), .round .succeed, .round .succeed] rfl
    ⟨trivial, ⟨fun _ _ _ _ _ _ => Or.inl rfl, fun _ _ => Or.inr (Or.inl rfl)⟩,
      ⟨fun _ _ _ hclear => absurd hclear (by decide +kernel),
        fun _ _ => Or.inl (by decide +kernel)⟩,
      trivial⟩

/-- Rounds in which every kernel call succeeds and which carry INIT with a geometry that
does not overflow, DEINIT, or a cluster read. -/
def PoolTraffic (st : St) : Event → Prop
  | .round k => k.Succeeds ∧
      ((nextCommand st.conn = some .init ∧ ∀ g ∈ initRequest st.afterWord.conn,
          0 ≤ g.1.toInt * g.2.toInt ∧ g.1.toInt * g.2.toInt < 2 ^ 31) ∨
        nextCommand st.conn = some .deinit ∨
        ∃ dev, nextCommand st.conn = some (.readCluster dev))
  | _ => True

/-- INIT with two sectors to a cluster, a restart of the server application, INIT with one:
the module refuses the second INIT and still copies two sectors. -/
theorem cluster_copy_overruns_after_restart :
    ¬ ∀ events : List Event, Along St.step PoolTraffic St.boot events →
      Along St.step CopiesFit St.boot events := by
  intro h
  have hfirst : initRequest (St.boot.step (.accept (session [.init 512 2]))).afterWord.conn =
      some (512, 2) := by
    decide +kernel
  have hsecond : initRequest (run St.step St.boot
      [.accept (session [.init 512 2]), .round .succeed, .restart,
        .accept (session [.init 512 1, .readCluster .emmc 0])]).afterWord.conn = some (512, 1) := by
    decide +kernel
  obtain ⟨_, _, _, _, _, hread, _⟩ := h
    [.accept (session [.init 512 2]), .round .succeed, .restart,
      .accept (session [.init 512 1, .readCluster .emmc 0]), .round .succeed, .round .succeed]
    ⟨trivial,
      ⟨Answers.succeed_succeeds, Or.inl ⟨by decide +kernel, fun g hg => by
        obtain rfl := Option.some.inj (hfirst.symm.trans hg)
        decide⟩⟩,
      trivial, trivial,
      ⟨Answers.succeed_succeeds, Or.inl ⟨by decide +kernel, fun g hg => by
        obtain rfl := Option.some.inj (hsecond.symm.trans hg)
        decide⟩⟩,
      ⟨Answers.succeed_succeeds, Or.inr (Or.inr ⟨.emmc, by decide +kernel⟩)⟩, trivial⟩
  have hpoll : (poll .succeed (run St.step St.boot
      [.accept (session [.init 512 2]), .round .succeed, .restart,
        .accept (session [.init 512 1, .readCluster .emmc 0]), .round .succeed])).map
          Handled.copied = some [⟨0x10000, 1024⟩] := by
    decide +kernel
  have hcapacity : (run St.step St.boot
      [.accept (session [.init 512 2]), .round .succeed, .restart,
        .accept (session [.init 512 1, .readCluster .emmc 0]), .round .succeed]).server.capacity
          = 512 := by
    decide +kernel
  obtain ⟨r, hr, hcopied⟩ := Option.map_eq_some_iff.mp hpoll
  have hfits := hread r hr ⟨0x10000, 1024⟩ (by rw [hcopied]; exact List.mem_singleton_self _)
  exact absurd (hfits.trans_eq hcapacity) (by decide)

end PsvEmmc
