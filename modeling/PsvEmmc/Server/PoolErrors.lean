/-
# `PsvEmmc.Server.PoolErrors` — does a refused INIT or DEINIT leave things as they were?

INIT is up to four kernel calls on two sides and DEINIT two, and none is
undone when a later one fails.  What the pools *are* (`Pool.view`) is the
flag, the recorded geometry and the allocated blocks; the uid and the pointer
are left out, since nothing reads them while the flag is clear.

A side's own refusal keeps its view unless the block was granted and its base
was not, or the allocation failed after another geometry was recorded
(`poolInit_view_eq_iff`).  The two sides together roll back exactly when
the side that goes first does not complete alone.
-/
import PsvEmmc.Server.Pools
import PsvEmmc.Lib.Runs

namespace PsvEmmc

open Words Memory Stream Runs

/-! ## One side -/

/-- The flag, the recorded geometry and the allocated blocks. -/
def Pool.view (p : Pool) : Bool × Int32 × Int32 × Heap :=
  (p.gClusterPoolInitialized, p.gBytesPerSector, p.gSectorsPerCluster, p.blocks)

/-- The refusals of an initialization that come before any update, or repeat the last one. -/
def Pool.InitKeeps (k : PoolAnswers) (bytesPerSector sectorsPerCluster : Int32) (p : Pool) :
    Prop :=
  p.gClusterPoolInitialized = true ∨ bytesPerSector ≠ sdDefaultSectorSize ∨
    (k.alloc.isGranted = false ∧ p.gBytesPerSector = bytesPerSector ∧
      p.gSectorsPerCluster = sectorsPerCluster)

theorem Pool.not_initKeeps_of_completes {k : PoolAnswers} {bps spc : Int32} {p : Pool}
    (h : p.InitCompletes k bps) : ¬ p.InitKeeps k bps spc := by
  rintro (hset | hne | ⟨hrefused, _⟩)
  · exact absurd hset (ne_true_of_eq_false h.1)
  · exact hne h.2.1
  · exact absurd h.2.2.1 (ne_true_of_eq_false hrefused)

/-- A new block, or a flag that was set, shows in the view. -/
theorem poolInit_view_eq_iff (k : PoolAnswers) (bps spc : Int32) (p : Pool) :
    (poolInit k bps spc p).2.view = p.view ↔ p.InitKeeps k bps spc := by
  rcases poolInit_cases k bps spc p with
    ⟨hf, h⟩ | ⟨hf, hbps, h⟩ | ⟨hf, hbps, code, hneg, halloc, h⟩ |
    ⟨hf, hbps, uid, _, base, slack, halloc, hbase, h⟩ |
    ⟨hf, hbps, uid, _, base, slack, halloc, hbase, h⟩
  · rw [h]
    exact ⟨fun _ => Or.inl hf, fun _ => rfl⟩
  · rw [h]
    exact ⟨fun _ => Or.inr (Or.inl hbps), fun _ => rfl⟩
  · rw [h]
    constructor
    · intro heq
      obtain ⟨_, hb, hs, _⟩ := (by simpa [Pool.view, Pool.withGeometry] using heq :
        True ∧ bps = p.gBytesPerSector ∧ spc = p.gSectorsPerCluster ∧ True)
      exact Or.inr (Or.inr ⟨by rw [halloc]; rfl, hb.symm, hs.symm⟩)
    · rintro (hset | hne | ⟨_, hb, hs⟩)
      · exact absurd hset (ne_true_of_eq_false hf)
      · exact absurd hbps hne
      · simp only [Pool.view, Pool.withGeometry, hb, hs]
  · rw [h]
    constructor
    · intro heq
      have hblocks := congrArg (fun v => v.2.2.2.length) heq
      simp only [Pool.view, Pool.withGeometry, List.length_cons] at hblocks
      exact absurd hblocks (Nat.succ_ne_self _)
    · rintro (hset | hne | ⟨hrefused, _⟩)
      · exact absurd hset (ne_true_of_eq_false hf)
      · exact absurd hbps hne
      · rw [halloc] at hrefused
        exact absurd hrefused.symm Bool.false_ne_true
  · rw [h]
    constructor
    · intro heq
      have hflag := congrArg Prod.fst heq
      exact absurd (hflag.trans hf) (by simp [Pool.view, Pool.opened])
    · intro hkeeps
      exact absurd hkeeps (Pool.not_initKeeps_of_completes ⟨hf, hbps, by rw [halloc]; rfl, hbase⟩)

theorem poolDeinit_view_eq_iff (k : PoolAnswers) (p : Pool) :
    (poolDeinit k p).2.view = p.view ↔ ¬ p.DeinitCompletes k := by
  rcases poolDeinit_completes_or k p with ⟨hc, h⟩ | ⟨hc, code, _, h⟩
  · rw [h]
    constructor
    · intro heq
      have hflag := congrArg Prod.fst heq
      exact absurd (hflag.trans hc.1) (by simp [Pool.view, Pool.closed])
    · intro hn
      exact absurd hc hn
  · rw [h]
    exact ⟨fun _ => hc, fun _ => rfl⟩

/-! ## Both sides -/

/-- The pools of the server and of the module. -/
def St.poolView (st : St) : (Bool × Int32 × Int32 × Heap) × (Bool × Int32 × Int32 × Heap) :=
  (st.server.view, st.driver.pool.view)

/-- An answer that reports an error leaves both pools as they were. -/
def RollsBack (st : St) (h : Handled) : Prop :=
  h.resp.vitaErr ≠ 0 ∨ h.resp.proxyErr ≠ 0 → h.st.poolView = st.poolView

/-- INIT does nothing, or its first side keeps what it had, or both sides complete. -/
def InitSettles (k : Answers) (st : St) : Prop :=
  st.server.gClusterPoolInitialized = true ∨ initRequest st.conn = none ∨
    ∃ bps spc, initRequest st.conn = some (bps, spc) ∧
      (st.server.InitKeeps k.user bps spc ∨
        (st.server.InitCompletes k.user bps ∧ st.driver.pool.InitCompletes k.kernel.pool bps))

/-- DEINIT does nothing, or both sides complete, or neither does. -/
def DeinitSettles (k : Answers) (st : St) : Prop :=
  st.server.gClusterPoolInitialized = false ∨
    (st.driver.pool.DeinitCompletes k.kernel.pool ↔ ¬ k.user.free < 0)

/-- An INIT whose fields arrived rolls back when its first side keeps what it had, or when
there is nothing to roll back. -/
theorem initPools_rollsBack_iff (k : Answers) (bps spc : Int32) (st : St) :
    ((initResponse k bps spc st.server st.driver).vitaErr ≠ 0 ∨
        (initResponse k bps spc st.server st.driver).proxyErr ≠ 0 →
      ((initPools k bps spc st.server st.driver).1.view,
        (initPools k bps spc st.server st.driver).2.pool.view) = st.poolView) ↔
    st.server.InitKeeps k.user bps spc ∨
      (st.server.InitCompletes k.user bps ∧ st.driver.pool.InitCompletes k.kernel.pool bps) := by
  have hserver : (initPools k bps spc st.server st.driver).1.view = st.server.view ↔
      st.server.InitKeeps k.user bps spc := poolInit_view_eq_iff k.user bps spc st.server
  rcases initPools_cases k bps spc st.server st.driver with
    ⟨hs, hd, hresp, _⟩ | ⟨hs, hd, hneg, _⟩ | ⟨hs, hneg, _, hdriver⟩
  · rw [hresp]
    constructor
    · intro _
      exact Or.inr ⟨hs, hd⟩
    · rintro _ (hv | hp)
      · exact absurd rfl hv
      · exact absurd rfl hp
  · -- The server's pool is there and the module reports an error.
    constructor
    · intro hrolls
      have heq := hrolls (Or.inr (Int32.ne_of_lt hneg))
      exact Or.inl (hserver.mp (congrArg Prod.fst heq))
    · rintro (hkeeps | ⟨_, hd'⟩)
      · exact absurd hkeeps (Pool.not_initKeeps_of_completes hs)
      · exact absurd hd' hd
  · -- The server's pool was refused and the module is not asked.
    constructor
    · intro hrolls
      have heq := hrolls (Or.inl (Int32.ne_of_lt hneg))
      exact Or.inl (hserver.mp (congrArg Prod.fst heq))
    · rintro (hkeeps | ⟨hs', _⟩) _
      · rw [hdriver, hserver.mpr hkeeps]
        rfl
      · exact absurd hs' hs

theorem init_rollsBack_iff (k : Answers) (st : St) :
    RollsBack st (handleCommand2 k st) ↔ InitSettles k st := by
  rcases handleCommand2_cases k st with ⟨hf, h⟩ | ⟨_, hreq, h⟩ | ⟨hf, bps, spc, hreq, h⟩
  · rw [h]
    exact ⟨fun _ => Or.inl hf, fun _ _ => rfl⟩
  · rw [h]
    exact ⟨fun _ => Or.inr (Or.inl hreq), fun _ _ => rfl⟩
  · rw [h]
    refine (initPools_rollsBack_iff k bps spc st).trans ?_
    constructor
    · intro hs
      exact Or.inr (Or.inr ⟨bps, spc, hreq, hs⟩)
    · rintro (hset | hnone | ⟨bps', spc', hreq', hs⟩)
      · exact absurd hset (ne_true_of_eq_false hf)
      · exact absurd (hnone.symm.trans hreq) (by simp)
      · obtain ⟨rfl, rfl⟩ := Prod.mk.inj (Option.some.inj (hreq'.symm.trans hreq))
        exact hs

theorem deinit_rollsBack_iff (k : Answers) (st : St) :
    RollsBack st (handleCommand3 k st) ↔ DeinitSettles k st := by
  rcases handleCommand3_cases k st with ⟨hf, h⟩ | ⟨hf, h⟩
  · rw [h]
    exact ⟨fun _ => Or.inl hf, fun _ _ => rfl⟩
  · have hsettles : DeinitSettles k st ↔
        (st.driver.pool.DeinitCompletes k.kernel.pool ↔ st.server.DeinitCompletes k.user) := by
      have hserver : st.server.DeinitCompletes k.user ↔ ¬ k.user.free < 0 :=
        ⟨fun hc => hc.2, fun hfree => ⟨hf, hfree⟩⟩
      rw [hserver]
      constructor
      · rintro (hclear | hs)
        · exact absurd hclear (ne_false_of_eq_true hf)
        · exact hs
      · exact Or.inr
    rw [hsettles, h]
    show ((poolDeinit k.user st.server).1 ≠ 0 ∨ (poolDeinit k.kernel.pool st.driver.pool).1 ≠ 0 →
      ((poolDeinit k.user st.server).2.view, (poolDeinit k.kernel.pool st.driver.pool).2.view) =
        (st.server.view, st.driver.pool.view)) ↔ _
    rw [Prod.mk.injEq, poolDeinit_view_eq_iff, poolDeinit_view_eq_iff]
    rcases poolDeinit_completes_or k.user st.server with ⟨hs, hsc⟩ | ⟨hs, code, hneg, hsc⟩ <;>
    rcases poolDeinit_completes_or k.kernel.pool st.driver.pool with
      ⟨hd, hdc⟩ | ⟨hd, code', hneg', hdc⟩
    · simp [hs, hd, hsc, hdc]
    · have := Int32.ne_of_lt hneg'
      simp [hs, hd, hsc, hdc, this]
    · have := Int32.ne_of_lt hneg
      simp [hs, hd, hsc, hdc, this]
    · simp [hs, hd]

/-! ## Runs -/

/-- An INIT or a DEINIT that this round answers with an error leaves both pools as they were. -/
def RoundRollsBack (st : St) : Event → Prop
  | .round k =>
      (nextCommand st.conn = some .init →
        RollsBack st.afterWord (handleCommand2 k st.afterWord)) ∧
      (nextCommand st.conn = some .deinit →
        RollsBack st.afterWord (handleCommand3 k st.afterWord))
  | _ => True

/-- An INIT or a DEINIT of this round settles. -/
def RoundSettles (st : St) : Event → Prop
  | .round k =>
      (nextCommand st.conn = some .init → InitSettles k st.afterWord) ∧
      (nextCommand st.conn = some .deinit → DeinitSettles k st.afterWord)
  | _ => True

theorem round_rollsBack_iff (st : St) (e : Event) : RoundRollsBack st e ↔ RoundSettles st e := by
  cases e with
  | accept conn => exact Iff.rfl
  | restart => exact Iff.rfl
  | round k =>
      exact and_congr (imp_congr_right fun _ => init_rollsBack_iff k st.afterWord)
        (imp_congr_right fun _ => deinit_rollsBack_iff k st.afterWord)

/-- **When INIT and DEINIT roll back.**  In every run, each INIT and DEINIT that is answered
with an error leaves both pools as they were exactly when each of them settles; and in every
state reached, whatever the kernels answer next, the one exactly when INIT settles and the
other exactly when DEINIT does. -/
theorem pool_requests_roll_back_iff (st : St) (events : List Event) :
    (Along St.step RoundRollsBack st events ↔ Along St.step RoundSettles st events) ∧
    ∀ k : Answers,
      (RollsBack (run St.step st events) (handleCommand2 k (run St.step st events)) ↔
        InitSettles k (run St.step st events)) ∧
      (RollsBack (run St.step st events) (handleCommand3 k (run St.step st events)) ↔
        DeinitSettles k (run St.step st events)) := by
  refine ⟨along_congr round_rollsBack_iff, ?_⟩
  intro k
  exact ⟨init_rollsBack_iff k _, deinit_rollsBack_iff k _⟩

/-- The module has no memory for its pool: INIT reports the error and the server keeps its own. -/
theorem init_leaves_server_pool :
    ¬ ∀ (k : Answers) (events : List Event),
      RollsBack (run St.step St.boot events).afterWord
          (handleCommand2 k (run St.step St.boot events).afterWord) ∧
        RollsBack (run St.step St.boot events).afterWord
          (handleCommand3 k (run St.step St.boot events).afterWord) := by
  intro h
  have hinit := (h { Answers.succeed with
    kernel := { DriverAnswers.succeed with pool := ⟨.refused (-1) (by decide), 0, 0⟩ } }
    [.accept (session [.init 512 8])]).1
  unfold RollsBack at hinit
  revert hinit
  decide +kernel

end PsvEmmc
