/-
# `PsvEmmc.Server.Sessions` — can the next client start?

The pools outlive the connection.  When no kernel call fails and the server
is not restarted, the two sides are in step and together a machine of two
states, open and closed: an INIT that arrives complete opens it, a DEINIT
closes it, and nothing else moves it, the end of a connection included
(`pools_follow_requests`).  A client can start a dump exactly when the
machine is closed, so exactly when the last of these two requests was not an
INIT.
-/
import PsvEmmc.Server.Pools
import PsvEmmc.Lib.Runs

namespace PsvEmmc

open Words Memory Stream Runs

/-! ## The machine of two states -/

/-- A request that opens or closes the pools. -/
inductive PoolCommand where
  | init
  | deinit
  deriving DecidableEq, Repr

/-- The state after a command, whatever it was before. -/
def PoolCommand.opens : PoolCommand → Bool
  | .init => true
  | .deinit => false

/-- The pool command that a round finds on the connection: an INIT counts when both its
fields are there and it asks for the default sector size. -/
def poolCommand (st : St) : Event → Option PoolCommand
  | .round _ =>
      match nextCommand st.conn with
      | some .init =>
          match initRequest st.afterWord.conn with
          | some (bps, _) => if bps = sdDefaultSectorSize then some .init else none
          | none => none
      | some .deinit => some .deinit
      | _ => none
  | _ => none

/-- No kernel call fails and the server application is not restarted. -/
def NothingFails (_ : St) : Event → Prop
  | .accept _ => True
  | .round k => k.Succeeds
  | .restart => False

/-- The server has a pool exactly when the module has one. -/
def St.InStep (st : St) : Prop :=
  st.driver.pool.gClusterPoolInitialized = st.server.gClusterPoolInitialized

/-- Whether the server's pool is there. -/
def St.isOpen (st : St) : Bool := st.server.gClusterPoolInitialized

/-! ## The pools follow the requests -/

/-- Both flags are `b`. -/
def St.BothFlags (st : St) (b : Bool) : Prop :=
  st.server.gClusterPoolInitialized = b ∧ st.driver.pool.gClusterPoolInitialized = b

theorem St.SameControl.bothFlags {st st' : St} {b : Bool} (h : st.SameControl st')
    (hb : st.BothFlags b) : st'.BothFlags b := by
  obtain ⟨⟨mem, hs⟩, mem', hd⟩ := h
  constructor
  · rw [hs]
    exact hb.1
  · rw [hd]
    exact hb.2

/-- With closed pools and calls that succeed, INIT with the default sector size opens both
and any other INIT opens neither. -/
theorem initPools_flags {k : Answers} (hk : k.Succeeds) (bps spc : Int32) {server : Pool}
    {driver : Driver} (hs : server.gClusterPoolInitialized = false)
    (hd : driver.pool.gClusterPoolInitialized = false) :
    (bps = sdDefaultSectorSize ∧
      (initPools k bps spc server driver).1.gClusterPoolInitialized = true ∧
      (initPools k bps spc server driver).2.pool.gClusterPoolInitialized = true ∧
      initResponse k bps spc server driver = { command := Command.init.code }) ∨
    (bps ≠ sdDefaultSectorSize ∧
      (initPools k bps spc server driver).1.gClusterPoolInitialized = false ∧
      (initPools k bps spc server driver).2.pool.gClusterPoolInitialized = false) := by
  rcases initPools_cases k bps spc server driver with
    ⟨hc, _, hresp, _, _, _, _, _, _, ho⟩ | ⟨hc, hc', _⟩ | ⟨hc, _, hflag, hdriver⟩
  · left
    rw [ho]
    exact ⟨hc.2.1, rfl, rfl, hresp⟩
  · exact absurd ⟨hd, hc.2.1, hk.kernel.pool.granted, hk.kernel.pool.base⟩ hc'
  · right
    rw [hflag, hdriver]
    exact ⟨fun hbps => hc ⟨hs, hbps, hk.user.granted, hk.user.base⟩, hs, hd⟩

/-- With open pools and calls that succeed, DEINIT closes both. -/
theorem deinitPools_flags {k : Answers} (hk : k.Succeeds) {server : Pool} {driver : Driver}
    (hs : server.gClusterPoolInitialized = true)
    (hd : driver.pool.gClusterPoolInitialized = true) :
    (deinitPools k server driver).1.gClusterPoolInitialized = false ∧
      (deinitPools k server driver).2.pool.gClusterPoolInitialized = false := by
  rcases poolDeinit_completes_or k.user server with ⟨_, h⟩ | ⟨hc, _⟩
  · rcases poolDeinit_completes_or k.kernel.pool driver.pool with ⟨_, h'⟩ | ⟨hc', _⟩
    · simp only [deinitPools, deinitializePool, psvemmcDeinitialize, h, h', Pool.closed, and_self]
    · exact absurd ⟨hd, hk.kernel.pool.free⟩ hc'
  · exact absurd ⟨hs, hk.user.free⟩ hc

/-- What a round does to the two flags, one case for each command. -/
theorem round_flags {k : Answers} (hk : k.Succeeds) {st : St} {b : Bool} (hb : st.BothFlags b) :
    (pollState k st).BothFlags ((poolCommand st (.round k)).elim b PoolCommand.opens) := by
  cases hc : nextCommand st.conn with
  | none =>
      have hnone : poolCommand st (.round k) = none := by simp only [poolCommand, hc]
      rw [hnone, pollState_of_none hc]
      exact hb
  | some c =>
      rw [pollState_of_some hc]
      by_cases hi : c = .init
      · subst hi
        show (handleCommand2 k st.afterWord).st.BothFlags _
        rcases handleCommand2_cases k st.afterWord with
          ⟨hf, h⟩ | ⟨_, hreq, h⟩ | ⟨hf, bps, spc, hreq, h⟩
        · -- Already open: refused, and an INIT leaves it open.
          obtain rfl : b = true := hb.1.symm.trans hf
          have hopen : (poolCommand st (.round k)).elim true PoolCommand.opens = true := by
            simp only [poolCommand, hc]
            cases initRequest st.afterWord.conn with
            | none => rfl
            | some g =>
                obtain ⟨bps, spc⟩ := g
                dsimp only
                split <;> rfl
          rw [hopen, h]
          exact hb
        · have hnone : poolCommand st (.round k) = none := by simp only [poolCommand, hc, hreq]
          rw [hnone, h]
          exact hb
        · obtain rfl : b = false := hb.1.symm.trans hf
          rw [h]
          rcases initPools_flags hk bps spc hb.1 hb.2 with ⟨hbps, hs, hd, _⟩ | ⟨hbps, hs, hd⟩
          · have hsome : poolCommand st (.round k) = some .init := by
              simp only [poolCommand, hc, hreq, if_pos hbps]
            rw [hsome]
            exact ⟨hs, hd⟩
          · have hnone : poolCommand st (.round k) = none := by
              simp only [poolCommand, hc, hreq, if_neg hbps]
            rw [hnone]
            exact ⟨hs, hd⟩
      · by_cases hd : c = .deinit
        · subst hd
          have hsome : poolCommand st (.round k) = some .deinit := by simp only [poolCommand, hc]
          rw [hsome]
          show (handleCommand3 k st.afterWord).st.BothFlags false
          rcases handleCommand3_cases k st.afterWord with ⟨hf, h⟩ | ⟨hf, h⟩
          · rw [h]
            exact ⟨hf, hb.2.trans (hb.1.symm.trans hf)⟩
          · rw [h]
            exact deinitPools_flags hk hf (hb.2.trans (hb.1.symm.trans hf))
        · have hnone : poolCommand st (.round k) = none := by
            simp only [poolCommand, hc]
            cases c with
            | init => exact absurd rfl hi
            | deinit => exact absurd rfl hd
            | _ => rfl
          rw [hnone]
          exact (handle_sameControl hi hd k st.afterWord).bothFlags hb

/-- The step lemma: both flags are what the step's pool command sets, if it has one. -/
theorem step_flags {st : St} {e : Event} {b : Bool} (he : NothingFails st e)
    (hb : st.BothFlags b) :
    (st.step e).BothFlags ((poolCommand st e).elim b PoolCommand.opens) := by
  cases e with
  | accept conn => exact hb
  | round k => exact round_flags he hb
  | restart => exact absurd he not_false

theorem St.InStep.bothFlags {st : St} (h : st.InStep) : st.BothFlags st.isOpen := ⟨rfl, h⟩

/-- The run lemma: the pools stay in step, and are open exactly when the last pool command
that arrived opened them. -/
theorem pools_follow_requests {st : St} {events : List Event} (hst : st.InStep)
    (hrun : Along St.step NothingFails st events) :
    (run St.step st events).InStep ∧
      (run St.step st events).isOpen =
        ((trace St.step poolCommand st events).getLast?.map PoolCommand.opens).getD st.isOpen := by
  have hinv : ∀ s e, St.InStep s → NothingFails s e → St.InStep (s.step e) := by
    intro s e hs he
    obtain ⟨h₁, h₂⟩ := step_flags he hs.bothFlags
    exact h₂.trans h₁.symm
  have hview : ∀ s e, St.InStep s → NothingFails s e →
      (s.step e).isOpen = (poolCommand s e).elim s.isOpen (fun c => c.opens) := by
    intro s e hs he
    exact (step_flags he hs.bothFlags).1
  have hopen : (run St.step st events).isOpen =
      (trace St.step poolCommand st events).foldl (fun _ c => c.opens) st.isOpen :=
    view_run hinv hview hst hrun
  exact ⟨inv_run hinv hst hrun, hopen.trans (foldl_set PoolCommand.opens st.isOpen _)⟩

/-! ## The next client -/

/-- The next round on the connection answers an INIT with no error. -/
def InitSucceeds (k : Answers) (st : St) : Prop :=
  ∃ h, poll k st = some h ∧ h.resp.command = Command.init.code ∧
    h.resp.vitaErr = 0 ∧ h.resp.proxyErr = 0

/-- On pools in step, an INIT that arrives complete succeeds exactly when they are closed. -/
theorem initSucceeds_iff {k : Answers} (hk : k.Succeeds) (st : St) (hst : st.InStep) {spc : Int32}
    (hc : nextCommand st.conn = some .init)
    (hreq : initRequest st.afterWord.conn = some (sdDefaultSectorSize, spc)) :
    InitSucceeds k st ↔ st.isOpen = false := by
  have hpoll : poll k st = some (handleCommand2 k st.afterWord) := by
    simp only [poll, hc]
    rfl
  rcases handleCommand2_cases k st.afterWord with
    ⟨hf, h⟩ | ⟨_, hnone, _⟩ | ⟨hf, bps, spc', hreq', h⟩
  · constructor
    · rintro ⟨r, hr, _, hvita, _⟩
      obtain rfl := Option.some.inj (hpoll.symm.trans hr)
      rw [h] at hvita
      exact absurd hvita (by decide : (-2 : Int32) ≠ 0)
    · intro hclosed
      exact absurd hf (ne_true_of_eq_false hclosed)
  · exact absurd (hnone.symm.trans hreq) (by simp)
  · obtain ⟨rfl, rfl⟩ := Prod.mk.inj (Option.some.inj (hreq'.symm.trans hreq))
    constructor
    · intro _
      exact hf
    · intro _
      have hf : st.server.gClusterPoolInitialized = false := hf
      rcases initPools_flags hk sdDefaultSectorSize spc' hf (hst.trans hf) with
        ⟨_, _, _, hresp⟩ | ⟨hne, _⟩
      · refine ⟨_, hpoll, ?_⟩
        rw [h]
        show (initResponse k sdDefaultSectorSize spc' st.server st.driver).command = _ ∧
          (initResponse k sdDefaultSectorSize spc' st.server st.driver).vitaErr = _ ∧
          (initResponse k sdDefaultSectorSize spc' st.server st.driver).proxyErr = _
        rw [hresp]
        exact ⟨rfl, rfl, rfl⟩
      · exact absurd rfl hne

/-- **When the next client can start.**  After any history of connections and rounds in which
no kernel call fails, from closed pools on, a new client's INIT succeeds exactly when the
last pool command of the history was not an INIT. -/
theorem next_init_succeeds_iff (st : St) (events : List Event) (conn : Inbound) (k : Answers)
    (spc : Int32) (hserver : st.server.gClusterPoolInitialized = false)
    (hdriver : st.driver.pool.gClusterPoolInitialized = false)
    (hrun : Along St.step NothingFails st events) (hk : k.Succeeds)
    (hc : nextCommand conn = some .init)
    (hreq : initRequest (conn.recv 4).rest = some (sdDefaultSectorSize, spc)) :
    InitSucceeds k ((run St.step st events).step (.accept conn)) ↔
      (trace St.step poolCommand st events).getLast? ≠ some .init := by
  obtain ⟨hstep, hopen⟩ := pools_follow_requests (hdriver.trans hserver.symm) hrun
  rw [initSucceeds_iff hk ((run St.step st events).step (.accept conn)) hstep hc hreq]
  show (run St.step st events).isOpen = false ↔ _
  rw [hopen, show st.isOpen = false from hserver]
  cases (trace St.step poolCommand st events).getLast? with
  | none => simp
  | some c => cases c <;> simp [PoolCommand.opens]

/-- A client that opens, reads and closes leaves the pools to the next one. -/
theorem next_init_succeeds_after_dump :
    InitSucceeds .succeed ((run St.step St.boot
        [.accept (session [.init 512 1, .deinit]), .round .succeed, .round .succeed]).step
          (.accept (session [.init 512 8]))) ↔
      (trace St.step poolCommand St.boot
        [.accept (session [.init 512 1, .deinit]), .round .succeed, .round .succeed]).getLast? ≠
          some .init :=
  next_init_succeeds_iff St.boot
    [.accept (session [.init 512 1, .deinit]), .round .succeed, .round .succeed]
    (session [.init 512 8]) .succeed 8 rfl rfl
    ⟨trivial, Answers.succeed_succeeds, Answers.succeed_succeeds, trivial⟩ Answers.succeed_succeeds
    (by decide +kernel) (by decide +kernel)

/-- A client that stops after INIT keeps every later client out. -/
theorem next_init_refused_after_abort :
    ¬ ∀ (events : List Event) (conn : Inbound) (k : Answers) (spc : Int32),
      Along St.step NothingFails St.boot events → k.Succeeds →
      nextCommand conn = some .init →
      initRequest (conn.recv 4).rest = some (sdDefaultSectorSize, spc) →
      InitSucceeds k ((run St.step St.boot events).step (.accept conn)) := by
  intro h
  obtain ⟨r, hr, _, hvita, _⟩ := h [.accept (session [.init 512 8]), .round .succeed]
    (session [.init 512 8]) .succeed 8 ⟨trivial, Answers.succeed_succeeds, trivial⟩
    Answers.succeed_succeeds (by decide +kernel) (by decide +kernel)
  have hpoll : (poll .succeed ((run St.step St.boot
      [.accept (session [.init 512 8]), .round .succeed]).step
        (.accept (session [.init 512 8])))).map (fun r => r.resp.vitaErr) = some (-2) := by
    decide +kernel
  rw [hr] at hpoll
  exact absurd (hvita.symm.trans (Option.some.inj hpoll)) (by decide)

end PsvEmmc
