/-
# `PsvEmmc.Server.Restarts` — a module that outlives its server

The server's pool is gone when the server application ends; the module's is
not.  As long as no kernel call fails, the two are together a machine of three
states: both pools closed, both open, or the module's left alone by a server
that ended with open pools.  In the third state a new server makes its own pool
and then reports that the module refuses, but from there on a DEINIT finds both.

So an INIT that is executed opens whatever the state was, and only what comes
first after it matters: a DEINIT closes, and after a restart nothing but another
INIT helps.  A client can start a dump exactly when the last INIT was followed
by a DEINIT in the life of the same server (`init_succeeds_across_restarts`).
-/
import PsvEmmc.Server.Sessions
import PsvEmmc.Server.Requests

namespace PsvEmmc

open Words Memory Stream Runs

/-! ## The machine of three states -/

/-- The two pools, as their flags tell them. -/
inductive PoolsState where
  | closed
  | opened
  /-- The server that asked for the module's pool has ended. -/
  | orphaned
  deriving DecidableEq, Repr

/-- What moves the pools. -/
inductive PoolMove where
  | init
  | deinit
  | restart
  deriving DecidableEq, Repr

/-- An INIT opens whatever was there, a DEINIT and a restart act on open pools only. -/
def PoolsState.act : PoolsState → PoolMove → PoolsState
  | _, .init => .opened
  | .opened, .deinit => .closed
  | .opened, .restart => .orphaned
  | s, _ => s

/-- The request that a round executes, if it executes one. -/
def executedIn (st : St) : Event → Option Request
  | .round k => (poll k st).bind Handled.executed
  | _ => none

/-- An INIT counts when it asks for the default sector size. -/
def Request.move : Request → Option PoolMove
  | .init bps _ => if bps = sdDefaultSectorSize then some .init else none
  | .deinit => some .deinit
  | .ping | .term | .readSector _ _ | .readCluster _ _ | .writeSector _ _ _ | .writeCluster _ _ _ =>
      none

/-- The move that an event makes, if it makes one. -/
def poolMove (st : St) : Event → Option PoolMove
  | .restart => some .restart
  | e => (executedIn st e).bind Request.move

def St.poolsState (st : St) : PoolsState :=
  if st.server.gClusterPoolInitialized then .opened
  else if st.driver.pool.gClusterPoolInitialized then .orphaned
  else .closed

/-- Where the server has a pool, the module has one. -/
def St.Backed (st : St) : Prop :=
  st.server.gClusterPoolInitialized = true → st.driver.pool.gClusterPoolInitialized = true

/-- No kernel call fails. -/
def CallsSucceed (_ : St) : Event → Prop
  | .round k => k.Succeeds
  | _ => True

/-! ## The word of moves -/

/-- Pools that are not open are moved by an INIT only. -/
theorem act_of_ne_opened {s : PoolsState} (hs : s ≠ .opened) {m : PoolMove} (hm : m ≠ .init) :
    s.act m = s := by
  match s, m with
  | .opened, _ => exact absurd rfl hs
  | _, .init => exact absurd rfl hm
  | .closed, .deinit | .closed, .restart => rfl
  | .orphaned, .deinit | .orphaned, .restart => rfl

theorem foldl_act_of_ne_opened {s : PoolsState} (hs : s ≠ .opened) {moves : List PoolMove}
    (h : .init ∉ moves) : moves.foldl PoolsState.act s = s := by
  induction moves with
  | nil => rfl
  | cons m moves ih =>
      have hm : m ≠ .init := fun hm => h (hm ▸ List.mem_cons_self)
      rw [List.foldl_cons, act_of_ne_opened hs hm]
      exact ih fun hmoves => h (List.mem_cons_of_mem m hmoves)

/-- From open pools on, with no further INIT, only the first move matters. -/
theorem foldl_act_opened_iff {moves : List PoolMove} (h : .init ∉ moves) :
    moves.foldl PoolsState.act .opened = .closed ↔ moves.head? = some .deinit := by
  cases moves with
  | nil => simp
  | cons m moves =>
      have hmoves : .init ∉ moves := fun hmoves => h (List.mem_cons_of_mem m hmoves)
      rw [List.foldl_cons, List.head?_cons]
      match m with
      | .deinit =>
          exact iff_of_true (foldl_act_of_ne_opened (by decide) hmoves) rfl
      | .restart =>
          refine iff_of_false ?_ (by simp)
          rw [show PoolsState.act .opened .restart = .orphaned from rfl,
            foldl_act_of_ne_opened (by decide) hmoves]
          decide
      | .init => exact absurd List.mem_cons_self h

/-- The first move after the last INIT is a DEINIT. -/
def LastInitClosed (moves : List PoolMove) : Prop :=
  ∀ before after, moves = before ++ .init :: after → .init ∉ after →
    after.head? = some .deinit

theorem foldl_act_closed_iff (moves : List PoolMove) :
    moves.foldl PoolsState.act .closed = .closed ↔ LastInitClosed moves := by
  have hsplit : ∀ before after : List PoolMove,
      (before ++ .init :: after).foldl PoolsState.act .closed =
        after.foldl PoolsState.act .opened := by
    intro before after
    rw [List.foldl_append, List.foldl_cons]
    rfl
  constructor
  · rintro hclosed before after rfl hafter
    rw [hsplit] at hclosed
    exact (foldl_act_opened_iff hafter).mp hclosed
  · intro hlast
    by_cases hinit : .init ∈ moves
    · obtain ⟨after, before, hrev, hafter⟩ :=
        List.eq_append_cons_of_mem (List.mem_reverse.mpr hinit)
      have hmoves : moves = before.reverse ++ .init :: after.reverse := by
        rw [← List.reverse_reverse moves, hrev, List.reverse_append, List.reverse_cons,
          List.append_assoc]
        rfl
      have hnone : .init ∉ after.reverse := fun h => hafter (List.mem_reverse.mp h)
      rw [hmoves, hsplit]
      exact (foldl_act_opened_iff hnone).mpr (hlast _ _ hmoves hnone)
    · exact foldl_act_of_ne_opened (by decide) hinit

/-! ## One event -/

/-- From `st` to `st'` the pools make the move `m`, or none. -/
def St.Moves (st : St) (m : Option PoolMove) (st' : St) : Prop :=
  st'.Backed ∧ st'.poolsState = m.elim st.poolsState st.poolsState.act

theorem St.poolsState_of_set {st : St} (h : st.server.gClusterPoolInitialized = true) :
    st.poolsState = .opened :=
  if_pos h

theorem St.poolsState_of_unset {st : St} (h : st.server.gClusterPoolInitialized = false) :
    st.poolsState =
      if st.driver.pool.gClusterPoolInitialized then .orphaned else .closed :=
  if_neg (ne_true_of_eq_false h)

theorem St.SameControl.moves {st st' : St} (h : st.SameControl st') (hst : st.Backed) :
    st.Moves none st' := by
  obtain ⟨⟨mem, hs⟩, mem', hd⟩ := h
  rw [Moves, Backed, poolsState, hs, hd]
  exact ⟨hst, rfl⟩

/-- A server without a pool and calls that succeed: an INIT with the default sector size opens
the server's pool and leaves the module with one, and succeeds if the module had none. -/
theorem initPools_opens {k : Answers} (hk : k.Succeeds) (spc : Int32) {server : Pool}
    (driver : Driver) (hs : server.gClusterPoolInitialized = false) :
    (initPools k sdDefaultSectorSize spc server driver).1.gClusterPoolInitialized = true ∧
      (initPools k sdDefaultSectorSize spc server driver).2.pool.gClusterPoolInitialized = true ∧
      ((initResponse k sdDefaultSectorSize spc server driver).vitaErr = 0 ∧
          (initResponse k sdDefaultSectorSize spc server driver).proxyErr = 0 ↔
        driver.pool.gClusterPoolInitialized = false) := by
  cases hd : driver.pool.gClusterPoolInitialized with
  | false =>
      rcases initPools_flags hk sdDefaultSectorSize spc hs hd with
        ⟨_, hserver, hdriver, hresp⟩ | ⟨hne, _⟩
      · rw [hresp]
        exact ⟨hserver, hdriver, iff_of_true ⟨rfl, rfl⟩ rfl⟩
      · exact absurd rfl hne
  | true =>
      have hserver : server.InitCompletes k.user sdDefaultSectorSize :=
        ⟨hs, rfl, hk.user.granted, hk.user.base⟩
      have hmodule : psvemmcInitialize k.kernel sdDefaultSectorSize spc driver = (-1, driver) := by
        rw [psvemmcInitialize, poolInit_of_set hd]
      rcases poolInit_completes_or k.user sdDefaultSectorSize spc server with
        ⟨_, hcode, uid, base, slack, ho⟩ | ⟨hnot, _⟩
      · have hasked : ¬ (initializePool k.user sdDefaultSectorSize spc server).1 ≠ 0 :=
          not_not.mpr hcode
        rw [initPools, initResponse, if_neg hasked, if_neg hasked, hmodule]
        refine ⟨?_, hd, iff_of_false ?_ (Bool.noConfusion)⟩
        · show (initializePool k.user sdDefaultSectorSize spc server).2.gClusterPoolInitialized = _
          rw [initializePool, ho]
          rfl
        · rintro ⟨_, hproxy⟩
          exact absurd hproxy (by decide : (-1 : Int32) ≠ 0)
      · exact absurd hserver hnot

/-- With any other sector size an INIT opens nothing. -/
theorem initPools_refused {bps : Int32} (hbps : bps ≠ sdDefaultSectorSize) (k : Answers)
    (spc : Int32) (server : Pool) (driver : Driver) :
    (initPools k bps spc server driver).1.gClusterPoolInitialized =
        server.gClusterPoolInitialized ∧
      (initPools k bps spc server driver).2 = driver := by
  rcases initPools_cases k bps spc server driver with ⟨hc, _⟩ | ⟨hc, _⟩ | ⟨_, _, hflag, hdriver⟩
  · exact absurd hc.2.1 hbps
  · exact absurd hc.2.1 hbps
  · exact ⟨hflag, hdriver⟩

/-- A round that finds a command executes what its handler executes. -/
theorem poolMove_of_some {k : Answers} {st : St} {c : Command} (hc : nextCommand st.conn = some c) :
    poolMove st (.round k) = (handle c k st.afterWord).executed.bind Request.move := by
  simp only [poolMove, executedIn, poll, hc, Option.bind_some]

theorem handleCommand2_moves {k : Answers} (hk : k.Succeeds) {st : St} (hst : st.Backed) :
    st.Moves ((handleCommand2 k st).executed.bind Request.move) (handleCommand2 k st).st := by
  rcases handleCommand2_cases k st with ⟨_, h⟩ | ⟨_, _, h⟩ | ⟨hf, bps, spc, _, h⟩
  · rw [h]
    exact ⟨hst, rfl⟩
  · rw [h]
    exact St.SameControl.moves (.of_eq rfl rfl) hst
  · have hmove : (handleCommand2 k st).executed.bind Request.move =
        (Request.init bps spc).move := by
      rw [h]
      rfl
    rw [hmove, h]
    by_cases hbps : bps = sdDefaultSectorSize
    · have hinit : (Request.init bps spc).move = some .init := if_pos hbps
      subst hbps
      obtain ⟨hserver, hdriver, _⟩ := initPools_opens hk spc st.driver hf
      rw [hinit]
      refine ⟨fun _ => hdriver, (St.poolsState_of_set hserver).trans ?_⟩
      cases st.poolsState <;> rfl
    · have hnone : (Request.init bps spc).move = none := if_neg hbps
      obtain ⟨hserver, hdriver⟩ := initPools_refused hbps k spc st.server st.driver
      rw [hnone]
      refine ⟨fun hset => absurd hset (ne_true_of_eq_false (hserver.trans hf)), ?_⟩
      refine (St.poolsState_of_unset (hserver.trans hf)).trans ?_
      rw [Option.elim_none, St.poolsState_of_unset hf]
      show (if (initPools k bps spc st.server st.driver).2.pool.gClusterPoolInitialized then _
        else _) = _
      rw [hdriver]

theorem handleCommand3_moves {k : Answers} (hk : k.Succeeds) {st : St} (hst : st.Backed) :
    st.Moves ((handleCommand3 k st).executed.bind Request.move) (handleCommand3 k st).st := by
  rcases handleCommand3_cases k st with ⟨_, h⟩ | ⟨hf, h⟩
  · rw [h]
    exact ⟨hst, rfl⟩
  · have hmove : (handleCommand3 k st).executed.bind Request.move = some .deinit := by
      rw [h]
      rfl
    obtain ⟨hserver, hdriver⟩ := deinitPools_flags hk hf (hst hf)
    rw [hmove, h]
    refine ⟨fun hset => absurd hset (ne_true_of_eq_false hserver), ?_⟩
    refine (St.poolsState_of_unset hserver).trans ((if_neg (ne_true_of_eq_false hdriver)).trans ?_)
    rw [Option.elim_some, St.poolsState_of_set hf]
    rfl

/-- What the other commands execute moves nothing. -/
theorem move_of_executed {c : Command} (hi : c ≠ .init) (hd : c ≠ .deinit) (k : Answers) (st : St) :
    (handle c k st).executed.bind Request.move = none := by
  rcases handle_of_receive_or c k st with ⟨r, conn, hr, h⟩ | ⟨_, _, h⟩
  · have hcommand := receive_command hr
    rw [h]
    cases r with
    | init bps spc => exact absurd hcommand.symm hi
    | deinit => exact absurd hcommand.symm hd
    | ping | term | readSector dev n | readCluster dev n | writeSector dev n data
      | writeCluster dev n data => rfl
  · rw [h]
    rfl

theorem handle_moves {k : Answers} (hk : k.Succeeds) (c : Command) {st : St} (hst : st.Backed) :
    st.Moves ((handle c k st).executed.bind Request.move) (handle c k st).st := by
  by_cases hi : c = .init
  · subst hi
    exact handleCommand2_moves hk hst
  · by_cases hd : c = .deinit
    · subst hd
      exact handleCommand3_moves hk hst
    · rw [move_of_executed hi hd]
      exact (handle_sameControl hi hd k st).moves hst

/-- The step lemma: an event moves the pools as its move prescribes. -/
theorem step_moves {st : St} {e : Event} (he : CallsSucceed st e) (hst : st.Backed) :
    st.Moves (poolMove st e) (st.step e) := by
  cases e with
  | accept conn => exact ⟨hst, rfl⟩
  | restart =>
      refine ⟨fun hset => absurd hset Bool.false_ne_true, ?_⟩
      show (if st.driver.pool.gClusterPoolInitialized then PoolsState.orphaned else .closed) = _
      cases hs : st.server.gClusterPoolInitialized with
      | true =>
          rw [if_pos (hst hs), St.poolsState_of_set hs]
          rfl
      | false =>
          rw [St.poolsState_of_unset hs]
          split <;> rfl
  | round k =>
      show st.Moves (poolMove st (.round k)) (pollState k st)
      cases hc : nextCommand st.conn with
      | none =>
          have hnone : poolMove st (.round k) = none := by
            simp only [poolMove, executedIn, poll, hc, Option.bind_none]
          rw [hnone, pollState_of_none hc]
          exact ⟨hst, rfl⟩
      | some c =>
          have hword : st.afterWord.Backed := hst
          rw [poolMove_of_some hc, pollState_of_some hc]
          exact handle_moves he c hword

/-- The run lemma. -/
theorem pools_follow_moves {st : St} {events : List Event} (hst : st.Backed)
    (hrun : Along St.step CallsSucceed st events) :
    (run St.step st events).Backed ∧
      (run St.step st events).poolsState =
        (trace St.step poolMove st events).foldl PoolsState.act st.poolsState := by
  have hinv : ∀ s e, St.Backed s → CallsSucceed s e → St.Backed (s.step e) :=
    fun _ _ hs he => (step_moves he hs).1
  have hview : ∀ s e, St.Backed s → CallsSucceed s e →
      (s.step e).poolsState = (poolMove s e).elim s.poolsState s.poolsState.act :=
    fun _ _ hs he => (step_moves he hs).2
  exact ⟨inv_run hinv hst hrun, view_run hinv hview hst hrun⟩

/-! ## The next client -/

/-- An INIT that arrives complete succeeds exactly when both pools are closed. -/
theorem initSucceeds_iff_closed {k : Answers} (hk : k.Succeeds) (st : St) {spc : Int32}
    (hc : nextCommand st.conn = some .init)
    (hreq : initRequest st.afterWord.conn = some (sdDefaultSectorSize, spc)) :
    InitSucceeds k st ↔ st.poolsState = .closed := by
  have hpoll : poll k st = some (handleCommand2 k st.afterWord) := by
    simp only [poll, hc]
    rfl
  rw [InitSucceeds, hpoll]
  rcases handleCommand2_cases k st.afterWord with
    ⟨hf, h⟩ | ⟨_, hnone, _⟩ | ⟨hf, bps, spc', hreq', h⟩
  · have hopen : st.poolsState = .opened := St.poolsState_of_set hf
    rw [h, hopen]
    refine iff_of_false ?_ PoolsState.noConfusion
    rintro ⟨r, hr, _, hvita, _⟩
    obtain rfl := Option.some.inj hr
    exact absurd hvita (by decide : (-2 : Int32) ≠ 0)
  · exact absurd (hnone.symm.trans hreq) (by simp)
  · obtain ⟨rfl, rfl⟩ := Prod.mk.inj (Option.some.inj (hreq'.symm.trans hreq))
    have hf : st.server.gClusterPoolInitialized = false := hf
    obtain ⟨_, _, hiff⟩ := initPools_opens hk spc' st.driver hf
    have hclosed : st.poolsState = .closed ↔ st.driver.pool.gClusterPoolInitialized = false := by
      rw [St.poolsState_of_unset hf]
      cases st.driver.pool.gClusterPoolInitialized <;> simp
    rw [hclosed, ← hiff, h]
    constructor
    · rintro ⟨r, hr, _, herr⟩
      obtain rfl := Option.some.inj hr
      exact herr
    · intro herr
      exact ⟨_, rfl, rfl, herr⟩

/-- **When the next client can start, whatever became of the servers before.**  After any history
of connections, rounds and restarts in which no kernel call fails, from closed pools on, a new
client's INIT succeeds exactly when, of what was executed and of the restarts, the first after the
last INIT was a DEINIT. -/
theorem init_succeeds_across_restarts (st : St) (events : List Event) (conn : Inbound)
    (k : Answers) (spc : Int32) (hserver : st.server.gClusterPoolInitialized = false)
    (hdriver : st.driver.pool.gClusterPoolInitialized = false)
    (hrun : Along St.step CallsSucceed st events) (hk : k.Succeeds)
    (hc : nextCommand conn = some .init)
    (hreq : initRequest (conn.recv 4).rest = some (sdDefaultSectorSize, spc)) :
    InitSucceeds k ((run St.step st events).step (.accept conn)) ↔
      LastInitClosed (trace St.step poolMove st events) := by
  have hbacked : st.Backed := fun hset => absurd hset (ne_true_of_eq_false hserver)
  have hclosed : st.poolsState = .closed :=
    (St.poolsState_of_unset hserver).trans (if_neg (ne_true_of_eq_false hdriver))
  rw [initSucceeds_iff_closed hk ((run St.step st events).step (.accept conn)) hc hreq]
  show (run St.step st events).poolsState = .closed ↔ _
  rw [(pools_follow_moves hbacked hrun).2, hclosed]
  exact foldl_act_closed_iff _

/-- A client stops after INIT and the server is restarted. -/
def abandoned : List Event :=
  [.accept (session [.init 512 8]), .round .succeed, .restart]

/-- And the next client asks for INIT and, although it is refused, for DEINIT. -/
def recovered : List Event :=
  abandoned ++ [.accept (session [.init 512 8, .deinit]), .round .succeed, .round .succeed]

theorem init_succeeds_after_recovery :
    ¬ InitSucceeds .succeed
        ((run St.step St.boot abandoned).step (.accept (session [.init 512 8]))) ∧
      InitSucceeds .succeed
        ((run St.step St.boot recovered).step (.accept (session [.init 512 8]))) := by
  have hsucceeds := Answers.succeed_succeeds
  constructor
  · rw [init_succeeds_across_restarts St.boot abandoned (session [.init 512 8]) .succeed 8 rfl rfl
      ⟨trivial, hsucceeds, trivial, trivial⟩ hsucceeds (by decide +kernel) (by decide +kernel),
      ← foldl_act_closed_iff]
    decide +kernel
  · rw [init_succeeds_across_restarts St.boot recovered (session [.init 512 8]) .succeed 8 rfl rfl
      ⟨trivial, hsucceeds, trivial, trivial, hsucceeds, hsucceeds, trivial⟩ hsucceeds
      (by decide +kernel) (by decide +kernel), ← foldl_act_closed_iff]
    decide +kernel

end PsvEmmc
