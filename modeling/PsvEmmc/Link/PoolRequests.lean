/-
# `PsvEmmc.Link.PoolRequests` — does the client see that INIT or DEINIT was rejected?

The server stores `vita_err` and `proxy_err` as `int` and puts a negative
code there for a rejection.  The client declares the same two words as
`uint32_t`, and an unsigned word is never below zero, so `emmc_init` and
`emmc_deinit` return 0 for every response that arrives with the right command
word (`emmcInit_link`, `emmcDeinit_link`).  They agree with the server exactly
when the server accepted the request.
-/
import PsvEmmc.Link

namespace PsvEmmc

open Words Memory Stream

/-! ## What the server says -/

/-- The server's response reports no error: the command word and two codes that are not
negative as `int`s. -/
def Response.Accepts (c : Command) (r : Response) : Prop :=
  r.command = c.code ∧ 0 ≤ r.vitaErr ∧ 0 ≤ r.proxyErr

/-- The responses of the two pool requests are one struct of three words, sent with one call. -/
def PoolReply (c : Command) (k : Answers) (h : Handled) : Prop :=
  h.resp.command = c.code ∧ h.resp.data = [] ∧ h.sent = (send (k.accept 0) h.resp.encode).2

theorem init_poolReply (k : Answers) (st : St) : PoolReply .init k (handle .init k st) := by
  rcases handleCommand2_cases k st with ⟨_, h⟩ | ⟨_, _, h⟩ | ⟨_, bps, spc, _, h⟩ <;>
  · rw [show handle .init k st = handleCommand2 k st from rfl, h]
    exact ⟨rfl, rfl, rfl⟩

theorem deinit_poolReply (k : Answers) (st : St) : PoolReply .deinit k (handle .deinit k st) := by
  rcases handleCommand3_cases k st with ⟨_, h⟩ | ⟨_, h⟩ <;>
  · rw [show handle .deinit k st = handleCommand3 k st from rfl, h]
    exact ⟨rfl, rfl, rfl⟩

theorem not_accepts_of_vitaErr {c : Command} {r : Response} (h : r.vitaErr < 0) :
    ¬ r.Accepts c :=
  fun ha => Int32.not_lt.mpr ha.2.1 h

theorem not_accepts_of_proxyErr {c : Command} {r : Response} (h : r.proxyErr < 0) :
    ¬ r.Accepts c :=
  fun ha => Int32.not_lt.mpr ha.2.2 h

/-- The response to an INIT whose fields arrived reports no error exactly when both sides
complete. -/
theorem initResponse_accepts_iff (k : Answers) (bps spc : Int32) (server : Pool)
    (driver : Driver) :
    (initResponse k bps spc server driver).Accepts .init ↔
      server.InitCompletes k.user bps ∧ driver.pool.InitCompletes k.kernel.pool bps := by
  rcases initPools_cases k bps spc server driver with
    ⟨hs, hd, hresp, _⟩ | ⟨hs, hd, hneg, _⟩ | ⟨hs, hneg, _⟩
  · rw [hresp]
    constructor
    · intro _
      exact ⟨hs, hd⟩
    · intro _
      exact ⟨rfl, (by decide : (0 : Int32) ≤ 0), (by decide : (0 : Int32) ≤ 0)⟩
  · constructor
    · intro ha
      exact absurd ha (not_accepts_of_proxyErr hneg)
    · intro hboth
      exact absurd hboth.2 hd
  · constructor
    · intro ha
      exact absurd ha (not_accepts_of_vitaErr hneg)
    · intro hboth
      exact absurd hboth.1 hs

/-- DEINIT reports no error exactly when both sides complete. -/
theorem deinitResponse_accepts_iff (k : Answers) (server : Pool) (driver : Driver) :
    (deinitResponse k server driver).Accepts .deinit ↔
      server.DeinitCompletes k.user ∧ driver.pool.DeinitCompletes k.kernel.pool := by
  have hvita : (deinitResponse k server driver).vitaErr = (poolDeinit k.user server).1 := rfl
  have hproxy : (deinitResponse k server driver).proxyErr =
      (poolDeinit k.kernel.pool driver.pool).1 := rfl
  rcases poolDeinit_completes_or k.user server with ⟨hs, h⟩ | ⟨hs, code, hneg, h⟩
  · rcases poolDeinit_completes_or k.kernel.pool driver.pool with
      ⟨hd, h'⟩ | ⟨hd, code', hneg', h'⟩
    · constructor
      · intro _
        exact ⟨hs, hd⟩
      · intro _
        refine ⟨rfl, ?_, ?_⟩
        · rw [hvita, h]
          exact (by decide : (0 : Int32) ≤ 0)
        · rw [hproxy, h']
          exact (by decide : (0 : Int32) ≤ 0)
    · constructor
      · intro ha
        refine absurd ha (not_accepts_of_proxyErr ?_)
        rw [hproxy, h']
        exact hneg'
      · intro hboth
        exact absurd hboth.2 hd
  · constructor
    · intro ha
      refine absurd ha (not_accepts_of_vitaErr ?_)
      rw [hvita, h]
      exact hneg
    · intro hboth
      exact absurd hboth.1 hs

/-! ## What the client makes of it -/

/-- An unsigned word is not below zero, so only the command word can be rejected. -/
theorem rejects_eq_false {c : Command} {r : Response} (h : r.command = c.code) :
    (CommandResponseBase.decode r.encode).rejects c = false := by
  rw [CommandResponseBase.decode_encode, h]
  simp [CommandResponseBase.rejects]

namespace Link

/-- The response header of a pool request is delivered whole, as sent and as received. -/
structure HeaderWhole (l : Link) : Prop where
  sent : 12 ≤ l.next.accept 0
  received : 12 ≤ l.inbox.cut l.inbox.received

/-- The link after a pool request whose response the client has received. -/
def afterReply (l : Link) (h : Handled) : Link :=
  { l.replied h with inbox := (l.replied h).inbox.advance 12 }

/-- The client's exchange ends with the server's response, which the client does not reject. -/
theorem exchange_poolReply {l : Link} (hready : l.Ready) (hwhole : l.HeaderWhole) {r : Request}
    (hword : 4 ≤ l.st.conn.cut l.st.conn.received)
    (hreply : PoolReply r.command l.next (handle r.command l.next (l.atHandler r))) :
    ∃ resp, exchange winsock r 12 l =
        (some resp, l.afterReply (handle r.command l.next (l.atHandler r))) ∧
      (CommandResponseBase.decode resp).rejects r.command = false := by
  have hserve := serve_word hready r hword
  set h := handle r.command l.next (l.atHandler r) with hh
  obtain ⟨hcode, hdata, hsent⟩ := hreply
  have hlen : h.resp.encode.length = 12 := by
    rw [Response.length_encode, hdata]
    rfl
  have hall : h.sent = h.resp.encode := by
    rw [hsent]
    exact (send_accepted_eq_iff (by rw [hlen]; decide)).mpr (by rw [hlen]; exact hwhole.sent)
  have hpend : (l.replied h).inbox.pending = h.resp.encode := by
    show l.inbox.pending ++ h.sent = _
    rw [hready.replies, List.nil_append, hall]
  have hexchange := exchange_link (n := 12) hready.connected
    (by rw [hserve]; exact hready.connected) (by decide)
    (by rw [hserve]; exact hwhole.received) (by rw [hserve, hpend, hlen])
  refine ⟨h.resp.encode, ?_, rejects_eq_false hcode⟩
  rw [hexchange, hserve, hpend, List.take_of_length_le (Nat.le_of_eq hlen)]
  rfl

/-- Whatever the server answers, `emmc_init` returns 0. -/
theorem emmcInit_link {l : Link} (hready : l.Ready) (hwhole : l.HeaderWhole)
    (hword : 4 ≤ l.st.conn.cut l.st.conn.received) (bps spc : Int32) :
    emmcInit winsock bps spc l =
      (0, l.afterReply (handle .init l.next (l.atHandler (.init bps spc)))) := by
  obtain ⟨resp, hexchange, hrejects⟩ := exchange_poolReply (r := .init bps spc) hready hwhole hword
    (init_poolReply l.next (l.atHandler (.init bps spc)))
  simp only [emmcInit, hexchange]
  exact if_neg (ne_true_of_eq_false hrejects)

/-- And so does `emmc_deinit`. -/
theorem emmcDeinit_link {l : Link} (hready : l.Ready) (hwhole : l.HeaderWhole)
    (hword : 4 ≤ l.st.conn.cut l.st.conn.received) :
    emmcDeinit winsock l =
      (0, l.afterReply (handle .deinit l.next (l.atHandler .deinit))) := by
  obtain ⟨resp, hexchange, hrejects⟩ := exchange_poolReply (r := .deinit) hready hwhole hword
    (deinit_poolReply l.next (l.atHandler .deinit))
  simp only [emmcDeinit, hexchange]
  exact if_neg (ne_true_of_eq_false hrejects)

/-! ## Agreement -/

/-- The client reports success exactly when the server's response reports no error. -/
def InitAgrees (l : Link) (bps spc : Int32) : Prop :=
  (emmcInit winsock bps spc l).1 = 0 ↔
    (handleCommand2 l.next (l.atHandler (.init bps spc))).resp.Accepts .init

def DeinitAgrees (l : Link) : Prop :=
  (emmcDeinit winsock l).1 = 0 ↔
    (handleCommand3 l.next (l.atHandler .deinit)).resp.Accepts .deinit

theorem initRequest_atHandler {l : Link} (hready : l.Ready) (bps spc : Int32) :
    initRequest (l.atHandler (.init bps spc)).conn =
      if 8 ≤ l.st.conn.cut (l.st.conn.received + 4) then some (bps, spc) else none := by
  have hpend : (l.atHandler (.init bps spc)).conn.pending = (leInt bps ++ leInt spc) ++ [] :=
    pending_atHandler hready (.init bps spc)
  split
  · rename_i hcut
    have hrecv : (l.atHandler (.init bps spc)).conn.recv 8 =
        ⟨8, leInt bps ++ leInt spc, (l.atHandler (.init bps spc)).conn.advance 8⟩ :=
      recv_fields (by decide) rfl hpend hcut
    simp only [initRequest, hrecv, if_true, ofLeInt_leInt_append, drop_four_leInt_append,
      ofLeInt_leInt]
  · rename_i hcut
    have hcount : ((l.atHandler (.init bps spc)).conn.recv 8).count ≠ 8 :=
      recv_fields_divided (by decide) (Int.not_le.mp hcut)
    simp only [initRequest, if_neg hcount]

theorem init_accepts_iff {l : Link} (hready : l.Ready) (bps spc : Int32) :
    (handleCommand2 l.next (l.atHandler (.init bps spc))).resp.Accepts .init ↔
      8 ≤ l.st.conn.cut (l.st.conn.received + 4) ∧
        l.st.server.InitCompletes l.next.user bps ∧
          l.st.driver.pool.InitCompletes l.next.kernel.pool bps := by
  have hreq := initRequest_atHandler hready bps spc
  rcases handleCommand2_cases l.next (l.atHandler (.init bps spc)) with
    ⟨hf, h⟩ | ⟨_, hnone, h⟩ | ⟨_, bps', spc', hsome, h⟩
  · rw [h]
    constructor
    · intro ha
      exact absurd ha (not_accepts_of_vitaErr (by decide : (-2 : Int32) < 0))
    · rintro ⟨_, hc, _⟩
      exact absurd hc.1 (ne_false_of_eq_true hf)
  · rw [h]
    constructor
    · intro ha
      exact absurd ha (not_accepts_of_vitaErr (by decide : (-1 : Int32) < 0))
    · rintro ⟨hcut, _⟩
      rw [if_pos hcut, hnone] at hreq
      exact absurd hreq (by simp)
  · have hcut : 8 ≤ l.st.conn.cut (l.st.conn.received + 4) := by
      by_contra hcut
      rw [if_neg hcut, hsome] at hreq
      exact absurd hreq (by simp)
    rw [if_pos hcut, hsome] at hreq
    obtain ⟨rfl, rfl⟩ := Prod.mk.inj (Option.some.inj hreq)
    rw [h]
    have hiff := initResponse_accepts_iff l.next bps' spc' l.st.server l.st.driver
    constructor
    · intro ha
      exact ⟨hcut, hiff.mp ha⟩
    · rintro ⟨_, hboth⟩
      exact hiff.mpr hboth

theorem deinit_accepts_iff (l : Link) :
    (handleCommand3 l.next (l.atHandler .deinit)).resp.Accepts .deinit ↔
      l.st.server.DeinitCompletes l.next.user ∧
        l.st.driver.pool.DeinitCompletes l.next.kernel.pool := by
  rcases handleCommand3_cases l.next (l.atHandler .deinit) with ⟨hf, h⟩ | ⟨_, h⟩
  · rw [h]
    constructor
    · intro ha
      exact absurd ha (not_accepts_of_vitaErr (by decide : (-2 : Int32) < 0))
    · rintro ⟨hc, _⟩
      exact absurd hc.1 (ne_true_of_eq_false hf)
  · rw [h]
    exact deinitResponse_accepts_iff l.next l.st.server l.st.driver

/-- **When the client and the server agree on INIT and DEINIT.**  For all states of the
server and the module and all answers of their kernels, with the request's command word and
the response header delivered whole: exactly when the server has nothing to report. -/
theorem pool_requests_agree_iff (l : Link) (bps spc : Int32) (hready : l.Ready)
    (hwhole : l.HeaderWhole) (hword : 4 ≤ l.st.conn.cut l.st.conn.received) :
    (l.InitAgrees bps spc ↔
      8 ≤ l.st.conn.cut (l.st.conn.received + 4) ∧
        l.st.server.InitCompletes l.next.user bps ∧
          l.st.driver.pool.InitCompletes l.next.kernel.pool bps) ∧
    (l.DeinitAgrees ↔
      l.st.server.DeinitCompletes l.next.user ∧
        l.st.driver.pool.DeinitCompletes l.next.kernel.pool) := by
  constructor
  · rw [InitAgrees, ← init_accepts_iff hready bps spc,
      iff_true_left (congrArg Prod.fst (emmcInit_link hready hwhole hword bps spc))]
  · rw [DeinitAgrees, ← deinit_accepts_iff l,
      iff_true_left (congrArg Prod.fst (emmcDeinit_link hready hwhole hword))]

/-- A first INIT and no DEINIT: the client agrees on the one and not on the other. -/
theorem pool_requests_agree_at_boot :
    ((connect St.boot fun _ => .succeed).InitAgrees 512 8 ↔
      8 ≤ (connect St.boot fun _ => .succeed).st.conn.cut 4 ∧
        St.boot.server.InitCompletes Answers.succeed.user 512 ∧
          St.boot.driver.pool.InitCompletes Answers.succeed.kernel.pool 512) ∧
    ((connect St.boot fun _ => .succeed).DeinitAgrees ↔
      St.boot.server.DeinitCompletes Answers.succeed.user ∧
        St.boot.driver.pool.DeinitCompletes Answers.succeed.kernel.pool) :=
  pool_requests_agree_iff (connect St.boot fun _ => .succeed) 512 8 (connect_ready _ _)
    ⟨by decide +kernel, by decide +kernel⟩ (by decide +kernel)

/-- A sector size the server does not take: it answers `vita_err = -2`, and `emmc_init`
returns 0. -/
theorem init_rejection_unseen :
    ¬ ∀ (l : Link) (bps spc : Int32), l.Ready → l.HeaderWhole →
      4 ≤ l.st.conn.cut l.st.conn.received → l.InitAgrees bps spc ∧ l.DeinitAgrees := by
  intro h
  have hagrees := (h (connect St.boot fun _ => .succeed) 4096 8 (connect_ready _ _)
    ⟨by decide +kernel, by decide +kernel⟩ (by decide +kernel)).1
  obtain ⟨_, hvita, _⟩ := hagrees.mp (by decide +kernel)
  exact absurd hvita (by decide +kernel)

end Link

end PsvEmmc
