/-
# `PsvEmmc.Driver.Net` — messages to the debug client

`net.c` sends messages to a client in frames of `MSG_SIZE` bytes, so both ends
stay in step only while whole frames are sent.  `send_message` sends a frame
in as many pieces as `ksceNetSend` makes of it, and `send_message_to_client`
is to drop the connection when that fails.  It never is: `send_message`
returns `0` when `ksceNetSend` fails, and it asks again when nothing was sent,
for as long as nothing is.

So a run of messages is framed exactly when `ksceNetSend` sends something
whenever it is asked (`framing_iff`).  A failure before the first byte of a
message does not break a frame; the theorem says what is asked for when such
failures are left out as well.

The listen thread accepts a client when there is none, and sends it a first
message.  The calls here follow one another; `PsvEmmc.Driver.NetThreads` is
about threads.
-/
import PsvEmmc.Lib.Stream

namespace PsvEmmc

open Stream

/-! ## One message -/

def msgSize : Nat := 256

/-- `message_buffer` when a message has been copied to it. -/
def frame (msg : List UInt8) : List UInt8 := msg ++ List.replicate (msgSize - msg.length) 0

/-- The loop of `send_message`, over the bytes not sent yet; its `i`-th `ksceNetSend` is answered
by `answer i`.  It gives the return value and the bytes that were sent. -/
def sendMessageLoop (answer : Nat → Int) :
    (fuel i : Nat) → List UInt8 → Option (Int32 × List UInt8)
  | _, _, [] => some (0, [])
  | 0, _, _ :: _ => none
  | fuel + 1, i, b :: rest =>
      let (sendLen, accepted) := send (answer i) (b :: rest)
      -- `return 0; // for debuging purpose`
      if sendLen < 0 then some (0, [])
      else
        (sendMessageLoop answer fuel (i + 1) ((b :: rest).drop accepted.length)).map fun r =>
          (r.1, accepted ++ r.2)

def sendMessage (fuel : Nat) (msg : List UInt8) (answer : Nat → Int) :
    Option (Int32 × List UInt8) :=
  if msgSize < msg.length then some (0, []) else sendMessageLoop answer fuel 0 (frame msg)

/-! ## Connections -/

/-- A connection: the messages for it, the bytes sent on it, and whether its socket was closed. -/
structure Conn where
  msgs : List (List UInt8) := []
  sent : List UInt8 := []
  closed : Bool := false

/-- The globals, whether the listen thread runs, and the connections so far, the last one first. -/
structure Net where
  listening : Bool := true
  connInitialized : Int32 := 0
  clientSock : Int32 := 0
  conns : List Conn := []

/-- Something happens to the last connection. -/
def Net.onConn (s : Net) (f : Conn → Conn) : Net := { s with conns := s.conns.modifyHead f }

def closeClientSock (s : Net) : Net :=
  if s.clientSock = 0 then s
  else { s.onConn fun c => { c with closed := true } with clientSock := 0 }

/-- A message was given to `send_message`, and these bytes were sent. -/
def Net.record (s : Net) (msg bytes : List UInt8) : Net :=
  s.onConn fun c => { c with msgs := c.msgs ++ [msg], sent := c.sent ++ bytes }

def sendMessageToClient (fuel : Nat) (msg : List UInt8) (answer : Nat → Int) (s : Net) :
    Option (Int32 × Net) :=
  if msgSize < msg.length then some (-1, s)
  else if s.connInitialized = 1 then
    (sendMessage fuel msg answer).map fun (res, bytes) =>
      let s' := s.record msg bytes
      (0, if res < 0 then closeClientSock { s' with connInitialized := 0 } else s')
  else some (0, s)

/-- `"ping debug client\n"` in a buffer of a hundred bytes. -/
def pingMessage : List UInt8 :=
  [0x70, 0x69, 0x6E, 0x67, 0x20, 0x64, 0x65, 0x62, 0x75, 0x67, 0x20, 0x63, 0x6C, 0x69, 0x65, 0x6E,
    0x74, 0x0A] ++ List.replicate 82 0

/-- One round of `accept_single_connection`; `clsock` is what `ksceNetAccept` returns. -/
def acceptRound (fuel : Nat) (clsock : Int32) (answer : Nat → Int) (s : Net) : Option Net :=
  if s.listening = false then some s
  else if s.connInitialized = 1 then some s
  else if clsock < 0 then some { s with listening := false }
  else
    (sendMessageToClient fuel pingMessage answer
      { s with connInitialized := 1, clientSock := clsock, conns := {} :: s.conns }).map Prod.snd

/-! ## Runs -/

/-- A call with a message, or a round of the listen thread, and the answers to `ksceNetSend`. -/
inductive NetEvent where
  | call (msg : List UInt8) (answer : Nat → Int)
  | accept (clsock : Int32) (answer : Nat → Int)

def NetEvent.answer : NetEvent → Nat → Int
  | .call _ answer => answer
  | .accept _ answer => answer

def Net.step (fuel : Nat) (s : Net) : NetEvent → Option Net
  | .call msg answer => (sendMessageToClient fuel msg answer s).map Prod.snd
  | .accept clsock answer => acceptRound fuel clsock answer s

/-- The event sends a message. -/
def Net.Sends (s : Net) : NetEvent → Prop
  | .call msg _ => msg.length ≤ msgSize ∧ s.connInitialized = 1
  | .accept clsock _ => s.listening = true ∧ s.connInitialized ≠ 1 ∧ 0 ≤ clsock

/-- How many bytes the first `j` answers accept. -/
def accepted (answer : Nat → Int) (j : Nat) : Nat :=
  ((List.range j).map fun k => (answer k).toNat).sum

/-- Some `ksceNetSend` for a message fails or sends nothing, after `least` bytes or later. -/
def Fails (least : Nat) (answer : Nat → Int) : Prop :=
  ∃ j, (∀ k < j, 0 ≤ answer k) ∧ answer j ≤ 0 ∧ least ≤ accepted answer j ∧
    accepted answer j < msgSize

/-- The last connection was dropped. -/
def Net.Dropped (s : Net) : Prop :=
  s.connInitialized = 0 ∧ ∀ c ∈ s.conns.head?, c.closed = true

/-- Whole frames of messages for this connection, and perhaps a part of one more. -/
def Conn.Framed (c : Conn) : Prop :=
  ∃ (whole : List (List UInt8)) (last : List UInt8),
    c.sent = (whole.map frame).flatten ++ last ∧ whole.Sublist c.msgs ∧
    (last = [] ∨ ∃ msg, (whole ++ [msg]).Sublist c.msgs ∧ last <+: frame msg)

/-- Every call returns; when `ksceNetSend` failed in the middle of a message, which is after
`least` bytes or later, the connection has been dropped; and what was sent is framed. -/
def GoodRun (least : Nat) : Net → List NetEvent → Prop
  | _, [] => True
  | s, e :: es => ∃ s', (∃ fuel, s.step fuel e = some s') ∧
      (s.Sends e → Fails least e.answer → s'.Dropped) ∧ (∀ c ∈ s'.conns, c.Framed) ∧
      GoodRun least s' es

/-- The answers for the messages that fit, from the first connection on. -/
def usedAnswers (listening connected : Bool) : List NetEvent → List (Nat → Int)
  | [] => []
  | .call msg answer :: es =>
      (if connected = true ∧ msg.length ≤ msgSize then [answer] else []) ++
        usedAnswers listening connected es
  | .accept clsock answer :: es =>
      if listening = true ∧ connected = false then
        if clsock < 0 then usedAnswers false false es
        else answer :: usedAnswers true true es
      else usedAnswers listening connected es

/-! ## What a message does -/

theorem length_frame {msg : List UInt8} (h : msg.length ≤ msgSize) :
    (frame msg).length = msgSize := by
  rw [frame, List.length_append, List.length_replicate]
  omega

theorem length_pingMessage : pingMessage.length = 100 := by
  rw [pingMessage, List.length_append, List.length_replicate]
  rfl

theorem Fails.mono {m n : Nat} {answer : Nat → Int} (h : Fails n answer) (hmn : m ≤ n) :
    Fails m answer := by
  obtain ⟨j, hnonneg, hj, hle, hlt⟩ := h
  exact ⟨j, hnonneg, hj, hmn.trans hle, hlt⟩

/-- A message that is always taken further is not asked for in vain for ever. -/
theorem exists_ne_zero_of_not_fails {answer : Nat → Int} (h : ¬ Fails 0 answer) :
    ∃ j, answer j ≠ 0 := by
  by_contra hnone
  push Not at hnone
  exact h ⟨0, fun k hk => absurd hk (Nat.not_lt_zero k), (hnone 0).le, Nat.zero_le _,
    (by decide : 0 < 256)⟩

/-- The function never returns an error. -/
theorem sendMessageLoop_ret {answer : Nat → Int} {fuel i : Nat} {buf : List UInt8}
    {r : Int32 × List UInt8} (h : sendMessageLoop answer fuel i buf = some r) : r.1 = 0 := by
  induction fuel generalizing i buf r with
  | zero =>
      cases buf with
      | nil => cases h; rfl
      | cons b rest => cases h
  | succ fuel ih =>
      cases buf with
      | nil => cases h; rfl
      | cons b rest =>
          simp only [sendMessageLoop] at h
          split at h
          · cases h; rfl
          · obtain ⟨r', hr', rfl⟩ := Option.map_eq_some_iff.mp h
            have hret : r'.1 = 0 := ih hr'
            exact hret

/-- More rounds than enough change nothing. -/
theorem sendMessageLoop_mono {answer : Nat → Int} {fuel fuel' i : Nat} {buf : List UInt8}
    {r : Int32 × List UInt8} (h : sendMessageLoop answer fuel i buf = some r)
    (hfuel : fuel ≤ fuel') : sendMessageLoop answer fuel' i buf = some r := by
  induction fuel generalizing fuel' i buf r with
  | zero =>
      cases buf with
      | nil => rw [← h]; cases fuel' <;> rfl
      | cons b rest => cases h
  | succ fuel ih =>
      cases fuel' with
      | zero => exact absurd hfuel (Nat.not_succ_le_zero fuel)
      | succ fuel' =>
          cases buf with
          | nil => exact h
          | cons b rest =>
              simp only [sendMessageLoop] at h ⊢
              split at h
              · next hneg => rw [if_pos hneg, h]
              · next hneg =>
                  rw [if_neg hneg]
                  obtain ⟨r', hr', rfl⟩ := Option.map_eq_some_iff.mp h
                  rw [ih hr' (Nat.le_of_succ_le_succ hfuel)]
                  rfl

theorem sendMessageLoop_unique {answer : Nat → Int} {fuel fuel' i : Nat} {buf : List UInt8}
    {r r' : Int32 × List UInt8} (h : sendMessageLoop answer fuel i buf = some r)
    (h' : sendMessageLoop answer fuel' i buf = some r') : r = r' := by
  have hmax := sendMessageLoop_mono h (le_max_left fuel fuel')
  exact Option.some.inj (hmax.symm.trans (sendMessageLoop_mono h' (le_max_right fuel fuel')))

/-- A call that sends nothing is made again. -/
theorem sendMessageLoop_zero {answer : Nat → Int} {i : Nat} (h : answer i = 0) (fuel : Nat)
    (b : UInt8) (rest : List UInt8) :
    sendMessageLoop answer (fuel + 1) i (b :: rest) =
      sendMessageLoop answer fuel (i + 1) (b :: rest) := by
  have hsend : send 0 (b :: rest) = (0, []) := send_failed (le_refl 0) _
  simp only [sendMessageLoop, h, hsend, Int.lt_irrefl, if_false, List.length_nil,
    List.drop_zero, List.nil_append, Prod.mk.eta, Option.map_id']

theorem sendMessageLoop_zeros {answer : Nat → Int} {i j : Nat}
    (h : ∀ k < j, answer (i + k) = 0) (fuel : Nat) (b : UInt8) (rest : List UInt8) :
    sendMessageLoop answer (fuel + j) i (b :: rest) =
      sendMessageLoop answer fuel (i + j) (b :: rest) := by
  induction j generalizing fuel with
  | zero => rfl
  | succ j ih =>
      have hfuel : fuel + (j + 1) = fuel + 1 + j := by omega
      rw [hfuel, ih (fun k hk => h k (Nat.lt_succ_of_lt hk)),
        sendMessageLoop_zero (h j (Nat.lt_succ_self j))]
      rfl

/-- A client that takes nothing is asked for ever. -/
theorem sendMessageLoop_endless {answer : Nat → Int} (h : ∀ j, answer j = 0) (fuel i : Nat)
    (b : UInt8) (rest : List UInt8) : sendMessageLoop answer fuel i (b :: rest) = none := by
  induction fuel generalizing i with
  | zero => rfl
  | succ fuel ih => rw [sendMessageLoop_zero (h i), ih]

/-- Where the loop that gives up on nothing succeeds, this one does the same. -/
theorem sendMessageLoop_of_sendLoop {answer : Nat → Int} {fuel i : Nat} {buf bytes : List UInt8}
    (h : sendLoop answer fuel i buf = (true, bytes)) :
    sendMessageLoop answer fuel i buf = some (0, bytes) := by
  induction fuel generalizing i buf bytes with
  | zero =>
      cases buf with
      | nil => cases h; rfl
      | cons b rest => cases h
  | succ fuel ih =>
      cases buf with
      | nil => cases h; rfl
      | cons b rest =>
          simp only [sendLoop] at h
          simp only [sendMessageLoop]
          split at h
          · cases h
          · next hpos =>
              rw [if_neg fun hneg => hpos hneg.le]
              obtain ⟨hok, rfl⟩ := Prod.mk.inj h
              rw [ih (Prod.ext hok rfl)]
              rfl

theorem sendMessageLoop_whole {answer : Nat → Int} {i : Nat} {buf : List UInt8}
    (h : ¬ Stalls answer i buf.length) :
    sendMessageLoop answer buf.length i buf = some (0, buf) := by
  rcases sendLoop_spec answer buf.length i buf (le_refl _) with ⟨hok, hall, _⟩ | ⟨_, _, hstalls⟩
  · exact sendMessageLoop_of_sendLoop (Prod.ext hok hall)
  · exact absurd hstalls h

/-- Nothing is accepted by zeros. -/
theorem accepted_zeros {answer : Nat → Int} {j : Nat} (h : ∀ k < j, answer k = 0) (l : Nat) :
    accepted answer (j + l) = ((List.range l).map fun k => (answer (j + k)).toNat).sum := by
  have hzeros : ((List.range j).map fun k => (answer k).toNat) = List.replicate j 0 := by
    refine List.eq_replicate_iff.mpr ⟨by rw [List.length_map, List.length_range], fun n hn => ?_⟩
    obtain ⟨k, hk, rfl⟩ := List.mem_map.mp hn
    rw [h k (List.mem_range.mp hk)]
    rfl
  rw [accepted, List.range_add, List.map_append, List.sum_append, hzeros, List.sum_replicate,
    List.map_map, smul_zero, Nat.zero_add]
  rfl

/-- When only the first byte may be waited for or refused, the whole frame is sent, or nothing. -/
theorem message_sent {answer : Nat → Int} (hfails : ¬ Fails 1 answer) (hne : ∃ j, answer j ≠ 0)
    {buf : List UInt8} (hbuf : buf.length = msgSize) :
    ∃ fuel bytes, sendMessageLoop answer fuel 0 buf = some (0, bytes) ∧
      (bytes = buf ∨ bytes = []) := by
  have hfirst : ∀ k < Nat.find hne, answer k = 0 := fun k hk => not_not.mp (Nat.find_min hne hk)
  have hj := Nat.find_spec hne
  generalize Nat.find hne = j at hfirst hj
  have hzeros : ∀ k < j, answer (0 + k) = 0 := fun k hk => by rw [Nat.zero_add, hfirst k hk]
  obtain ⟨b, rest, rfl⟩ : ∃ b rest, buf = b :: rest := by
    cases buf with
    | nil => cases hbuf
    | cons b rest => exact ⟨b, rest, rfl⟩
  rcases lt_or_gt_of_ne hj with hneg | hpos
  · refine ⟨1 + j, [], ?_, Or.inr rfl⟩
    rw [sendMessageLoop_zeros hzeros, Nat.zero_add]
    simp only [sendMessageLoop, send_failed hneg.le, hneg, if_true]
  · refine ⟨(b :: rest).length + j, b :: rest, ?_, Or.inl rfl⟩
    rw [sendMessageLoop_zeros hzeros, Nat.zero_add]
    refine sendMessageLoop_whole fun hstalls => hfails ?_
    -- The first answer behind `j` that is not positive comes in the middle of the message.
    have hbad : ∃ l, answer (j + l) ≤ 0 := hstalls.imp fun _ h => h.1
    have hearlier : ∀ k < Nat.find hbad, 0 < answer (j + k) :=
      fun k hk => not_le.mp (Nat.find_min hbad hk)
    obtain ⟨l, hl, hsum⟩ := hstalls
    have hle : Nat.find hbad ≤ l := Nat.find_min' hbad hl
    have hat := Nat.find_spec hbad
    generalize Nat.find hbad = m at hearlier hle hat
    have hm : 0 < m := by
      rcases Nat.eq_zero_or_pos m with rfl | h
      · exact absurd hat (not_le.mpr hpos)
      · exact h
    have hsome : (answer (j + 0)).toNat ≤
        ((List.range m).map fun k => (answer (j + k)).toNat).sum :=
      List.single_le_sum (fun _ _ => Nat.zero_le _) _
        (List.mem_map.mpr ⟨0, List.mem_range.mpr hm, rfl⟩)
    have hprefix : ((List.range m).map fun k => (answer (j + k)).toNat).sum ≤
        ((List.range l).map fun k => (answer (j + k)).toNat).sum := by
      obtain ⟨d, rfl⟩ := Nat.exists_eq_add_of_le hle
      rw [List.range_add, List.map_append, List.sum_append]
      exact Nat.le_add_right _ _
    refine ⟨j + m, fun k hk => ?_, hat, ?_, ?_⟩
    · rcases Nat.lt_or_ge k j with hkj | hjk
      · exact (hfirst k hkj).ge
      · obtain ⟨d, rfl⟩ := Nat.exists_eq_add_of_le hjk
        exact (hearlier d (by omega)).le
    · rw [accepted_zeros hfirst]
      rw [Nat.add_zero] at hsome
      omega
    · rw [accepted_zeros hfirst]
      omega

/-! ## What an event does -/

/-- The message of an event. -/
def NetEvent.msg : NetEvent → List UInt8
  | .call msg _ => msg
  | .accept _ _ => pingMessage

/-- There is a connection. -/
def Net.connected (s : Net) : Bool := decide (s.connInitialized = 1)

/-- The state that an event sends its message in. -/
def Net.opened (s : Net) : NetEvent → Net
  | .call _ _ => s
  | .accept clsock _ =>
      { s with connInitialized := 1, clientSock := clsock, conns := {} :: s.conns }

theorem length_msg_le {s : Net} {e : NetEvent} (h : s.Sends e) : e.msg.length ≤ msgSize := by
  cases e with
  | call msg answer => exact h.1
  | accept clsock answer =>
      rw [NetEvent.msg, length_pingMessage]
      decide

/-- The return value of `send_message` is not an error, so only the message is recorded. -/
theorem sendMessageToClient_of_connected {s : Net} (hs : s.connInitialized = 1)
    {msg : List UInt8} (hmsg : msg.length ≤ msgSize) (fuel : Nat) (answer : Nat → Int) :
    (sendMessageToClient fuel msg answer s).map Prod.snd =
      (sendMessageLoop answer fuel 0 (frame msg)).map fun r => s.record msg r.2 := by
  rw [sendMessageToClient, if_neg (not_lt.mpr hmsg), if_pos hs, sendMessage,
    if_neg (not_lt.mpr hmsg), Option.map_map]
  refine Option.map_congr fun r hr => ?_
  have hret : ¬ r.1 < 0 := by
    rw [sendMessageLoop_ret hr]
    exact Int32.lt_irrefl
  exact if_neg hret

theorem Net.step_of_sends {s : Net} {e : NetEvent} (h : s.Sends e) (fuel : Nat) :
    s.step fuel e =
      (sendMessageLoop e.answer fuel 0 (frame e.msg)).map
        fun r => (s.opened e).record e.msg r.2 := by
  cases e with
  | call msg answer => exact sendMessageToClient_of_connected h.2 h.1 fuel answer
  | accept clsock answer =>
      have hsock : ¬ clsock < 0 := Int32.not_lt.mpr h.2.2
      rw [step, acceptRound, if_neg (by simp [h.1]), if_neg h.2.1, if_neg hsock]
      exact sendMessageToClient_of_connected rfl (length_msg_le h) fuel answer

theorem usedAnswers_of_sends {s : Net} {e : NetEvent} (h : s.Sends e) (es : List NetEvent) :
    usedAnswers s.listening s.connected (e :: es) =
      e.answer :: usedAnswers s.listening true es := by
  cases e with
  | call msg answer =>
      have hc : s.connected = true := decide_eq_true h.2
      rw [usedAnswers, if_pos ⟨hc, h.1⟩, hc]
      rfl
  | accept clsock answer =>
      have hc : s.connected = false := decide_eq_false h.2.1
      have hsock : ¬ clsock < 0 := Int32.not_lt.mpr h.2.2
      rw [usedAnswers, if_pos ⟨h.1, hc⟩, if_neg hsock, h.1]
      rfl

/-- An event that sends nothing returns, and leaves the connections. -/
theorem Net.step_of_not_sends {s : Net} {e : NetEvent} (h : ¬ s.Sends e) :
    ∃ s', (∀ fuel, s.step fuel e = some s') ∧ s'.conns = s.conns ∧
      ∀ es, usedAnswers s.listening s.connected (e :: es) =
        usedAnswers s'.listening s'.connected es := by
  cases e with
  | call msg answer =>
      refine ⟨s, fun fuel => ?_, rfl, fun es => ?_⟩
      · by_cases hmsg : msgSize < msg.length
        · rw [step, sendMessageToClient, if_pos hmsg]
          rfl
        · have hs : ¬ s.connInitialized = 1 := fun hs => h ⟨not_lt.mp hmsg, hs⟩
          rw [step, sendMessageToClient, if_neg hmsg, if_neg hs]
          rfl
      · have hnot : ¬ (s.connected = true ∧ msg.length ≤ msgSize) :=
          fun hboth => h ⟨hboth.2, of_decide_eq_true hboth.1⟩
        rw [usedAnswers, if_neg hnot]
        rfl
  | accept clsock answer =>
      by_cases hopen : s.listening = true ∧ s.connected = false
      · have hs : ¬ s.connInitialized = 1 := of_decide_eq_false hopen.2
        have hsock : clsock < 0 := Int32.not_le.mp fun hle => h ⟨hopen.1, hs, hle⟩
        refine ⟨{ s with listening := false }, fun fuel => ?_, rfl, fun es => ?_⟩
        · rw [step, acceptRound, if_neg (by simp [hopen.1]), if_neg hs, if_pos hsock]
        · rw [usedAnswers, if_pos hopen, if_pos hsock]
          show _ = usedAnswers false s.connected es
          rw [hopen.2]
      · refine ⟨s, fun fuel => ?_, rfl, fun es => by rw [usedAnswers, if_neg hopen]⟩
        rw [step, acceptRound]
        by_cases hlisten : s.listening = false
        · rw [if_pos hlisten]
        · have hs : s.connInitialized = 1 := by
            by_contra hs
            exact hopen ⟨by simpa using hlisten, decide_eq_false hs⟩
          rw [if_neg hlisten, if_pos hs]

/-! ## Whole frames -/

/-- Nothing but whole frames was sent. -/
def Conn.Whole (c : Conn) : Prop :=
  ∃ whole : List (List UInt8), c.sent = (whole.map frame).flatten ∧ whole.Sublist c.msgs

theorem Conn.Whole.framed {c : Conn} (h : c.Whole) : c.Framed := by
  obtain ⟨whole, hsent, hsub⟩ := h
  exact ⟨whole, [], by rw [hsent, List.append_nil], hsub, Or.inl rfl⟩

/-- A message of which all or nothing was sent keeps the frames whole. -/
theorem Net.whole_record {s : Net} (hs : ∀ c ∈ s.conns, c.Whole) {msg bytes : List UInt8}
    (hbytes : bytes = frame msg ∨ bytes = []) : ∀ c ∈ (s.record msg bytes).conns, c.Whole := by
  intro c hc
  have hconns : (s.record msg bytes).conns = s.conns.modifyHead _ := rfl
  rw [hconns] at hc
  cases hs' : s.conns with
  | nil =>
      rw [hs'] at hc
      exact absurd hc List.not_mem_nil
  | cons d ds =>
      rw [hs', List.modifyHead_cons] at hc
      rcases List.mem_cons.mp hc with rfl | hc
      · obtain ⟨whole, hsent, hsub⟩ := hs d (hs' ▸ List.mem_cons_self)
        rcases hbytes with rfl | rfl
        · refine ⟨whole ++ [msg], ?_, hsub.append_right [msg]⟩
          rw [List.map_append, List.flatten_append, ← hsent]
          exact congrArg (d.sent ++ ·) (List.append_nil _).symm
        · exact ⟨whole, (List.append_nil _).trans hsent, hsub.trans (List.sublist_append_left _ _)⟩
      · exact hs c (hs' ▸ List.mem_cons_of_mem d hc)

theorem Net.whole_opened {s : Net} (hs : ∀ c ∈ s.conns, c.Whole) (e : NetEvent) :
    ∀ c ∈ (s.opened e).conns, c.Whole := by
  cases e with
  | call msg answer => exact hs
  | accept clsock answer =>
      exact List.forall_mem_cons.mpr ⟨⟨[], rfl, List.Sublist.refl _⟩, hs⟩

/-- Where there is a connection the message finds it, and it is not dropped. -/
theorem Net.connInitialized_opened {s : Net} {e : NetEvent} (h : s.Sends e) :
    (s.opened e).connInitialized = 1 := by
  cases e with
  | call msg answer => exact h.2
  | accept clsock answer => rfl

theorem Net.not_dropped {s : Net} (h : s.connInitialized = 1) : ¬ s.Dropped := by
  intro hdrop
  exact absurd (h.symm.trans hdrop.1) (by decide)

/-! ## Runs of messages -/

/-- No answer for a message breaks it, and the client takes it at last. -/
def Taken (least : Nat) (answer : Nat → Int) : Prop :=
  ¬ Fails least answer ∧ ∃ j, answer j ≠ 0

/-- A call that returns and leaves no broken connection had its message taken. -/
theorem Net.taken_of_step {least fuel : Nat} {s s' : Net} {e : NetEvent} (hsends : s.Sends e)
    (hstep : s.step fuel e = some s') (hdrop : Fails least e.answer → s'.Dropped) :
    Taken least e.answer ∧ ∃ r, sendMessageLoop e.answer fuel 0 (frame e.msg) = some r ∧
      s' = (s.opened e).record e.msg r.2 := by
  rw [Net.step_of_sends hsends] at hstep
  obtain ⟨r, hr, rfl⟩ := Option.map_eq_some_iff.mp hstep
  have hconn : ((s.opened e).record e.msg r.2).connInitialized = 1 :=
    Net.connInitialized_opened hsends
  refine ⟨⟨fun hfails => Net.not_dropped hconn (hdrop hfails), ?_⟩, r, hr, rfl⟩
  by_contra hzeros
  push Not at hzeros
  have hbuf := length_frame (length_msg_le hsends)
  cases hframe : frame e.msg with
  | nil =>
      rw [hframe] at hbuf
      cases hbuf
  | cons b rest =>
      rw [hframe, sendMessageLoop_endless hzeros] at hr
      cases hr

theorem goodRun_iff {least : Nat} (hleast : least ≤ 1) {s : Net} (hs : ∀ c ∈ s.conns, c.Whole)
    (es : List NetEvent) :
    GoodRun least s es ↔
      ∀ answer ∈ usedAnswers s.listening s.connected es, Taken least answer := by
  induction es generalizing s with
  | nil => exact iff_of_true trivial fun _ h => absurd h List.not_mem_nil
  | cons e es ih =>
      by_cases hsends : s.Sends e
      · have hbuf := length_frame (length_msg_le hsends)
        have hconn := Net.connInitialized_opened hsends
        have hnext : ∀ bytes, (bytes = frame e.msg ∨ bytes = []) →
            (GoodRun least ((s.opened e).record e.msg bytes) es ↔
              ∀ answer ∈ usedAnswers s.listening true es, Taken least answer) := by
          intro bytes hbytes
          have hrest := ih (Net.whole_record (Net.whole_opened hs e) hbytes)
          have hlisten : ((s.opened e).record e.msg bytes).listening = s.listening := by
            cases e <;> rfl
          have hlive : ((s.opened e).record e.msg bytes).connected = true := decide_eq_true hconn
          rwa [hlisten, hlive] at hrest
        rw [usedAnswers_of_sends hsends, List.forall_mem_cons]
        constructor
        · rintro ⟨s', ⟨fuel, hstep⟩, hdrop, _, hrest⟩
          obtain ⟨⟨hfails, hne⟩, r, hr, rfl⟩ := Net.taken_of_step hsends hstep (hdrop hsends)
          obtain ⟨fuel', bytes, hloop, hbytes⟩ :=
            message_sent (fun h => hfails (h.mono hleast)) hne hbuf
          obtain rfl := sendMessageLoop_unique hr hloop
          exact ⟨⟨hfails, hne⟩, (hnext bytes hbytes).mp hrest⟩
        · rintro ⟨⟨hfails, hne⟩, hrest⟩
          obtain ⟨fuel, bytes, hloop, hbytes⟩ :=
            message_sent (fun h => hfails (h.mono hleast)) hne hbuf
          refine ⟨(s.opened e).record e.msg bytes, ⟨fuel, ?_⟩, fun _ h => absurd h hfails, ?_,
            (hnext bytes hbytes).mpr hrest⟩
          · rw [Net.step_of_sends hsends, hloop]
            rfl
          · exact fun c hc => (Net.whole_record (Net.whole_opened hs e) hbytes c hc).framed
      · obtain ⟨s', hstep, hconns, hused⟩ := Net.step_of_not_sends hsends
        have hs' : ∀ c ∈ s'.conns, c.Whole := by rwa [hconns]
        rw [hused es, ← ih hs']
        constructor
        · rintro ⟨s'', ⟨fuel, hstep'⟩, _, _, hrest⟩
          obtain rfl := Option.some.inj ((hstep fuel).symm.trans hstep')
          exact hrest
        · exact fun hrest => ⟨s', ⟨0, hstep 0⟩, fun h => absurd h hsends,
            fun c hc => (hs' c hc).framed, hrest⟩

/-- **When is a run of messages framed?**  Exactly when `ksceNetSend` sends something whenever it
is asked.  If a failure counts only behind the first byte of a message, exactly when there is
none and no message waits for its first byte for ever. -/
theorem framing_iff (es : List NetEvent) :
    (GoodRun 0 {} es ↔ ∀ answer ∈ usedAnswers true false es, ¬ Fails 0 answer) ∧
    (GoodRun 1 {} es ↔ ∀ answer ∈ usedAnswers true false es,
      ¬ Fails 1 answer ∧ ∃ j, answer j ≠ 0) := by
  have hstart : ∀ c ∈ ({} : Net).conns, c.Whole := fun c hc => absurd hc List.not_mem_nil
  refine ⟨(goodRun_iff (Nat.zero_le 1) hstart es).trans ?_, goodRun_iff (le_refl 1) hstart es⟩
  exact forall₂_congr fun answer _ =>
    and_iff_left_of_imp exists_ne_zero_of_not_fails

/-- After a hundred bytes `ksceNetSend` fails. -/
def brokenAnswer : Nat → Int
  | 0 => 100
  | _ => -1

/-- The connection is kept, and the next frame follows the broken one. -/
theorem broken_frame_followed :
    ¬ GoodRun 1 {} [.accept 5 (fun _ => 256), .call [1] brokenAnswer,
      .call [2] (fun _ => 256)] := by
  rw [goodRun_iff (le_refl 1) (fun c hc => absurd hc List.not_mem_nil)]
  intro h
  exact (h brokenAnswer (by simp [usedAnswers, Net.connected, msgSize])).1
    ⟨1, by decide, by decide, by decide, by decide⟩

end PsvEmmc
