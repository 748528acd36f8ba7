/-
# `PsvEmmc.Link` — the client, the network and the server together

The client's functions run against a world in which the other end of the
socket is the server's command loop.  Bytes sent reach the loop's connection,
the loop makes one round, and what the handler's sends accepted is on its way
back.  The two directions are cut independently, each as its own `Inbound`
says, and the kernels answer each request as they like.

A round that returns below zero ends the loop: what is sent afterwards is
lost.  A client that has closed its socket gets `SOCKET_ERROR` from every
call.
-/
import PsvEmmc.Client
import PsvEmmc.Server.Dispatch

namespace PsvEmmc

open Words Memory Stream

structure Link where
  st : St
  /-- The command loop still runs on this connection. -/
  serving : Bool
  /-- What the environment answers to the requests of this connection, in order. -/
  answers : Nat → Answers
  served : Nat
  /-- The client's end: responses on their way, and how its receives cut them. -/
  inbox : Inbound
  closed : Bool
  residue : Mem

namespace Link

/-- The answers to the next request. -/
def next (l : Link) : Answers := l.answers l.served

/-- The link after a handler's round. -/
def replied (l : Link) (h : Handled) : Link :=
  { l with st := h.st, serving := decide (0 ≤ h.ret), served := l.served + 1,
           inbox := l.inbox.push h.sent }

/-- Bytes reach the server, which makes one round. -/
def serve (bytes : List UInt8) (l : Link) : Link :=
  if l.serving = false then l
  else
    let st := { l.st with conn := l.st.conn.push bytes }
    match poll l.next st with
    | none => { l with st := st.afterWord, serving := false }
    | some h => l.replied h

def winsock : Winsock Link where
  send := fun bytes l => if l.closed then (socketError, l) else (bytes.length, l.serve bytes)
  recv := fun n l =>
    if l.closed then (none, l)
    else
      let r := l.inbox.recv n
      if r.count < 0 then (none, { l with inbox := r.rest })
      else (some r.bytes, { l with inbox := r.rest })
  closesocket := fun l => { l with closed := true }
  wsaCleanup := id
  residue := fun l => l.residue

/-- Both ends are there and nothing is on its way. -/
structure Ready (l : Link) : Prop where
  connected : l.closed = false
  serving : l.serving = true
  requests : l.st.conn.pending = []
  replies : l.inbox.pending = []

/-- A new connection to a running system, with nothing cut in either direction. -/
def connect (st : St) (answers : Nat → Answers) : Link where
  st := { st with conn := .uncut [] }
  serving := true
  answers := answers
  served := 0
  inbox := .uncut []
  closed := false
  residue := fun _ => 0

theorem connect_ready (st : St) (answers : Nat → Answers) : (connect st answers).Ready :=
  ⟨rfl, rfl, rfl, rfl⟩

/-! ## The client's side of an exchange -/

theorem send_link {l : Link} (hopen : l.closed = false) (bytes : List UInt8) :
    winsock.send bytes l = ((bytes.length : Int), l.serve bytes) := by
  simp only [winsock, hopen]
  rfl

/-- A receive that is not cut takes what it asks for. -/
theorem recv_link {l : Link} {n : Nat} (hopen : l.closed = false) (hn : 0 < n)
    (hcut : n ≤ l.inbox.cut l.inbox.received) (hpend : n ≤ l.inbox.pending.length) :
    winsock.recv n l =
      (some (l.inbox.pending.take n), { l with inbox := l.inbox.advance n }) := by
  have hnonneg : ¬ (n : Int) < 0 := Int.not_lt.mpr (Int.natCast_nonneg n)
  simp only [winsock, hopen, Inbound.recv_whole hn hcut hpend, if_neg hnonneg]
  rfl

/-- One send and one whole receive. -/
theorem exchange_link {l : Link} {r : Request} {n : Nat} (hopen : l.closed = false)
    (hopen' : (l.serve r.encode).closed = false) (hn : 0 < n)
    (hcut : n ≤ (l.serve r.encode).inbox.cut (l.serve r.encode).inbox.received)
    (hpend : n ≤ (l.serve r.encode).inbox.pending.length) :
    exchange winsock r n l =
      (some ((l.serve r.encode).inbox.pending.take n),
        { l.serve r.encode with inbox := (l.serve r.encode).inbox.advance n }) := by
  have hsent : ((r.encode.length : Nat) : Int) ≠ socketError := by
    intro h
    rw [socketError] at h
    omega
  have hover : overlay (load (winsock.residue (l.serve r.encode)) 0 n)
      ((l.serve r.encode).inbox.pending.take n) = (l.serve r.encode).inbox.pending.take n := by
    refine overlay_of_length_eq ?_
    rw [length_load, List.length_take, Nat.min_eq_left hpend]
  unfold exchange
  rw [send_link hopen]
  dsimp only
  rw [if_neg hsent, recv_link hopen' hn hcut hpend]
  exact congrArg (fun bytes => (some bytes, _)) hover

/-- The receive loop takes what is there, however it is cut. -/
theorem recvLoop_link (fuel need : Nat) (l : Link) (hopen : l.closed = false)
    (hfuel : need ≤ fuel) (hcut : ∀ p, 0 < l.inbox.cut p) (hpend : need ≤ l.inbox.pending.length) :
    recvLoop winsock fuel need l =
      some (some (l.inbox.pending.take need), { l with inbox := l.inbox.advance need }) := by
  induction fuel generalizing need l with
  | zero =>
      obtain rfl := Nat.le_zero.mp hfuel
      simp [recvLoop]
  | succ fuel ih =>
      cases need with
      | zero => simp [recvLoop]
      | succ need =>
          obtain ⟨n, hpos, hn, hp, hr⟩ := Inbound.recv_delivers (hcut l.inbox.received) hpend
          have hlen : (l.inbox.pending.take n).length = n := by
            rw [List.length_take, Nat.min_eq_left hp]
          have hnonneg : ¬ (n : Int) < 0 := Int.not_lt.mpr (Int.natCast_nonneg n)
          have hrecv : winsock.recv (need + 1) l =
              (some (l.inbox.pending.take n), { l with inbox := l.inbox.advance n }) := by
            simp only [winsock, hopen, hr, if_neg hnonneg]
            rfl
          have hrest := ih (need + 1 - n) { l with inbox := l.inbox.advance n } hopen (by omega)
            hcut (by
              show need + 1 - n ≤ (l.inbox.pending.drop n).length
              rw [List.length_drop]
              omega)
          simp only [recvLoop, hrecv, hlen, hrest, Inbound.advance_advance, Inbound.pending_advance]
          rw [← List.take_add, Nat.add_sub_of_le hn]

/-! ## The server's side of an exchange -/

/-- The state in which the handler of a request is called, when its command word came whole. -/
def atHandler (r : Request) (l : Link) : St :=
  { l.st with conn := (l.st.conn.push r.encode).advance 4 }

/-- The state in which a request is executed. -/
def atExecution (r : Request) (l : Link) : St :=
  { l.st with conn := (l.st.conn.push r.encode).advance r.encode.length }

theorem pending_atHandler {l : Link} (hready : l.Ready) (r : Request) :
    (l.atHandler r).conn.pending = r.fields ++ r.payload := by
  show (l.st.conn.pending ++ r.encode).drop 4 = _
  rw [hready.requests, List.nil_append, Request.encode]
  exact List.drop_left' (length_leInt _)

/-- A request whose word comes whole reaches its handler. -/
theorem serve_word {l : Link} (hready : l.Ready) (r : Request)
    (hword : 4 ≤ l.st.conn.cut l.st.conn.received) :
    l.serve r.encode = l.replied (handle r.command l.next (l.atHandler r)) := by
  have hpend : (l.st.conn.push r.encode).pending = r.encode ++ [] := by
    rw [Inbound.pending_push, hready.requests, List.nil_append, List.append_nil]
  obtain ⟨hnext, hrest⟩ := nextCommand_whole hpend hword
  have hpoll : poll l.next { l.st with conn := l.st.conn.push r.encode } =
      some (handle r.command l.next (l.atHandler r)) := by
    simp only [poll, hnext, St.afterWord, hrest]
    rfl
  unfold serve
  rw [if_neg (ne_false_of_eq_true hready.serving)]
  dsimp only
  rw [hpoll]

/-- A request that fits and comes whole is executed. -/
theorem handle_atHandler {l : Link} (hready : l.Ready) {r : Request} (hfits : r.Fits l.st.server)
    (hpos : ∀ p, 0 < l.st.conn.cut p)
    (hfields : r.fields.length ≤ l.st.conn.cut (l.st.conn.received + 4)) :
    handle r.command l.next (l.atHandler r) = r.execute l.next (l.atExecution r) := by
  have hbody : (l.atHandler r).conn.pending = r.fields ++ r.payload ++ [] := by
    rw [pending_atHandler hready, List.append_nil]
  have hfits' : r.Fits (l.atHandler r).server := hfits
  have hrec := receive_whole hfits' hbody hpos hfields
  have hexec : { l.atHandler r with
      conn := (l.atHandler r).conn.advance (r.fields.length + r.payload.length) } =
        l.atExecution r := by
    show ({ l.st with conn := ((l.st.conn.push r.encode).advance 4).advance _ } : St) = _
    rw [Inbound.advance_advance, ← length_encode]
    rfl
  rw [handle_of_receive hrec, hexec]

theorem serve_whole {l : Link} (hready : l.Ready) {r : Request} (hfits : r.Fits l.st.server)
    (hpos : ∀ p, 0 < l.st.conn.cut p) (hword : 4 ≤ l.st.conn.cut l.st.conn.received)
    (hfields : r.fields.length ≤ l.st.conn.cut (l.st.conn.received + 4)) :
    l.serve r.encode = l.replied (r.execute l.next (l.atExecution r)) := by
  rw [serve_word hready r hword, handle_atHandler hready hfits hpos hfields]

/-- The server has taken the whole request. -/
theorem pending_atExecution {l : Link} (hready : l.Ready) (r : Request) :
    (l.atExecution r).conn.pending = [] := by
  show (l.st.conn.pending ++ r.encode).drop r.encode.length = []
  rw [hready.requests, List.nil_append, List.drop_length]

end Link

end PsvEmmc
