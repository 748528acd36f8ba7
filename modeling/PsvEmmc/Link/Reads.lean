/-
# `PsvEmmc.Link.Reads` — what the client reads is what the driver read

One read of a sector or a cluster passes through two struct layouts, a send
loop and a receive loop that cut the stream at unrelated points.  As long as
the request and the header of a cluster's response come whole, the client's
return value is the driver's verdict, its buffer holds the driver's bytes,
and nothing of the response is left behind (`readSector_link`,
`readCluster_link`).

The sequence of reads is a run of the link.  The invariant `Serves n` says
that both sides have a cluster of `n` bytes, that nothing is left over from
the last response, and that the connection is ready unless the client has
closed it after a failed read.
-/
import PsvEmmc.Link.PoolRequests
import PsvEmmc.Server.Replies
import PsvEmmc.Lib.Runs

namespace PsvEmmc

open Words Memory Stream Runs

/-! ## The client's check -/

theorem toUInt32_eq_zero_iff {x : Int32} : x.toUInt32 = 0 ↔ x = 0 := by
  constructor
  · intro h
    rw [← Int32.toInt32_toUInt32 x, h]
    rfl
  · intro h
    rw [h]
    rfl

/-- A response to the right command with `vita_err = 0` is rejected for its `proxy_err` only. -/
theorem rejectsRead_iff {c : Command} {r : Response} (hc : r.command = c.code) :
    (CommandResponseBase.decode r.encode).rejectsRead c = true ↔ r.proxyErr ≠ 0 := by
  rw [CommandResponseBase.decode_encode, hc, ne_eq, ← toUInt32_eq_zero_iff]
  simp [CommandResponseBase.rejectsRead]

/-! ## Reads as requests -/

/-- A call of one of the six client reads. -/
inductive ClientRead where
  | sector (dev : Device) (sector : Int32)
  | cluster (dev : Device) (cluster : Int32)

namespace ClientRead

def request : ClientRead → Request
  | .sector dev i => .readSector dev i
  | .cluster dev i => .readCluster dev i

/-- The call, a cluster read with `expectedSize = size`. -/
def call (fuel size : Nat) : ClientRead → Link → Option (Int × List UInt8 × Link)
  | .sector dev i => emmcReadSectorOn dev Link.winsock fuel i
  | .cluster dev i => emmcReadClusterOn dev Link.winsock fuel i size

/-- What the driver answers to the request: its code, and what it puts into the reply buffer. -/
def driverRead (k : DriverAnswers) (d : Driver) : ClientRead → Int32 × Option (List UInt8)
  | .sector dev i =>
      let (code, data) := readSectorOn dev k i (Vector.replicate 0x200 0) d
      (code, some data.toList)
  | .cluster dev i =>
      let (code, data, _) := readClusterOn dev k i d
      (code, data)

/-- The number of bytes the client wants. -/
def dataSize (size : Nat) : ClientRead → Nat
  | .sector _ _ => 0x200
  | .cluster _ _ => size

theorem request_fits (rd : ClientRead) (server : Pool) : rd.request.Fits server := by
  cases rd <;> trivial

theorem length_fields (rd : ClientRead) : rd.request.fields.length = 4 := by
  cases rd <;> rfl

end ClientRead

/-- Only INIT and DEINIT change flags, geometries, pointers or blocks. -/
theorem execute_read_sameControl (rd : ClientRead) (k : Answers) (st : St) :
    st.SameControl (rd.request.execute k st).st := by
  cases rd with
  | sector dev sector => exact .of_eq rfl rfl
  | cluster dev cluster => exact ⟨⟨_, rfl⟩, readClusterOn_pool dev k.kernel cluster st.driver⟩

namespace Link

/-! ## One read on an open connection -/

/-- What every state between two reads has, with a cluster of `n` bytes. -/
structure Serves (n : Nat) (l : Link) : Prop where
  words : ∀ p, 4 ≤ l.st.conn.cut p
  cuts : ∀ p, 0 < l.inbox.cut p
  accepts : ∀ i j, 0 < (l.answers i).accept j
  serverSize : l.st.server.clusterBytes = n
  driverSize : l.st.driver.pool.clusterBytes = n
  idle : l.inbox.pending = []
  ready : l.closed = false → l.Ready

/-- A cluster response's header is accepted by one send and taken by one receive. -/
def HeaderDelivered (l : Link) : ClientRead → Prop
  | .sector _ _ => True
  | .cluster _ _ => l.HeaderWhole

/-- The handler's result for a read. -/
def handled (l : Link) (rd : ClientRead) : Handled :=
  rd.request.execute l.next (l.atExecution rd.request)

/-- The link after a read whose response has been received to its end. -/
def afterRead (l : Link) (rd : ClientRead) : Link :=
  { l.replied (l.handled rd) with
    inbox := (l.replied (l.handled rd)).inbox.advance (l.handled rd).sent.length }

theorem serve_read {n : Nat} {l : Link} (hl : l.Serves n) (hopen : l.closed = false)
    (rd : ClientRead) : l.serve rd.request.encode = l.replied (l.handled rd) := by
  refine serve_whole (hl.ready hopen) (rd.request_fits l.st.server) ?_ (hl.words _) ?_
  · intro p
    exact Int.lt_of_lt_of_le (by decide) (hl.words p)
  · rw [rd.length_fields]
    exact hl.words _

theorem pending_replied {n : Nat} {l : Link} (hl : l.Serves n) (h : Handled) :
    (l.replied h).inbox.pending = h.sent := by
  show l.inbox.pending ++ h.sent = h.sent
  rw [hl.idle, List.nil_append]

/-- With sends that accept something, a read's handler sends its whole reply. -/
theorem handled_whole {n : Nat} {l : Link} (hl : l.Serves n) (rd : ClientRead)
    (hdel : l.HeaderDelivered rd) :
    (l.handled rd).ret = 0 ∧ (l.handled rd).sent = (l.handled rd).reply rd.request.command := by
  have hpos : ∀ i j, 0 < l.next.accept (i + j) := fun i j => hl.accepts l.served (i + j)
  cases rd with
  | sector dev sector =>
      have hall := sendAll_of_pos (hpos 0) (l.handled (.sector dev sector)).resp.encode
      constructor
      · exact if_pos (congrArg Prod.fst hall)
      · exact (congrArg Prod.snd hall).trans (List.append_nil _).symm
  | cluster dev cluster =>
      set h := l.handled (.cluster dev cluster) with hh
      have hall := sendAll_of_pos (hpos 1)
        (load h.st.server.mem h.st.server.gClusterPoolPtr h.st.server.clusterBytes)
      have hlen : h.resp.encode.length = 12 := by
        rw [Response.length_encode]
        rfl
      have hheader : (send (l.next.accept 0) h.resp.encode).2 = h.resp.encode :=
        (send_accepted_eq_iff (by rw [hlen]; decide)).mpr (by rw [hlen]; exact hdel.sent)
      constructor
      · exact if_pos (congrArg Prod.fst hall)
      · show (send (l.next.accept 0) h.resp.encode).2 ++ (sendAll l.next.accept 1 _).2 = _
        rw [hheader]
        exact congrArg (h.resp.encode ++ ·) (congrArg Prod.snd hall)

/-- The link is as it was before the read, but for the bytes in the pools. -/
theorem afterRead_serves {n : Nat} {l : Link} (hl : l.Serves n) (hopen : l.closed = false)
    {rd : ClientRead} (hdel : l.HeaderDelivered rd) : (l.afterRead rd).Serves n := by
  obtain ⟨⟨mem, hs⟩, mem', hd⟩ := execute_read_sameControl rd l.next (l.atExecution rd.request)
  have hconn : (l.afterRead rd).st.conn = (l.atExecution rd.request).conn :=
    execute_conn rd.request l.next (l.atExecution rd.request)
  have hidle : (l.afterRead rd).inbox.pending = [] := by
    show ((l.replied (l.handled rd)).inbox.pending).drop _ = []
    rw [pending_replied hl, List.drop_length]
  refine ⟨?_, hl.cuts, hl.accepts, ?_, ?_, hidle, ?_⟩
  · rw [hconn]
    exact hl.words
  · show (l.handled rd).st.server.clusterBytes = n
    rw [show (l.handled rd).st.server = _ from hs]
    exact hl.serverSize
  · show (l.handled rd).st.driver.pool.clusterBytes = n
    rw [show (l.handled rd).st.driver = _ from hd]
    exact hl.driverSize
  · intro _
    refine ⟨hopen, ?_, ?_, hidle⟩
    · show decide (0 ≤ (l.handled rd).ret) = true
      rw [(handled_whole hl rd hdel).1]
      rfl
    · rw [hconn]
      exact pending_atExecution (hl.ready hopen) rd.request

theorem giveUp_serves {n : Nat} {l : Link} (hl : l.Serves n) : (winsock.giveUp l).Serves n :=
  ⟨hl.words, hl.cuts, hl.accepts, hl.serverSize, hl.driverSize, hl.idle,
    fun h => absurd h (by simp [Winsock.giveUp, winsock])⟩

/-- The client's sector read, with its response however cut. -/
theorem readSector_link {n fuel : Nat} {l : Link} (hl : l.Serves n) (hopen : l.closed = false)
    (hfuel : 12 + 0x200 ≤ fuel) (dev : Device) (sector : Int32) :
    emmcReadSectorOn dev winsock fuel sector l =
      some (if (l.handled (.sector dev sector)).resp.proxyErr = 0 then
          (0, (l.handled (.sector dev sector)).resp.data, l.afterRead (.sector dev sector))
        else (-1, [], winsock.giveUp (l.afterRead (.sector dev sector)))) := by
  set h := l.handled (.sector dev sector) with hh
  have hsent : h.sent = h.resp.encode :=
    (handled_whole hl (.sector dev sector) trivial).2.trans (List.append_nil _)
  have hresp := execute_resp (.readSector dev sector) l.next
    (l.atExecution (.readSector dev sector))
  have hcode : h.resp.command = (Command.readSector dev).code := hresp.1
  have hdata : h.resp.data.length = 0x200 := hresp.2
  have hlen : h.resp.encode.length = 12 + 0x200 := by
    rw [Response.length_encode, hdata]
  have hserve : l.serve (Request.readSector dev sector).encode = l.replied h :=
    serve_read hl hopen (.sector dev sector)
  have hpend : (l.replied h).inbox.pending = h.resp.encode := (pending_replied hl h).trans hsent
  have hrecv := recvLoop_link fuel (12 + 0x200) (l.replied h) hopen hfuel hl.cuts
    (by rw [hpend, hlen])
  have hnonneg : (((Request.readSector dev sector).encode.length : Nat) : Int) ≠ socketError := by
    rw [socketError]
    omega
  have hafter : { l.replied h with inbox := (l.replied h).inbox.advance (12 + 0x200) } =
      l.afterRead (.sector dev sector) := by
    rw [afterRead, ← hh, hsent, hlen]
  rw [hpend, List.take_of_length_le (Nat.le_of_eq hlen), hafter] at hrecv
  have hrejects := rejectsRead_iff hcode
  unfold emmcReadSectorOn
  rw [send_link hopen]
  dsimp only
  rw [if_neg hnonneg, hserve, hrecv]
  dsimp only
  by_cases herr : h.resp.proxyErr = 0
  · rw [if_pos herr, if_neg (fun hr => hrejects.mp hr herr), Response.drop_encode]
  · rw [if_neg herr, if_pos (hrejects.mpr herr)]

/-- The client's cluster read, with its header whole and the rest however cut. -/
theorem readCluster_link {n fuel : Nat} {l : Link} (hl : l.Serves n) (hopen : l.closed = false)
    (hfuel : n ≤ fuel) (dev : Device) (cluster : Int32) (hdel : l.HeaderWhole) :
    emmcReadClusterOn dev winsock fuel cluster n l =
      some (if (l.handled (.cluster dev cluster)).resp.proxyErr = 0 then
          (0, load (l.handled (.cluster dev cluster)).st.server.mem
              (l.handled (.cluster dev cluster)).st.server.gClusterPoolPtr n,
            l.afterRead (.cluster dev cluster))
        else (-1, load (l.handled (.cluster dev cluster)).st.server.mem
              (l.handled (.cluster dev cluster)).st.server.gClusterPoolPtr n,
            winsock.giveUp (l.afterRead (.cluster dev cluster)))) := by
  set h := l.handled (.cluster dev cluster) with hh
  have hsize : h.st.server.clusterBytes = n := hl.serverSize
  have hsent : h.sent = h.resp.encode ++ load h.st.server.mem h.st.server.gClusterPoolPtr n := by
    have hreply := (handled_whole hl (.cluster dev cluster) hdel).2
    rw [← hsize]
    exact hreply
  have hresp := execute_resp (.readCluster dev cluster) l.next
    (l.atExecution (.readCluster dev cluster))
  have hcode : h.resp.command = (Command.readCluster dev).code := hresp.1
  have hdata : h.resp.data.length = 0 := hresp.2
  have hlen : h.resp.encode.length = 12 := by
    rw [Response.length_encode, hdata]
  have hserve : l.serve (Request.readCluster dev cluster).encode = l.replied h :=
    serve_read hl hopen (.cluster dev cluster)
  have hpend : (l.replied h).inbox.pending =
      h.resp.encode ++ load h.st.server.mem h.st.server.gClusterPoolPtr n :=
    (pending_replied hl h).trans hsent
  have hexchange := exchange_link (r := .readCluster dev cluster) (n := 12) hopen
    (by rw [hserve]; exact hopen) (by decide) (by rw [hserve]; exact hdel.received)
    (by rw [hserve, hpend, List.length_append, hlen]; exact Nat.le_add_right 12 _)
  rw [hserve, hpend, List.take_left' hlen] at hexchange
  have hrest : ((l.replied h).inbox.advance 12).pending =
      load h.st.server.mem h.st.server.gClusterPoolPtr n := by
    rw [Inbound.pending_advance, hpend]
    exact List.drop_left' hlen
  have hrecv := recvLoop_link fuel n { l.replied h with inbox := (l.replied h).inbox.advance 12 }
    hopen hfuel hl.cuts (by rw [hrest, length_load])
  have hafter : { l.replied h with
      inbox := ((l.replied h).inbox.advance 12).advance n } =
        l.afterRead (.cluster dev cluster) := by
    rw [Inbound.advance_advance, afterRead, ← hh, hsent, List.length_append, hlen, length_load]
  rw [hrest, List.take_of_length_le (Nat.le_of_eq (length_load _ _ _))] at hrecv
  dsimp only at hrecv
  rw [hafter] at hrecv
  have hrejects := rejectsRead_iff hcode
  unfold emmcReadClusterOn
  rw [hexchange]
  dsimp only
  rw [hrecv]
  dsimp only
  by_cases herr : h.resp.proxyErr = 0
  · rw [if_pos herr, if_neg (fun hr => hrejects.mp hr herr)]
  · rw [if_neg herr, if_pos (hrejects.mpr herr)]

/-! ## What the driver placed -/

theorem sector_driverRead (l : Link) (dev : Device) (sector : Int32) :
    (ClientRead.sector dev sector).driverRead l.next.kernel l.st.driver =
      ((l.handled (.sector dev sector)).resp.proxyErr,
        some (l.handled (.sector dev sector)).resp.data) := rfl

/-- When the module's read succeeded, its bytes are what the server has in its pool. -/
theorem cluster_driverRead {n : Nat} {l : Link} (hl : l.Serves n) (dev : Device)
    (cluster : Int32) :
    ((ClientRead.cluster dev cluster).driverRead l.next.kernel l.st.driver).1 =
        (l.handled (.cluster dev cluster)).resp.proxyErr ∧
      ((l.handled (.cluster dev cluster)).resp.proxyErr = 0 →
        ((ClientRead.cluster dev cluster).driverRead l.next.kernel l.st.driver).2 =
          some (load (l.handled (.cluster dev cluster)).st.server.mem
            (l.handled (.cluster dev cluster)).st.server.gClusterPoolPtr n)) := by
  refine ⟨rfl, fun hzero => ?_⟩
  rcases readClusterOn_copied dev l.next.kernel cluster l.st.driver with
    ⟨hne, _⟩ | ⟨_, _, bytes, hsome, hlen⟩
  · exact absurd hzero hne
  · have hmem : (l.handled (.cluster dev cluster)).st.server.mem =
        store l.st.server.mem l.st.server.gClusterPoolPtr bytes := executeReadCluster_mem hsome
    have hload := load_store_of_length (m := l.st.server.mem) (a := l.st.server.gClusterPoolPtr)
      (hlen.trans hl.driverSize)
    rw [hmem]
    exact hsome.trans (congrArg some hload.symm)

/-! ## A sequence of reads -/

/-- A client that has closed its socket gets nothing. -/
theorem read_closed {l : Link} (hclosed : l.closed = true) (fuel n : Nat) (rd : ClientRead) :
    rd.call fuel n l = some (-1, [], winsock.giveUp l) := by
  have hsend : ∀ bytes, winsock.send bytes l = (socketError, l) := by
    intro bytes
    simp only [winsock, hclosed]
    rfl
  cases rd with
  | sector dev sector =>
      show emmcReadSectorOn dev winsock fuel sector l = _
      unfold emmcReadSectorOn
      rw [hsend]
      rfl
  | cluster dev cluster =>
      show emmcReadClusterOn dev winsock fuel cluster n l = _
      unfold emmcReadClusterOn exchange
      rw [hsend]
      rfl

/-- The world after a call. -/
def readStep (fuel n : Nat) (l : Link) (rd : ClientRead) : Link :=
  match rd.call fuel n l with
  | some (_, _, l') => l'
  | none => l

/-- The call returns; on an open connection it returns 0 exactly when the driver's read did,
and then with the driver's bytes; on a closed one it fails and nothing is requested; and no
byte of the response is left unread. -/
def ReadFaithful (fuel n : Nat) (l : Link) (rd : ClientRead) : Prop :=
  ∃ ret data l', rd.call fuel n l = some (ret, data, l') ∧
    (l.closed = false →
      (ret = 0 ↔ (rd.driverRead l.next.kernel l.st.driver).1 = 0) ∧
      (ret = 0 → (rd.driverRead l.next.kernel l.st.driver).2 = some data ∧
        data.length = rd.dataSize n)) ∧
    (l.closed = true → ret = -1 ∧ l'.served = l.served) ∧
    l'.inbox.pending = []

/-- One read on an open connection, either kind. -/
theorem read_open {n fuel : Nat} {l : Link} (hl : l.Serves n) (hopen : l.closed = false)
    (hsector : 12 + 0x200 ≤ fuel) (hcluster : n ≤ fuel) {rd : ClientRead}
    (hdel : l.HeaderDelivered rd) :
    ((rd.driverRead l.next.kernel l.st.driver).1 = 0 ∧ ∃ data,
      rd.call fuel n l = some (0, data, l.afterRead rd) ∧
        (rd.driverRead l.next.kernel l.st.driver).2 = some data ∧ data.length = rd.dataSize n) ∨
    ((rd.driverRead l.next.kernel l.st.driver).1 ≠ 0 ∧ ∃ data,
      rd.call fuel n l = some (-1, data, winsock.giveUp (l.afterRead rd))) := by
  cases rd with
  | sector dev sector =>
      have hcall := readSector_link hl hopen hsector dev sector
      have hread := sector_driverRead l dev sector
      by_cases herr : (l.handled (.sector dev sector)).resp.proxyErr = 0
      · left
        rw [if_pos herr] at hcall
        refine ⟨(congrArg Prod.fst hread).trans herr, _, hcall, congrArg Prod.snd hread, ?_⟩
        exact (execute_resp (.readSector dev sector) l.next _).2
      · right
        rw [if_neg herr] at hcall
        exact ⟨fun h => herr ((congrArg Prod.fst hread).symm.trans h), _, hcall⟩
  | cluster dev cluster =>
      have hcall := readCluster_link hl hopen hcluster dev cluster hdel
      obtain ⟨hcode, hdata⟩ := cluster_driverRead hl dev cluster
      by_cases herr : (l.handled (.cluster dev cluster)).resp.proxyErr = 0
      · left
        rw [if_pos herr] at hcall
        exact ⟨hcode.trans herr, _, hcall, hdata herr, length_load _ _ _⟩
      · right
        rw [if_neg herr] at hcall
        exact ⟨fun h => herr (hcode.symm.trans h), _, hcall⟩

/-- The step lemma: the read does what it should, and the next one starts as this one did. -/
theorem read_step {n fuel : Nat} (hsector : 12 + 0x200 ≤ fuel) (hcluster : n ≤ fuel) (l : Link)
    (rd : ClientRead) (hl : l.Serves n) (hdel : l.closed = false → l.HeaderDelivered rd) :
    ReadFaithful fuel n l rd ∧ (readStep fuel n l rd).Serves n := by
  cases hopen : l.closed with
  | true =>
      have hcall := read_closed hopen fuel n rd
      constructor
      · exact ⟨-1, [], _, hcall, fun h => absurd (hopen.symm.trans h) (by decide),
          fun _ => ⟨rfl, rfl⟩, hl.idle⟩
      · rw [readStep, hcall]
        exact giveUp_serves hl
  | false =>
      have hafter := afterRead_serves hl hopen (hdel hopen)
      rcases read_open hl hopen hsector hcluster (hdel hopen) with
        ⟨hzero, data, hcall, hdata, hlen⟩ | ⟨hne, data, hcall⟩
      · constructor
        · exact ⟨0, data, _, hcall, fun _ => ⟨⟨fun _ => hzero, fun _ => rfl⟩,
            fun _ => ⟨hdata, hlen⟩⟩, fun h => absurd (hopen.symm.trans h) (by decide), hafter.idle⟩
        · rw [readStep, hcall]
          exact hafter
      · constructor
        · exact ⟨-1, data, _, hcall, fun _ => ⟨⟨fun h => absurd h (by decide),
            fun h => absurd h hne⟩, fun h => absurd h (by decide)⟩,
            fun h => absurd (hopen.symm.trans h) (by decide), hafter.idle⟩
        · rw [readStep, hcall]
          exact giveUp_serves hafter

/-! ## After INIT -/

/-- An INIT that the server's response reports as done opens both pools, and the client's
`emmc_init` leaves the connection ready. -/
theorem emmcInit_opens {l : Link} (hready : l.Ready) (hwhole : l.HeaderWhole)
    (hpos : ∀ p, 4 ≤ l.st.conn.cut p) {spc : Int32}
    (ha : (handleCommand2 l.next
      (l.atHandler (.init sdDefaultSectorSize spc))).resp.Accepts .init) :
    ∃ uid base slack uid' base' slack' l', emmcInit winsock sdDefaultSectorSize spc l = (0, l') ∧
      l'.st = ⟨l.st.server.opened spc uid base slack,
        { l.st.driver with pool := l.st.driver.pool.opened spc uid' base' slack' },
        (l.atExecution (.init sdDefaultSectorSize spc)).conn⟩ ∧
      l'.Ready ∧ l'.served = l.served + 1 ∧ l'.answers = l.answers ∧
      l'.inbox.cut = l.inbox.cut := by
  obtain ⟨hfields, hs, hd⟩ := (init_accepts_iff hready sdDefaultSectorSize spc).mp ha
  have hexec : handle .init l.next (l.atHandler (.init sdDefaultSectorSize spc)) =
      executeInit sdDefaultSectorSize spc l.next
        (l.atExecution (.init sdDefaultSectorSize spc)) := by
    have hfits : (Request.init sdDefaultSectorSize spc).Fits l.st.server := hs.1
    exact handle_atHandler hready hfits (fun p => Int.lt_of_lt_of_le (by decide) (hpos p)) hfields
  have hinit := emmcInit_link hready hwhole (hpos _) sdDefaultSectorSize spc
  rw [hexec, executeInit_eq] at hinit
  rcases initPools_cases l.next sdDefaultSectorSize spc l.st.server l.st.driver with
    ⟨_, _, hresp, uid, base, slack, uid', base', slack', ho⟩ | ⟨_, hd', _⟩ | ⟨hs', _⟩
  · refine ⟨uid, base, slack, uid', base', slack', _, hinit, ?_, ?_, rfl, rfl, rfl⟩
    · show (⟨(initPools l.next sdDefaultSectorSize spc l.st.server l.st.driver).1,
        (initPools l.next sdDefaultSectorSize spc l.st.server l.st.driver).2, _⟩ : St) = _
      rw [ho]
    · have hret : 0 ≤ (send (l.next.accept 0) (initResponse l.next sdDefaultSectorSize spc
          l.st.server l.st.driver).encode).1 :=
        send_nonneg_iff.mpr (Int.le_trans (by decide) hwhole.sent)
      have hsent : (send (l.next.accept 0) (initResponse l.next sdDefaultSectorSize spc
          l.st.server l.st.driver).encode).2.length ≤ 12 := by
        rw [send_whole (by rw [Response.length_encode]; exact Nat.succ_pos _) hwhole.sent]
        exact Nat.le_refl 12
      refine ⟨hready.connected, decide_eq_true hret, ?_, ?_⟩
      · exact pending_atExecution hready (.init sdDefaultSectorSize spc)
      · show (l.inbox.pending ++ _).drop 12 = []
        rw [hready.replies, List.nil_append]
        exact List.drop_eq_nil_of_le hsent
  · exact absurd hd hd'
  · exact absurd hs hs'

/-- Below `2^31` bytes the product of the default sector size and a count is exact. -/
theorem clusterBytes_exact {s : Nat} (hs : 512 * s < 2 ^ 31) :
    (sdDefaultSectorSize * Int32.ofNat s).toUInt32.toNat = 512 * s := by
  have hspc : (Int32.ofNat s).toInt = s := Int32.toInt_ofNat_of_lt (by omega)
  have hmul := toNat_toUInt32_mul sdDefaultSectorSize (Int32.ofNat s)
  rw [hspc, show sdDefaultSectorSize.toInt = 512 from rfl] at hmul
  omega

/-- **The client reads what the driver read.**  After an INIT(512, s) that the server reports
as done, for every sequence of reads and however the responses are cut, as long as words and
the headers of cluster responses come whole: each read returns 0 exactly when the driver's
read did, with the driver's bytes, and leaves nothing unread. -/
theorem client_reads_faithful (l : Link) (s fuel : Nat) (reads : List ClientRead)
    (hs : 512 * s < 2 ^ 31) (hready : l.Ready) (hwhole : l.HeaderWhole)
    (hwords : ∀ p, 4 ≤ l.st.conn.cut p) (hcuts : ∀ p, 0 < l.inbox.cut p)
    (haccepts : ∀ i j, 0 < (l.answers i).accept j)
    (hinit : (handleCommand2 l.next
      (l.atHandler (.init sdDefaultSectorSize (Int32.ofNat s)))).resp.Accepts .init)
    (hsector : 12 + 0x200 ≤ fuel) (hcluster : 512 * s ≤ fuel)
    (hheaders : Along (readStep fuel (512 * s))
      (fun l rd => l.closed = false → l.HeaderDelivered rd)
      (emmcInit winsock sdDefaultSectorSize (Int32.ofNat s) l).2 reads) :
    (emmcInit winsock sdDefaultSectorSize (Int32.ofNat s) l).1 = 0 ∧
      Along (readStep fuel (512 * s)) (ReadFaithful fuel (512 * s))
        (emmcInit winsock sdDefaultSectorSize (Int32.ofNat s) l).2 reads := by
  obtain ⟨uid, base, slack, uid', base', slack', l', hcall, hst, hready', _, hanswers, hcut⟩ :=
    emmcInit_opens hready hwhole hwords hinit
  rw [hcall] at hheaders ⊢
  have hserves : l'.Serves (512 * s) := by
    refine ⟨?_, ?_, ?_, ?_, ?_, hready'.replies, fun _ => hready'⟩
    · rw [hst]
      exact hwords
    · rw [hcut]
      exact hcuts
    · rw [hanswers]
      exact haccepts
    · rw [hst, ← clusterBytes_exact hs]
      rfl
    · rw [hst, ← clusterBytes_exact hs]
      rfl
  refine ⟨rfl, along_of_inv ?_ ?_ hserves hheaders⟩
  · intro l rd hl hdel
    exact (read_step hsector hcluster l rd hl hdel).2
  · intro l rd hl hdel
    exact (read_step hsector hcluster l rd hl hdel).1

/-- A cluster of the memory card and a sector of the internal eMMC. -/
theorem client_reads_two :
    (emmcInit winsock sdDefaultSectorSize 1 (connect St.boot fun _ => .succeed)).1 = 0 ∧
      Along (readStep 524 512) (ReadFaithful 524 512)
        (emmcInit winsock sdDefaultSectorSize 1 (connect St.boot fun _ => .succeed)).2
        [.cluster .ms 3, .sector .emmc 5] :=
  client_reads_faithful (connect St.boot fun _ => .succeed) 1 524 [.cluster .ms 3, .sector .emmc 5]
    (by decide) (connect_ready _ _) ⟨by decide +kernel, by decide +kernel⟩
    (fun _ => (by decide : (4 : Int) ≤ 2 ^ 31 - 1)) (fun _ => (by decide : (0 : Int) < 2 ^ 31 - 1))
    (fun _ _ => (by decide : (0 : Int) < 2 ^ 31 - 1))
    ⟨by decide +kernel, by decide +kernel, by decide +kernel⟩ (by decide) (by decide)
    ⟨fun _ => ⟨by decide +kernel, by decide +kernel⟩, fun _ => trivial, trivial⟩

end Link

end PsvEmmc
