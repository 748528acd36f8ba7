/-
# `PsvEmmc.Client.Receive` — when a read comes to an end

The receive loops of `client/psvemmc/psvemmc.cpp` stop when the count reaches
its target or `recv` answers `SOCKET_ERROR`.  A `Peer` is what a read meets on
its socket: some receives that deliver, at least one byte each and no more
than they ask for, and then, for ever, an orderly close or a failure.

A receive that delivers brings the loop nearer to its target; a receive on a
closed connection answers 0, which is neither the target nor an error, and
leaves the loop where it was.  So a loop returns exactly when all its bytes
come or the connection fails in the end (`recvLoop_returns_iff`).  A cluster's
header is taken with one receive that nobody counts, and so a read of a
cluster can also return 0 without the end of its response.
-/
import PsvEmmc.Client

namespace PsvEmmc

open Words Memory

/-! ## One round of the loop -/

section round

variable {σ : Type} {w : Winsock σ} {s s' : σ} {fuel need : Nat}

theorem recvLoop_of_none (h : w.recv (need + 1) s = (none, s')) :
    recvLoop w (fuel + 1) (need + 1) s = some (none, w.giveUp s') := by
  rw [recvLoop, h]

theorem recvLoop_of_some {bytes : List UInt8} (h : w.recv (need + 1) s = (some bytes, s')) :
    recvLoop w (fuel + 1) (need + 1) s =
      (recvLoop w fuel (need + 1 - bytes.length) s').map
        fun r => (r.1.map (bytes ++ ·), r.2) := by
  rw [recvLoop, h]
  dsimp only
  cases recvLoop w fuel (need + 1 - bytes.length) s' with
  | none => rfl
  | some r =>
      obtain ⟨data, s''⟩ := r
      cases data <;> rfl

end round

/-! ## The other end of the socket -/

/-- How a connection ends. -/
inductive Ending where
  /-- `recv` returns 0 from then on. -/
  | closes
  /-- `recv` returns `SOCKET_ERROR`. -/
  | fails
  deriving DecidableEq

/-- What one read meets: the result of its `send`, the counts its receives return, cut down to
what they ask for, and the bytes they bring. -/
structure Peer where
  sendResult : Int
  counts : List Nat
  ending : Ending
  stream : Mem
  residue : Mem
  received : Nat

namespace Peer

def receive (len : Nat) (s : Peer) : Option (List UInt8) × Peer :=
  match s.counts with
  | [] =>
      match s.ending with
      | .closes => (some [], s)
      | .fails => (none, s)
  | n :: counts =>
      let count := min (max 1 n) len
      (some (load s.stream s.received count), { s with counts, received := s.received + count })

/-- The calls of a read; what is closed is not received from again. -/
def winsock : Winsock Peer where
  send _ s := (s.sendResult, s)
  recv := receive
  closesocket := id
  wsaCleanup := id
  residue := residue

/-- How many bytes come to a loop that asks for enough. -/
def comes (s : Peer) : Nat := (s.counts.map (max 1)).sum

/-- A receive fails exactly at the end of a connection that fails. -/
theorem receive_cases (len : Nat) (s : Peer) :
    (s.ending = .fails ∧ s.counts = [] ∧ s.receive len = (none, s)) ∨
    ∃ bytes s', s.receive len = (some bytes, s') ∧ s'.ending = s.ending ∧
      s'.residue = s.residue := by
  unfold receive
  cases s.counts with
  | nil =>
      cases hend : s.ending with
      | closes => exact Or.inr ⟨[], s, rfl, hend, rfl⟩
      | fails => exact Or.inl ⟨rfl, rfl, rfl⟩
  | cons n counts => exact Or.inr ⟨_, _, rfl, rfl, rfl⟩

/-- A receive with a count left for it takes that count off what comes, as far as it asks. -/
theorem receive_cons {n : Nat} {counts : List Nat} {s : Peer} (hcounts : s.counts = n :: counts)
    (len : Nat) :
    ∃ bytes s', s.receive len = (some bytes, s') ∧ bytes.length = min (max 1 n) len ∧
      s'.counts = counts ∧ s'.ending = s.ending ∧ s'.received = s.received + bytes.length ∧
      s.comes = max 1 n + s'.comes := by
  refine ⟨load s.stream s.received (min (max 1 n) len),
    { s with counts, received := s.received + min (max 1 n) len }, ?_, length_load _ _ _, rfl,
    rfl, ?_, ?_⟩
  · rw [receive, hcounts]
  · rw [length_load]
  · rw [comes, comes, hcounts, List.map_cons, List.sum_cons]

theorem receive_closed {s : Peer} (hcounts : s.counts = []) (hend : s.ending = .closes)
    (len : Nat) : s.receive len = (some [], s) := by
  simp only [receive, hcounts, hend]

theorem receive_failed {s : Peer} (hcounts : s.counts = []) (hend : s.ending = .fails)
    (len : Nat) : s.receive len = (none, s) := by
  simp only [receive, hcounts, hend]

theorem comes_nil {s : Peer} (hcounts : s.counts = []) : s.comes = 0 := by
  rw [comes, hcounts]
  rfl

/-! ## When a loop returns -/

/-- What a loop has done when it returns: received all it wanted, or all there was before the
connection failed. -/
def LoopDone (need : Nat) (s : Peer) (r : Option (List UInt8) × Peer) : Prop :=
  (need ≤ s.comes ∧ r.1.isSome ∧ r.2.received = s.received + need) ∨
    (s.comes < need ∧ s.ending = .fails ∧ r.1 = none ∧ r.2.received = s.received + s.comes)

/-- A round before the rest of the loop. -/
theorem LoopDone.round {n need : Nat} {bytes : List UInt8} {s s' : Peer}
    {r : Option (List UInt8) × Peer} (hlen : bytes.length = min (max 1 n) need)
    (hend : s'.ending = s.ending) (hrec : s'.received = s.received + bytes.length)
    (hcomes : s.comes = max 1 n + s'.comes) (h : LoopDone (need - bytes.length) s' r) :
    LoopDone need s (r.1.map (bytes ++ ·), r.2) := by
  rcases h with ⟨hle, hsome, hr⟩ | ⟨hlt, hfails, hnone, hr⟩
  · left
    refine ⟨by omega, by simpa using hsome, ?_⟩
    rw [hr]
    omega
  · right
    refine ⟨by omega, hend.symm.trans hfails, by rw [hnone]; rfl, ?_⟩
    rw [hr]
    omega

theorem recvLoop_done {fuel need : Nat} {s : Peer} {r : Option (List UInt8) × Peer}
    (h : recvLoop winsock fuel need s = some r) : LoopDone need s r := by
  induction fuel generalizing need s r with
  | zero =>
      cases need with
      | zero =>
          cases h
          exact Or.inl ⟨Nat.zero_le _, rfl, rfl⟩
      | succ need => cases h
  | succ fuel ih =>
      cases need with
      | zero =>
          cases h
          exact Or.inl ⟨Nat.zero_le _, rfl, rfl⟩
      | succ need =>
          cases hcounts : s.counts with
          | nil =>
              have hcomes : s.comes = 0 := comes_nil hcounts
              cases hend : s.ending with
              | closes =>
                  -- the loop is where it was, so it does not return with less fuel either
                  rw [recvLoop_of_some (receive_closed hcounts hend (need + 1))] at h
                  obtain ⟨r', hr', -⟩ := Option.map_eq_some_iff.mp h
                  rcases ih hr' with ⟨hle, -⟩ | ⟨-, hfails, -⟩
                  · rw [hcomes, List.length_nil] at hle
                    exact absurd hle (Nat.not_succ_le_zero need)
                  · rw [hend] at hfails
                    cases hfails
              | fails =>
                  rw [recvLoop_of_none (receive_failed hcounts hend (need + 1))] at h
                  cases h
                  refine Or.inr ⟨?_, hend, rfl, ?_⟩
                  · rw [hcomes]
                    exact Nat.succ_pos need
                  · rw [hcomes]
                    rfl
          | cons n counts =>
              obtain ⟨bytes, s', hrecv, hlen, -, hend, hrec, hcomes⟩ :=
                receive_cons hcounts (need + 1)
              rw [recvLoop_of_some hrecv] at h
              obtain ⟨r', hr', rfl⟩ := Option.map_eq_some_iff.mp h
              exact (ih hr').round hlen hend hrec hcomes

/-- One receive for each count and one for the failure are enough. -/
theorem exists_recvLoop {need : Nat} {s : Peer} (h : need ≤ s.comes ∨ s.ending = .fails) :
    ∃ r, recvLoop winsock (s.counts.length + 1) need s = some r := by
  induction hcounts : s.counts generalizing need s with
  | nil =>
      cases need with
      | zero => exact ⟨_, rfl⟩
      | succ need =>
          rcases h with hle | hfails
          · rw [comes_nil hcounts] at hle
            exact absurd hle (Nat.not_succ_le_zero need)
          · exact ⟨_, recvLoop_of_none (receive_failed hcounts hfails (need + 1))⟩
  | cons n counts ih =>
      cases need with
      | zero => exact ⟨_, rfl⟩
      | succ need =>
          obtain ⟨bytes, s', hrecv, hlen, hcounts', hend, -, hcomes⟩ :=
            receive_cons hcounts (need + 1)
          have hrest : need + 1 - bytes.length ≤ s'.comes ∨ s'.ending = .fails := by
            rcases h with hle | hfails
            · left
              omega
            · exact Or.inr (hend.trans hfails)
          obtain ⟨r, hr⟩ := ih hrest hcounts'
          refine ⟨(r.1.map (bytes ++ ·), r.2), ?_⟩
          rw [List.length_cons, recvLoop_of_some (w := winsock) hrecv, hr]
          rfl

theorem recvLoop_returns_iff {need : Nat} {s : Peer} :
    (∃ fuel r, recvLoop winsock fuel need s = some r) ↔ need ≤ s.comes ∨ s.ending = .fails := by
  constructor
  · rintro ⟨fuel, r, hr⟩
    rcases recvLoop_done hr with ⟨hle, -⟩ | ⟨-, hfails, -⟩
    · exact Or.inl hle
    · exact Or.inr hfails
  · intro h
    exact ⟨_, exists_recvLoop h⟩

/-! ## When a read returns -/

/-- The read returns after finitely many receives, and with -1 when it has not received all
`total` bytes of the response. -/
def Ends (read : Nat → Peer → Option (Int × List UInt8 × Peer)) (total : Nat) (s : Peer) : Prop :=
  ∃ fuel ret data s', read fuel s = some (ret, data, s') ∧
    (s'.received < s.received + total → ret = -1)

theorem send_eq (request : List UInt8) (s : Peer) :
    winsock.send request s = (s.sendResult, s) := rfl

theorem recv_eq (len : Nat) (s : Peer) : winsock.recv len s = s.receive len := rfl

theorem residue_eq (s : Peer) : winsock.residue s = s.residue := rfl

theorem giveUp_eq (s : Peer) : winsock.giveUp s = s := rfl

/-- A read of a sector comes to its end when the request is not sent, when the whole response
comes, or when the connection fails in the end. -/
def SectorEnds (s : Peer) : Prop :=
  s.sendResult = socketError ∨ 12 + 0x200 ≤ s.comes ∨ s.ending = .fails

section sector

variable (dev : Device) (sector : Int32) {fuel : Nat} {s : Peer}

theorem sector_not_sent (hsend : s.sendResult = socketError) :
    emmcReadSectorOn dev winsock fuel sector s = some (-1, [], s) := by
  simp only [emmcReadSectorOn, send_eq, hsend, if_true, giveUp_eq]

theorem sector_loops (hsend : ¬ s.sendResult = socketError)
    (hloop : recvLoop winsock fuel (12 + 0x200) s = none) :
    emmcReadSectorOn dev winsock fuel sector s = none := by
  simp only [emmcReadSectorOn, send_eq, if_neg hsend, hloop]

theorem sector_returns (hsend : ¬ s.sendResult = socketError)
    {r : Option (List UInt8) × Peer} (hloop : recvLoop winsock fuel (12 + 0x200) s = some r) :
    ∃ ret data, emmcReadSectorOn dev winsock fuel sector s = some (ret, data, r.2) ∧
      (r.1 = none → ret = -1) := by
  obtain ⟨resp4, s'⟩ := r
  simp only [emmcReadSectorOn, send_eq, if_neg hsend, hloop, giveUp_eq]
  cases resp4 with
  | none => exact ⟨-1, [], rfl, fun _ => rfl⟩
  | some resp4 =>
      dsimp only
      split
      · exact ⟨-1, [], rfl, fun _ => rfl⟩
      · exact ⟨0, resp4.drop 12, rfl, fun h => by cases h⟩

theorem sector_ends_iff (s : Peer) :
    Ends (fun fuel => emmcReadSectorOn dev winsock fuel sector) (12 + 0x200) s ↔
      s.SectorEnds := by
  by_cases hsend : s.sendResult = socketError
  · refine ⟨fun _ => Or.inl hsend, fun _ => ?_⟩
    exact ⟨0, -1, [], s, sector_not_sent dev sector hsend, fun _ => rfl⟩
  · constructor
    · rintro ⟨fuel, ret, data, s', h, -⟩
      right
      refine recvLoop_returns_iff.mp ⟨fuel, ?_⟩
      cases hloop : recvLoop winsock fuel (12 + 0x200) s with
      | none => cases h.symm.trans (sector_loops dev sector hsend hloop)
      | some r => exact ⟨r, rfl⟩
    · intro h
      have hends : 12 + 0x200 ≤ s.comes ∨ s.ending = .fails := h.resolve_left hsend
      obtain ⟨fuel, r, hr⟩ := recvLoop_returns_iff.mpr hends
      obtain ⟨ret, data, hread, hret⟩ := sector_returns dev sector hsend hr
      refine ⟨fuel, ret, data, r.2, hread, fun hlt => ?_⟩
      rcases recvLoop_done hr with ⟨-, -, hall⟩ | ⟨-, -, hnone, -⟩
      · exact absurd hlt (Nat.not_lt.mpr hall.ge)
      · exact hret hnone

end sector

/-- After the receive of a cluster's header. -/
def afterHeader (s : Peer) : Peer := (s.receive 12).2

/-- The header as that receive leaves it on the stack. -/
def header (s : Peer) : CommandResponseBase :=
  .decode (overlay (load s.residue 0 12) ((s.receive 12).1.getD []))

/-- A read of a cluster comes to its end when the request is not sent, when the connection fails
before the header or with bytes of the data missing, or when all of the data comes and the
header came whole before it or is rejected as it is. -/
def ClusterEnds (dev : Device) (expectedSize : Nat) (s : Peer) : Prop :=
  s.sendResult = socketError ∨
    (s.ending = .fails ∧ (s.counts = [] ∨ s.afterHeader.comes < expectedSize)) ∨
    (expectedSize ≤ s.afterHeader.comes ∧
      (s.received + 12 ≤ s.afterHeader.received ∨ s.header.rejectsRead (.readCluster dev) = true))

section cluster

variable (dev : Device) (cluster : Int32) (expectedSize : Nat) {fuel : Nat} {s : Peer}

/-- Without a header: the request is not sent, or the connection fails at once. -/
theorem cluster_no_header
    (h : s.sendResult = socketError ∨ (s.ending = .fails ∧ s.counts = [])) :
    emmcReadClusterOn dev winsock fuel cluster expectedSize s = some (-1, [], s) := by
  by_cases hsend : s.sendResult = socketError
  · simp only [emmcReadClusterOn, exchange, send_eq, hsend, if_true, giveUp_eq]
  · obtain ⟨hend, hcounts⟩ := h.resolve_left hsend
    simp only [emmcReadClusterOn, exchange, send_eq, if_neg hsend, recv_eq,
      receive_failed hcounts hend, giveUp_eq]

/-- With a header, or what a closed connection leaves of one. -/
theorem cluster_with_header
    (h : ¬ (s.sendResult = socketError ∨ (s.ending = .fails ∧ s.counts = []))) :
    s.afterHeader.ending = s.ending ∧
      exchange winsock (.readCluster dev cluster) 12 s =
        (some (overlay (load s.residue 0 12) ((s.receive 12).1.getD [])), s.afterHeader) := by
  obtain ⟨hsend, hfirst⟩ := not_or.mp h
  rcases receive_cases 12 s with ⟨hend, hcounts, -⟩ | ⟨bytes, s', hrecv, hend, hres⟩
  · exact absurd ⟨hend, hcounts⟩ hfirst
  · have hafter : s.afterHeader = s' := congrArg Prod.snd hrecv
    refine ⟨by rw [hafter, hend], ?_⟩
    simp only [exchange, send_eq, if_neg hsend, recv_eq, hrecv, residue_eq, hres, hafter,
      Option.getD_some]

theorem cluster_loops
    (h : ¬ (s.sendResult = socketError ∨ (s.ending = .fails ∧ s.counts = [])))
    (hloop : recvLoop winsock fuel expectedSize s.afterHeader = none) :
    emmcReadClusterOn dev winsock fuel cluster expectedSize s = none := by
  rw [emmcReadClusterOn, (cluster_with_header dev cluster h).2]
  dsimp only
  rw [hloop]

theorem cluster_returns
    (h : ¬ (s.sendResult = socketError ∨ (s.ending = .fails ∧ s.counts = [])))
    {r : Option (List UInt8) × Peer}
    (hloop : recvLoop winsock fuel expectedSize s.afterHeader = some r) :
    ∃ ret data, emmcReadClusterOn dev winsock fuel cluster expectedSize s =
        some (ret, data, r.2) ∧
      (ret = -1 ↔ r.1 = none ∨ s.header.rejectsRead (.readCluster dev) = true) := by
  obtain ⟨data, s'⟩ := r
  rw [emmcReadClusterOn, (cluster_with_header dev cluster h).2]
  dsimp only
  rw [hloop]
  cases data with
  | none => exact ⟨-1, [], rfl, fun _ => Or.inl rfl, fun _ => rfl⟩
  | some data =>
      by_cases hrej : s.header.rejectsRead (.readCluster dev) = true
      · exact ⟨-1, data, if_pos hrej, fun _ => Or.inr hrej, fun _ => rfl⟩
      · refine ⟨0, data, if_neg hrej, fun h => absurd h (by decide), ?_⟩
        rintro (h | h)
        · cases h
        · exact absurd h hrej

theorem cluster_ends_iff (s : Peer) :
    Ends (fun fuel => emmcReadClusterOn dev winsock fuel cluster expectedSize)
        (12 + expectedSize) s ↔ s.ClusterEnds dev expectedSize := by
  by_cases hfirst : s.sendResult = socketError ∨ (s.ending = .fails ∧ s.counts = [])
  · constructor
    · intro _
      rcases hfirst with hsend | ⟨hend, hcounts⟩
      · exact Or.inl hsend
      · exact Or.inr (Or.inl ⟨hend, Or.inl hcounts⟩)
    · intro _
      exact ⟨0, -1, [], s, cluster_no_header dev cluster expectedSize hfirst, fun _ => rfl⟩
  · have hend : s.afterHeader.ending = s.ending := (cluster_with_header dev cluster hfirst).1
    constructor
    · rintro ⟨fuel, ret, data, s', h, hret⟩
      cases hloop : recvLoop winsock fuel expectedSize s.afterHeader with
      | none => cases h.symm.trans (cluster_loops dev cluster expectedSize hfirst hloop)
      | some r =>
          obtain ⟨ret', data', hread, hminus⟩ :=
            cluster_returns dev cluster expectedSize hfirst hloop
          cases h.symm.trans hread
          rcases recvLoop_done hloop with ⟨hle, hsome, hall⟩ | ⟨hlt, hfails, -, -⟩
          · refine Or.inr (Or.inr ⟨hle, ?_⟩)
            by_cases hheader : s.received + 12 ≤ s.afterHeader.received
            · exact Or.inl hheader
            · have hshort : r.2.received < s.received + (12 + expectedSize) := by omega
              rcases hminus.mp (hret hshort) with hnone | hrej
              · rw [hnone] at hsome
                cases hsome
              · exact Or.inr hrej
          · exact Or.inr (Or.inl ⟨hend.symm.trans hfails, Or.inr hlt⟩)
    · intro h
      obtain ⟨hsend, hcut⟩ := not_or.mp hfirst
      have hloops : expectedSize ≤ s.afterHeader.comes ∨ s.afterHeader.ending = .fails := by
        rcases h.resolve_left hsend with ⟨hfails, -⟩ | ⟨hle, -⟩
        · exact Or.inr (hend.trans hfails)
        · exact Or.inl hle
      obtain ⟨fuel, r, hr⟩ := recvLoop_returns_iff.mpr hloops
      obtain ⟨ret, data, hread, hminus⟩ := cluster_returns dev cluster expectedSize hfirst hr
      refine ⟨fuel, ret, data, r.2, hread, fun hshort => hminus.mpr ?_⟩
      rcases recvLoop_done hr with ⟨hle, -, hall⟩ | ⟨-, -, hnone, -⟩
      · rcases h.resolve_left hsend with ⟨hfails, hcounts | hlt⟩ | ⟨-, hheader | hrej⟩
        · exact absurd ⟨hfails, hcounts⟩ hcut
        · exact absurd hlt (Nat.not_lt.mpr hle)
        · omega
        · exact Or.inr hrej
      · exact Or.inl hnone

end cluster

/-- Each of the six reads comes to its end exactly when what it meets lets it. -/
theorem reads_end_iff (dev : Device) (s : Peer) :
    (∀ sector, Ends (fun fuel => emmcReadSectorOn dev winsock fuel sector) (12 + 0x200) s ↔
      s.SectorEnds) ∧
    (∀ cluster expectedSize, Ends
      (fun fuel => emmcReadClusterOn dev winsock fuel cluster expectedSize) (12 + expectedSize) s ↔
        s.ClusterEnds dev expectedSize) :=
  ⟨fun sector => sector_ends_iff dev sector s,
    fun cluster expectedSize => cluster_ends_iff dev cluster expectedSize s⟩

/-- The request is accepted and the peer closes the connection without a response. -/
def hungUp : Peer := ⟨8, [], .closes, fun _ => 0, fun _ => 0, 0⟩

/-- The first receive brings the command word only, the loop takes the next four bytes for the
data, and the connection fails. -/
def brokenHeader : Peer :=
  ⟨8, [4, 4], .fails, fun i => if i = 0 then 5 else 0, fun _ => 0, 0⟩

/-- A read of a sector never returns after an orderly close; a read of a cluster returns 0
with eight bytes of the response missing. -/
theorem close_not_noticed :
    (¬ ∃ fuel r, emmcReadSector winsock fuel 0 hungUp = some r) ∧
      ∃ s', emmcReadCluster winsock 1 0 4 brokenHeader = some (0, [0, 0, 0, 0], s') ∧
        s'.received = 8 := by
  constructor
  · rintro ⟨fuel, r, hr⟩
    cases hloop : recvLoop winsock fuel (12 + 0x200) hungUp with
    | none => cases hr.symm.trans (sector_loops .emmc 0 (by decide) hloop)
    | some r' =>
        rcases recvLoop_returns_iff.mp ⟨fuel, r', hloop⟩ with hle | hfails
        · exact absurd hle (by decide)
        · cases hfails
  · exact ⟨_, rfl, rfl⟩

end Peer

end PsvEmmc
