/-
# `PsvEmmc.Server.Dispatch` — does the loop find the requests in the stream?

Requests sent back to back are one stream of bytes, and a receive may return
any part of what it asks for.  The command word and the short fixed fields
are taken with one receive each; the fields and data of a sector write and
the payload of a cluster write are taken in a loop.  So the loop dispatches
the requests that were sent exactly when no word and no block of fixed fields
is divided (`dispatches_exactly_iff`), however the rest is cut.

The induction is over the list of requests.  Each turn takes one request off
the front of the stream (`receive_whole`) or stops for good
(`nextCommand_divided`, `receive_divided`).
-/
import PsvEmmc.Server.Requests

namespace PsvEmmc

open Words Memory Stream

/-! ## The command word -/

/-- A word that comes whole announces the command of its request. -/
theorem nextCommand_whole {conn : Inbound} {r : Request} {rest : List UInt8}
    (hpend : conn.pending = r.encode ++ rest) (hcut : 4 ≤ conn.cut conn.received) :
    nextCommand conn = some r.command ∧ (conn.recv 4).rest = conn.advance 4 := by
  have htake : conn.pending.take 4 = leInt r.command.code := by
    rw [hpend, Request.encode, List.append_assoc]
    exact List.take_left' (length_leInt _)
  have hlen : 4 ≤ conn.pending.length := by
    rw [hpend, Request.encode, List.length_append, List.length_append, length_leInt]
    omega
  have hrecv := Inbound.recv_whole (by decide) hcut hlen
  constructor
  · rw [nextCommand, hrecv, htake]
    dsimp only
    rw [if_neg (by decide), overlay_of_length_eq (by rw [length_leInt, length_leInt]),
      ofLeInt_leInt, Command.ofCode_code]
  · rw [hrecv]

/-- A word that comes short announces nothing. -/
theorem nextCommand_divided {conn : Inbound} (hcut : conn.cut conn.received < 4) :
    nextCommand conn = none := by
  by_cases hpos : (conn.recv 4).count ≤ 0
  · exact if_pos hpos
  · rcases Inbound.recv_cases 4 conn with ⟨hle, _, _⟩ | ⟨hcutpos, n, _, _, hn, hrecv⟩
    · exact absurd hle hpos
    · rw [nextCommand, if_neg hpos]
      apply Command.ofCode_neg
      apply ofLeInt_overlay_neg
      have hbytes : (conn.recv 4).bytes =
          conn.pending.take (min (conn.cut conn.received).toNat 4) := by
        simp [Inbound.recv, Int.not_le.mpr hcutpos]
      rw [hbytes, List.length_take]
      omega

/-- At the end of the stream there is no command. -/
theorem nextCommand_nil {conn : Inbound} (hpend : conn.pending = []) : nextCommand conn = none := by
  rcases Inbound.recv_cases 4 conn with ⟨hle, _, _⟩ | ⟨_, n, hpos, _, hn, _⟩
  · exact if_pos hle
  · rw [hpend] at hn
    exact absurd hn (Nat.not_le.mpr hpos)

/-! ## The rest of the request -/

/-- The server takes the request as it is: the flag is right for INIT and DEINIT, and a
cluster write has the size of the server's cluster. -/
def Request.Fits (server : Pool) : Request → Prop
  | .init _ _ => server.gClusterPoolInitialized = false
  | .deinit => server.gClusterPoolInitialized = true
  | .writeCluster _ _ data => data.length = server.clusterBytes
  | _ => True

instance (server : Pool) : (r : Request) → Decidable (r.Fits server)
  | .init _ _ => inferInstanceAs (Decidable (server.gClusterPoolInitialized = false))
  | .deinit => inferInstanceAs (Decidable (server.gClusterPoolInitialized = true))
  | .writeCluster _ _ data => inferInstanceAs (Decidable (data.length = server.clusterBytes))
  | .ping => isTrue trivial
  | .term => isTrue trivial
  | .readSector _ _ => isTrue trivial
  | .readCluster _ _ => isTrue trivial
  | .writeSector _ _ _ => isTrue trivial

/-- One receive of a block of fields that comes whole. -/
theorem recv_fields {conn : Inbound} {fields rest : List UInt8} {n : Nat} (hn : 0 < n)
    (hlen : fields.length = n) (hpend : conn.pending = fields ++ rest)
    (hcut : n ≤ conn.cut conn.received) :
    conn.recv n = ⟨n, fields, conn.advance n⟩ := by
  subst hlen
  rw [Inbound.recv_whole hn hcut (by rw [hpend, List.length_append]; exact Nat.le_add_right _ _),
    hpend, List.take_left]

/-- One receive of a block of fields that is divided. -/
theorem recv_fields_divided {conn : Inbound} {n : Nat} (hn : 0 < n)
    (hcut : conn.cut conn.received < n) : (conn.recv n).count ≠ n := by
  intro hcount
  exact absurd (Inbound.recv_eq_of_count hn hcount).1 (Int.not_le.mpr hcut)

/-- A loop takes its block however it is cut. -/
theorem recvAll_block {conn : Inbound} {block rest : List UInt8} {n : Nat}
    (hlen : block.length = n) (hpend : conn.pending = block ++ rest) (hcut : ∀ p, 0 < conn.cut p) :
    conn.recvAll n = (true, block, conn.advance n) := by
  subst hlen
  rw [Inbound.recvAll_ok (fun p _ _ => hcut p)
    (by rw [hpend, List.length_append]; exact Nat.le_add_right _ _), hpend, List.take_left]

/-- Undivided fields: the handler takes exactly its request. -/
theorem receive_whole {st : St} {r : Request} {rest : List UInt8} (hfits : r.Fits st.server)
    (hpend : st.conn.pending = r.fields ++ r.payload ++ rest) (hpos : ∀ p, 0 < st.conn.cut p)
    (hcut : r.fields.length ≤ st.conn.cut st.conn.received) :
    receive st r.command = some (r, st.conn.advance (r.fields.length + r.payload.length)) := by
  cases r with
  | ping => rfl
  | term => rfl
  | init bps spc =>
      have hfields : st.conn.pending = (leInt bps ++ leInt spc) ++ rest := hpend
      have hrecv : st.conn.recv 8 = ⟨8, leInt bps ++ leInt spc, st.conn.advance 8⟩ :=
        recv_fields (by decide) rfl hfields hcut
      simp only [Request.command, receive, ne_true_of_eq_false hfits, hrecv, if_true,
        ofLeInt_leInt_append, drop_four_leInt_append, ofLeInt_leInt]
      rfl
  | deinit =>
      simp only [Request.command, receive, show st.server.gClusterPoolInitialized = true from hfits,
        if_true]
      rfl
  | readSector dev sector =>
      have hfields : st.conn.pending = leInt sector ++ rest := hpend
      have hrecv := recv_fields (by decide) (length_leInt sector) hfields hcut
      simp only [Request.command, receive, hrecv, ofLeInt_leInt]
      rfl
  | readCluster dev cluster =>
      have hfields : st.conn.pending = leInt cluster ++ rest := hpend
      have hrecv := recv_fields (by decide) (length_leInt cluster) hfields hcut
      simp only [Request.command, receive, hrecv, ofLeInt_leInt]
      rfl
  | writeSector dev sector data =>
      have hlen : (leInt sector ++ data.toList).length = 4 + 0x200 := by
        rw [List.length_append, length_leInt, Sector.length_toList]
      have hblock : st.conn.pending = (leInt sector ++ data.toList) ++ rest := hpend
      have hrecv := recvAll_block hlen hblock hpos
      simp only [Request.command, receive, hrecv, if_true, ofLeInt_leInt_append,
        drop_four_leInt_append, Sector.ofList_toList]
      rw [show (Request.writeSector dev sector data).payload.length = 4 + 0x200 from hlen]
      rfl
  | writeCluster dev cluster data =>
      have hfields : st.conn.pending = leInt cluster ++ (data ++ rest) := hpend
      have hrecv := recv_fields (by decide) (length_leInt cluster) hfields hcut
      have hblock : (st.conn.advance 4).pending = data ++ rest := by
        rw [Inbound.pending_advance, hfields]
        exact List.drop_left' (length_leInt cluster)
      have hpay := recvAll_block hfits hblock hpos
      simp only [Request.command, receive, hrecv, hpay, ofLeInt_leInt, Inbound.advance_advance]
      rw [← show data.length = st.server.clusterBytes from hfits]
      rfl

/-- Divided fields: the handler refuses. -/
theorem receive_divided {st : St} {r : Request} (hpos : ∀ p, 0 < st.conn.cut p)
    (hcut : st.conn.cut st.conn.received < r.fields.length) : receive st r.command = none := by
  have hnil : ¬ r.fields = [] := by
    intro h
    rw [h] at hcut
    exact absurd (hpos st.conn.received) (Int.not_lt.mpr (Int.le_of_lt hcut))
  cases r with
  | ping => exact absurd rfl hnil
  | term => exact absurd rfl hnil
  | deinit => exact absurd rfl hnil
  | writeSector dev sector data => exact absurd rfl hnil
  | init bps spc =>
      have hcount : (st.conn.recv 8).count ≠ 8 := recv_fields_divided (by decide) hcut
      simp only [Request.command, receive, if_neg hcount, ite_self]
  | readSector dev sector | readCluster dev cluster | writeCluster dev cluster data =>
      have hcount : (st.conn.recv 4).count ≠ 4 := recv_fields_divided (by decide) hcut
      exact if_neg hcount

/-! ## What an action leaves alone -/

theorem execute_conn (r : Request) (k : Answers) (st : St) :
    (r.execute k st).st.conn = st.conn := by
  cases r with
  | init bps spc =>
      rw [show (Request.init bps spc).execute k st = executeInit bps spc k st from rfl,
        executeInit_eq]
      rfl
  | _ => rfl

/-- The request recorded is the request, payload included. -/
theorem execute_executed {r : Request} {st : St} (hfits : r.Fits st.server) (k : Answers) :
    (r.execute k st).executed = some r := by
  cases r with
  | init bps spc =>
      rw [show (Request.init bps spc).execute k st = executeInit bps spc k st from rfl,
        executeInit_eq]
  | writeCluster dev cluster data =>
      have hload : load (st.withPayload data).server.mem
          (st.withPayload data).server.gClusterPoolPtr
          (st.withPayload data).server.clusterBytes = data :=
        load_store_of_length hfits
      show some (Request.writeCluster dev cluster _) = _
      rw [hload]
  | _ => rfl

/-! ## The stream of requests -/

/-- No command word and no block of fixed fields is divided; `p` is where the first request
begins. -/
def Undivided (cut : Nat → Int) : Nat → List Request → Prop
  | _, [] => True
  | p, r :: rs =>
      4 ≤ cut p ∧ (r.fields.length : Int) ≤ cut (p + 4) ∧ Undivided cut (p + r.encode.length) rs

/-- The state once the request at the front of the stream has been received. -/
def St.past (st : St) (r : Request) : St := { st with conn := st.conn.advance r.encode.length }

/-- Each request fits the server's state at its turn, and its action keeps the connection. -/
def Unhindered (ks : Nat → Answers) : Nat → St → List Request → Prop
  | _, _, [] => True
  | i, st, r :: rs =>
      r.Fits st.server ∧ 0 ≤ (r.execute (ks i) (st.past r)).ret ∧
        Unhindered ks (i + 1) (r.execute (ks i) (st.past r)).st rs

theorem length_encode (r : Request) :
    r.encode.length = 4 + (r.fields.length + r.payload.length) := by
  rw [Request.encode, List.length_append, List.length_append, length_leInt]

/-- A round that finds no command ends the loop. -/
theorem receiveLoop_of_none {ks : Nat → Answers} {fuel i : Nat} {st : St}
    (h : nextCommand st.conn = none) : (receiveLoop ks fuel i st).1 = [] := by
  cases fuel with
  | zero => rfl
  | succ fuel => simp only [receiveLoop, poll, h]

/-- One turn of the loop, however the request is cut. -/
theorem receiveLoop_cons {ks : Nat → Answers} {fuel i : Nat} {st : St} {r : Request}
    {rest : List UInt8} (hpend : st.conn.pending = r.encode ++ rest)
    (hpos : ∀ p, 0 < st.conn.cut p) (hfits : r.Fits st.server)
    (hret : 0 ≤ (r.execute (ks i) (st.past r)).ret) :
    ((4 ≤ st.conn.cut st.conn.received ∧
        (r.fields.length : Int) ≤ st.conn.cut (st.conn.received + 4)) ∧
      (receiveLoop ks (fuel + 1) i st).1 =
        r :: (receiveLoop ks fuel (i + 1) (r.execute (ks i) (st.past r)).st).1) ∨
    (¬ (4 ≤ st.conn.cut st.conn.received ∧
        (r.fields.length : Int) ≤ st.conn.cut (st.conn.received + 4)) ∧
      (receiveLoop ks (fuel + 1) i st).1 = []) := by
  rcases Int.lt_or_le (st.conn.cut st.conn.received) 4 with hshort | hword
  · right
    exact ⟨fun h => absurd h.1 (Int.not_le.mpr hshort),
      receiveLoop_of_none (nextCommand_divided hshort)⟩
  · obtain ⟨hnext, hrest⟩ := nextCommand_whole hpend hword
    have hafter : st.afterWord = { st with conn := st.conn.advance 4 } := by
      rw [St.afterWord, hrest]
    have hpoll : poll (ks i) st = some (handle r.command (ks i) st.afterWord) := by
      simp only [poll, hnext]
    rcases Int.lt_or_le (st.conn.cut (st.conn.received + 4)) r.fields.length with hshort | hfields
    · right
      refine ⟨fun h => absurd h.2 (Int.not_le.mpr hshort), ?_⟩
      have hnone : receive st.afterWord r.command = none := by
        rw [hafter]
        exact receive_divided hpos hshort
      obtain ⟨hneg, hexec⟩ := handle_of_receive_none hnone (ks i)
      simp only [receiveLoop, hpoll, if_pos hneg, hexec, Option.toList_none]
    · left
      refine ⟨⟨hword, hfields⟩, ?_⟩
      have hbody : (st.conn.advance 4).pending = r.fields ++ r.payload ++ rest := by
        rw [Inbound.pending_advance, hpend, Request.encode, List.append_assoc]
        exact List.drop_left' (length_leInt _)
      have hsome : receive st.afterWord r.command =
          some (r, (st.conn.advance 4).advance (r.fields.length + r.payload.length)) := by
        rw [hafter]
        exact receive_whole hfits hbody hpos hfields
      have hpast : { st.afterWord with
          conn := (st.conn.advance 4).advance (r.fields.length + r.payload.length) } =
            st.past r := by
        rw [Inbound.advance_advance, ← length_encode]
        rfl
      have hhandle := handle_of_receive hsome (ks i)
      rw [hpast] at hhandle
      simp only [receiveLoop, hpoll, hhandle, if_neg (Int.not_lt.mpr hret),
        execute_executed (show r.Fits (st.past r).server from hfits) (ks i), Option.toList_some,
        List.singleton_append]

theorem receiveLoop_eq_iff (ks : Nat → Answers) (rs : List Request) :
    ∀ (fuel i : Nat) (st : St), rs.length < fuel →
      st.conn.pending = rs.flatMap Request.encode → (∀ p, 0 < st.conn.cut p) →
      Unhindered ks i st rs →
      ((receiveLoop ks fuel i st).1 = rs ↔ Undivided st.conn.cut st.conn.received rs) := by
  induction rs with
  | nil =>
      intro fuel i st _ hpend _ _
      exact ⟨fun _ => trivial, fun _ => receiveLoop_of_none (nextCommand_nil hpend)⟩
  | cons r rs ih =>
      intro fuel i st hfuel hpend hpos hun
      obtain ⟨hfits, hret, hun⟩ := hun
      cases fuel with
      | zero => exact absurd hfuel (Nat.not_lt_zero _)
      | succ fuel =>
          rw [List.flatMap_cons] at hpend
          have hconn := execute_conn r (ks i) (st.past r)
          have hih := ih fuel (i + 1) (r.execute (ks i) (st.past r)).st
            (Nat.lt_of_succ_lt_succ hfuel) (by
              rw [hconn]
              show st.conn.pending.drop r.encode.length = _
              rw [hpend, List.drop_left])
            (by rw [hconn]; exact hpos) hun
          rw [hconn] at hih
          rcases receiveLoop_cons hpend hpos hfits hret with ⟨hwhole, h⟩ | ⟨hdivided, h⟩
          · rw [h, List.cons.injEq, hih]
            constructor
            · rintro ⟨_, hrest⟩
              exact ⟨hwhole.1, hwhole.2, hrest⟩
            · rintro ⟨_, _, hrest⟩
              exact ⟨rfl, hrest⟩
          · rw [h]
            constructor
            · intro hnil
              exact absurd hnil (by simp)
            · rintro ⟨h₁, h₂, _⟩
              exact absurd ⟨h₁, h₂⟩ hdivided

theorem length_le_length_flatMap_encode (rs : List Request) :
    rs.length ≤ (rs.flatMap Request.encode).length := by
  induction rs with
  | nil => exact Nat.le_refl 0
  | cons r rs ih =>
      rw [List.flatMap_cons, List.length_append, List.length_cons, length_encode]
      omega

/-! ## The result -/

/-- **When the loop dispatches the requests that were sent.**  For every list of requests that
fit and whose actions keep the connection, and for every way to cut their stream: exactly
when no command word and no block of fixed fields is divided. -/
theorem dispatches_exactly_iff (ks : Nat → Answers) (st : St) (rs : List Request)
    (hpend : st.conn.pending = rs.flatMap Request.encode) (hcut : ∀ p, 0 < st.conn.cut p)
    (hun : Unhindered ks 0 st rs) :
    (receiveCommands ks st).1 = rs ↔ Undivided st.conn.cut st.conn.received rs := by
  refine receiveLoop_eq_iff ks rs (st.conn.pending.length + 1) 0 st ?_ hpend hcut hun
  rw [hpend]
  exact Nat.lt_succ_of_le (length_le_length_flatMap_encode rs)

/-- A session whose sector data comes three bytes at a time and whose words come whole. -/
def threeAtATime : Inbound where
  pending := [Request.init 512 1, .writeSector .emmc 7 (Vector.replicate 0x200 1), .deinit].flatMap
    Request.encode
  received := 0
  cut := fun p => if 16 ≤ p ∧ p < 532 then 3 else 8

theorem dispatches_three_at_a_time :
    (receiveCommands (fun _ => .succeed) { St.boot with conn := threeAtATime }).1 =
        [.init 512 1, .writeSector .emmc 7 (Vector.replicate 0x200 1), .deinit] ↔
      Undivided threeAtATime.cut 0
        [.init 512 1, .writeSector .emmc 7 (Vector.replicate 0x200 1), .deinit] :=
  dispatches_exactly_iff (fun _ => .succeed) { St.boot with conn := threeAtATime }
    [.init 512 1, .writeSector .emmc 7 (Vector.replicate 0x200 1), .deinit] rfl
    (by
      intro p
      show 0 < (if 16 ≤ p ∧ p < 532 then (3 : Int) else 8)
      split <;> decide)
    ⟨rfl, by decide +kernel, trivial, by decide +kernel, by decide +kernel, by decide +kernel,
      trivial⟩

/-- A ping whose command word comes in two halves is an unknown command. -/
theorem divided_word_not_dispatched :
    ¬ ∀ (ks : Nat → Answers) (st : St) (rs : List Request),
      st.conn.pending = rs.flatMap Request.encode → (∀ p, 0 < st.conn.cut p) →
      Unhindered ks 0 st rs → (receiveCommands ks st).1 = rs := by
  intro h
  have hrun := h (fun _ => .succeed)
    { St.boot with conn := ⟨Request.ping.encode, 0, fun _ => 2⟩ } [.ping] (by decide +kernel)
    (fun _ => (by decide : (0 : Int) < 2)) ⟨trivial, by decide +kernel, trivial⟩
  exact absurd (congrArg List.length hrun) (by decide +kernel)

end PsvEmmc
