/-
# `PsvEmmc.Server.Requests` — a handler is a parser followed by an action

Every handler first takes the rest of its request from the stream and then
acts on it.  `receive` is the first half of all sixteen: the request, with the
stream after it, or `none` where the handler refuses.  `Request.execute` is
the second half.  `handle_of_receive` and `handle_of_receive_none` put the
two together, so that what holds of a handler is proved for parsing and
acting apart.
-/
import PsvEmmc.Server.Pools

namespace PsvEmmc

open Words Memory Stream

/-! ## The two halves -/

/-- What the handler of a command takes from the stream: the request, and the stream after it. -/
def receive (st : St) : Command → Option (Request × Inbound)
  | .ping => some (.ping, st.conn)
  | .term => some (.term, st.conn)
  | .init =>
      if st.server.gClusterPoolInitialized then none
      else
        let r := st.conn.recv 8
        if r.count = 8 then
          some (.init (ofLeInt r.bytes) (ofLeInt (r.bytes.drop 4)), r.rest)
        else none
  | .deinit => if st.server.gClusterPoolInitialized then some (.deinit, st.conn) else none
  | .readSector dev =>
      let r := st.conn.recv 4
      if r.count = 4 then some (.readSector dev (ofLeInt r.bytes), r.rest) else none
  | .readCluster dev =>
      let r := st.conn.recv 4
      if r.count = 4 then some (.readCluster dev (ofLeInt r.bytes), r.rest) else none
  | .writeSector dev =>
      let (ok, bytes, conn) := st.conn.recvAll (4 + 0x200)
      if ok then some (.writeSector dev (ofLeInt bytes) (Sector.ofList (bytes.drop 4)), conn)
      else none
  | .writeCluster dev =>
      let r := st.conn.recv 4
      if r.count = 4 then
        let (ok, bytes, conn) := r.rest.recvAll st.server.clusterBytes
        if ok then some (.writeCluster dev (ofLeInt r.bytes) bytes, conn) else none
      else none

/-- The state with the payload of a cluster write in the pool. -/
def St.withPayload (st : St) (data : List UInt8) : St :=
  { st with server :=
    { st.server with mem := store st.server.mem st.server.gClusterPoolPtr data } }

/-- What the handler does once the request is there. -/
def Request.execute : Request → Answers → St → Handled
  | .ping => handleCommand0
  | .term => handleCommand1
  | .init bps spc => executeInit bps spc
  | .deinit => executeDeinit
  | .readSector dev sector => executeReadSector dev sector
  | .readCluster dev cluster => executeReadCluster dev cluster
  | .writeSector dev sector data => executeWriteSector dev sector data
  | .writeCluster dev cluster data => fun k st =>
      executeWriteCluster dev cluster k (st.withPayload data)

/-! ## Together -/

theorem receive_command {c : Command} {st : St} {r : Request} {conn : Inbound}
    (h : receive st c = some (r, conn)) : r.command = c := by
  cases c with
  | ping | term =>
      obtain ⟨rfl, rfl⟩ := Prod.mk.inj (Option.some.inj h)
      rfl
  | init | deinit | readSector dev | readCluster dev | writeSector dev | writeCluster dev =>
      simp only [receive] at h
      repeat' split at h
      all_goals first
        | obtain ⟨rfl, rfl⟩ := Prod.mk.inj (Option.some.inj h)
          rfl
        | exact absurd h (by simp)

/-- A handler receives its request and acts on it, or receives none, ends the connection and
acts on nothing. -/
theorem handle_of_receive_or (c : Command) (k : Answers) (st : St) :
    (∃ r conn, receive st c = some (r, conn) ∧
      handle c k st = r.execute k { st with conn := conn }) ∨
    (receive st c = none ∧ (handle c k st).ret < 0 ∧ (handle c k st).executed = none) := by
  have hrefused : (-1 : Int) < 0 := by decide
  cases c with
  | ping => exact Or.inl ⟨_, _, rfl, rfl⟩
  | term => exact Or.inl ⟨_, _, rfl, rfl⟩
  | init =>
      rw [show handle .init k st = handleCommand2 k st from rfl]
      by_cases hflag : st.server.gClusterPoolInitialized = true
      · right
        rw [show handleCommand2 k st = _ from if_pos hflag]
        exact ⟨if_pos hflag, (by decide : (-2 : Int) < 0), rfl⟩
      · have hopen : handleCommand2 k st = _ := if_neg hflag
        have hreceive : receive st .init = _ := if_neg hflag
        by_cases hcount : (st.conn.recv 8).count = 8
        · left
          exact ⟨_, _, hreceive.trans (if_pos hcount), hopen.trans (if_neg (not_not.mpr hcount))⟩
        · right
          rw [hopen, hreceive, if_pos hcount, if_neg hcount]
          exact ⟨rfl, hrefused, rfl⟩
  | deinit =>
      rw [show handle .deinit k st = handleCommand3 k st from rfl]
      cases hflag : st.server.gClusterPoolInitialized with
      | false =>
          right
          rw [show handleCommand3 k st = _ from if_pos hflag]
          exact ⟨by simp [receive, hflag], (by decide : (-2 : Int) < 0), rfl⟩
      | true =>
          left
          exact ⟨_, _, if_pos hflag, if_neg (ne_false_of_eq_true hflag)⟩
  | readSector dev =>
      rw [handle_readSector]
      rcases handleReadSector_cases dev k st with ⟨hcount, h⟩ | ⟨hcount, h⟩
      · right
        rw [h]
        exact ⟨if_neg hcount, hrefused, rfl⟩
      · exact Or.inl ⟨_, _, if_pos hcount, h⟩
  | readCluster dev =>
      rw [handle_readCluster]
      rcases handleReadCluster_cases dev k st with ⟨hcount, h⟩ | ⟨hcount, h⟩
      · right
        rw [h]
        exact ⟨if_neg hcount, hrefused, rfl⟩
      · exact Or.inl ⟨_, _, if_pos hcount, h⟩
  | writeSector dev =>
      rw [handle_writeSector]
      rcases handleWriteSector_cases dev k st with ⟨hok, h⟩ | ⟨hok, h⟩
      · right
        rw [h]
        exact ⟨if_neg (ne_true_of_eq_false hok), hrefused, rfl⟩
      · exact Or.inl ⟨_, _, if_pos hok, h⟩
  | writeCluster dev =>
      rw [handle_writeCluster]
      rcases handleWriteCluster_cases dev k st with
        ⟨hcount, h⟩ | ⟨hcount, hok, h⟩ | ⟨hcount, hok, h⟩
      · right
        rw [h]
        exact ⟨if_neg hcount, hrefused, rfl⟩
      · right
        rw [h]
        have hfield : receive st (.writeCluster dev) = _ := if_pos hcount
        exact ⟨hfield.trans (if_neg (ne_true_of_eq_false hok)), hrefused, rfl⟩
      · have hfield : receive st (.writeCluster dev) = _ := if_pos hcount
        exact Or.inl ⟨_, _, hfield.trans (if_pos hok), h⟩

theorem handle_of_receive {c : Command} {st : St} {r : Request} {conn : Inbound}
    (h : receive st c = some (r, conn)) (k : Answers) :
    handle c k st = r.execute k { st with conn := conn } := by
  rcases handle_of_receive_or c k st with ⟨r', conn', hr, hexec⟩ | ⟨hnone, _⟩
  · obtain ⟨rfl, rfl⟩ := Prod.mk.inj (Option.some.inj (h.symm.trans hr))
    exact hexec
  · exact absurd (h.symm.trans hnone) (by simp)

theorem handle_of_receive_none {c : Command} {st : St} (h : receive st c = none) (k : Answers) :
    (handle c k st).ret < 0 ∧ (handle c k st).executed = none := by
  rcases handle_of_receive_or c k st with ⟨r, conn, hr, _⟩ | ⟨_, hrefused⟩
  · exact absurd (hr.symm.trans h) (by simp)
  · exact hrefused

end PsvEmmc
