/-
# `PsvEmmc.Server.Replies` — does an open connection mean a complete reply?

The handlers answer in three ways.  The sector reads send in a loop, the
cluster reads send a header whose count nobody looks at and then the pool in
a loop, and all the others return the count of a single send.  A handler that
returns a value below zero ends the connection, so its reply may be cut
short; the question is when one that keeps the connection has sent all of it.
-/
import PsvEmmc.Server.Requests

namespace PsvEmmc

open Words Memory Stream

/-! ## Complete replies -/

/-- The size of the `data` field of a command's response. -/
def Command.dataSize : Command → Nat
  | .ping | .term => 0xA
  | .readSector _ => 0x200
  | _ => 0

/-- The whole response struct and, for a cluster read, the pool. -/
def Handled.reply (c : Command) (h : Handled) : List UInt8 :=
  h.resp.encode ++
    match c with
    | .readCluster _ => load h.st.server.mem h.st.server.gClusterPoolPtr h.st.server.clusterBytes
    | _ => []

/-- If the connection stays open, the socket has accepted one complete reply. -/
def RepliesWhole (c : Command) (h : Handled) : Prop :=
  0 ≤ h.ret → h.resp.command = c.code ∧ h.resp.data.length = c.dataSize ∧ h.sent = h.reply c

/-- The sends that the handler of a command does not check are whole, or one it checks fails. -/
def SendsSuffice (c : Command) (k : Answers) (server : Pool) : Prop :=
  match c with
  | .readSector _ => True
  | .readCluster _ => 12 ≤ k.accept 0 ∨ Stalls k.accept 1 server.clusterBytes
  | c => k.accept 0 < 0 ∨ ((12 + c.dataSize : Nat) : Int) ≤ k.accept 0

/-! ## The three ways to answer -/

/-- The response of an executed request has its command's code and its data's size. -/
theorem execute_resp (r : Request) (k : Answers) (st : St) :
    (r.execute k st).resp.command = r.command.code ∧
      (r.execute k st).resp.data.length = r.command.dataSize := by
  cases r with
  | ping => exact ⟨rfl, rfl⟩
  | term => exact ⟨rfl, rfl⟩
  | init bps spc =>
      rw [show (Request.init bps spc).execute k st = executeInit bps spc k st from rfl,
        executeInit_eq]
      exact ⟨rfl, rfl⟩
  | deinit => exact ⟨rfl, rfl⟩
  | readSector dev sector => exact ⟨rfl, Sector.length_toList _⟩
  | readCluster dev cluster => exact ⟨rfl, rfl⟩
  | writeSector dev sector data => exact ⟨rfl, rfl⟩
  | writeCluster dev cluster data => exact ⟨rfl, rfl⟩

/-- One send whose count is returned. -/
theorem single_send_repliesWhole_iff {c : Command} {k : Answers} {h : Handled}
    (hcode : h.resp.command = c.code) (hdata : h.resp.data.length = c.dataSize)
    (hreply : h.reply c = h.resp.encode)
    (hsend : (h.ret, h.sent) = send (k.accept 0) h.resp.encode) :
    RepliesWhole c h ↔ k.accept 0 < 0 ∨ ((12 + c.dataSize : Nat) : Int) ≤ k.accept 0 := by
  have hlen : h.resp.encode.length = 12 + c.dataSize := by
    rw [Response.length_encode, hdata]
  have hiff : (0 ≤ (send (k.accept 0) h.resp.encode).1 →
      (send (k.accept 0) h.resp.encode).2 = h.resp.encode) ↔
        k.accept 0 < 0 ∨ (h.resp.encode.length : Int) ≤ k.accept 0 :=
    send_whole_or_failed_iff (by rw [hlen, Nat.add_comm]; exact Nat.succ_pos _)
  rw [← hsend, hlen] at hiff
  rw [← hiff, RepliesWhole, hreply]
  constructor
  · intro hwhole hret
    exact (hwhole hret).2.2
  · intro hsent hret
    exact ⟨hcode, hdata, hsent hret⟩

/-- The struct in a loop. -/
theorem readSector_repliesWhole (dev : Device) (sector : Int32) (k : Answers) (st : St) :
    RepliesWhole (.readSector dev) (executeReadSector dev sector k st) := by
  intro hret
  obtain ⟨hcode, hdata⟩ := execute_resp (.readSector dev sector) k st
  refine ⟨hcode, hdata, ?_⟩
  have hok : (sendAll k.accept 0 (executeReadSector dev sector k st).resp.encode).1 = true := by
    by_contra hfail
    have hneg : (executeReadSector dev sector k st).ret = -1 := if_neg hfail
    rw [hneg] at hret
    exact absurd hret (by decide)
  exact (sendAll_ok_iff_accepted.mp hok).trans (List.append_nil _).symm

/-- A header that is not looked at, and the pool in a loop. -/
theorem readCluster_repliesWhole_iff (dev : Device) (cluster : Int32) (k : Answers) (st : St) :
    RepliesWhole (.readCluster dev) (executeReadCluster dev cluster k st) ↔
      12 ≤ k.accept 0 ∨ Stalls k.accept 1 st.server.clusterBytes := by
  set h := executeReadCluster dev cluster k st with hh
  obtain ⟨hcode, hdata⟩ := execute_resp (.readCluster dev cluster) k st
  have hheader : h.resp.encode.length = 12 := by
    rw [Response.length_encode]
    exact congrArg (12 + ·) hdata
  set pool := load h.st.server.mem h.st.server.gClusterPoolPtr h.st.server.clusterBytes with hpool
  have hsent : h.sent = (send (k.accept 0) h.resp.encode).2 ++ (sendAll k.accept 1 pool).2 := rfl
  have hreply : h.reply (.readCluster dev) = h.resp.encode ++ pool := rfl
  have hret : 0 ≤ h.ret ↔ ¬ Stalls k.accept 1 st.server.clusterBytes := by
    have hlen : pool.length = st.server.clusterBytes := length_load _ _ _
    rw [← hlen, ← sendAll_ok_iff]
    show 0 ≤ (if (sendAll k.accept 1 pool).1 then (0 : Int) else -1) ↔ _
    split <;> simp_all
  rw [RepliesWhole, hret]
  constructor
  · intro hwhole
    by_cases hstall : Stalls k.accept 1 st.server.clusterBytes
    · exact Or.inr hstall
    · left
      obtain ⟨_, _, heq⟩ := hwhole hstall
      have hall : (sendAll k.accept 1 pool).2 = pool := by
        refine sendAll_ok_iff_accepted.mp (sendAll_ok_iff.mpr ?_)
        rwa [show pool.length = st.server.clusterBytes from length_load _ _ _]
      rw [hsent, hreply, hall, List.append_cancel_right_eq] at heq
      have hle := (send_accepted_eq_iff (by rw [hheader]; decide)).mp heq
      rwa [hheader] at hle
  · rintro (hle | hstall) hgo
    · refine ⟨hcode, hdata, ?_⟩
      have hwhole : (send (k.accept 0) h.resp.encode).2 = h.resp.encode :=
        (send_accepted_eq_iff (by rw [hheader]; decide)).mpr (by rw [hheader]; exact hle)
      have hall : (sendAll k.accept 1 pool).2 = pool := by
        refine sendAll_ok_iff_accepted.mp (sendAll_ok_iff.mpr ?_)
        rwa [show pool.length = st.server.clusterBytes from length_load _ _ _]
      rw [hsent, hreply, hwhole, hall]
    · exact absurd hstall hgo

/-- The action on a request keeps the connection with a complete reply exactly when its sends
suffice. -/
theorem execute_repliesWhole_iff (r : Request) (k : Answers) (st : St) :
    RepliesWhole r.command (r.execute k st) ↔ SendsSuffice r.command k st.server := by
  obtain ⟨hcode, hdata⟩ := execute_resp r k st
  cases r with
  | ping => exact single_send_repliesWhole_iff hcode hdata (List.append_nil _) rfl
  | term => exact single_send_repliesWhole_iff hcode hdata (List.append_nil _) rfl
  | init bps spc =>
      refine single_send_repliesWhole_iff hcode hdata (List.append_nil _) ?_
      rw [show (Request.init bps spc).execute k st = executeInit bps spc k st from rfl,
        executeInit_eq]
      rfl
  | deinit => exact single_send_repliesWhole_iff hcode hdata (List.append_nil _) rfl
  | readSector dev sector =>
      exact ⟨fun _ => trivial, fun _ => readSector_repliesWhole dev sector k st⟩
  | readCluster dev cluster => exact readCluster_repliesWhole_iff dev cluster k st
  | writeSector dev sector data =>
      exact single_send_repliesWhole_iff hcode hdata (List.append_nil _) rfl
  | writeCluster dev cluster data =>
      exact single_send_repliesWhole_iff hcode hdata (List.append_nil _) rfl

/-! ## The result -/

/-- **When an open connection means a complete reply.**  For every command, every state and
every behaviour of the sends: exactly when the request is refused, or the sends that the
handler leaves unchecked are whole, or one that it checks fails. -/
theorem replies_whole_iff (c : Command) (k : Answers) (st : St) :
    RepliesWhole c (handle c k st) ↔ receive st c = none ∨ SendsSuffice c k st.server := by
  cases hr : receive st c with
  | none =>
      constructor
      · intro _
        exact Or.inl rfl
      · intro _ hret
        exact absurd (handle_of_receive_none hr k).1 (Int.not_lt.mpr hret)
  | some p =>
      obtain ⟨r, conn⟩ := p
      obtain rfl := receive_command hr
      rw [handle_of_receive hr k, execute_repliesWhole_iff]
      constructor
      · intro hs
        exact Or.inr hs
      · rintro (hnone | hs)
        · exact absurd hnone (by simp)
        · exact hs

/-- A ping whose one send accepts five bytes of the response. -/
theorem ping_reply_cut_short :
    ¬ ∀ (c : Command) (k : Answers) (st : St), RepliesWhole c (handle c k st) := by
  intro h
  obtain ⟨_, _, hsent⟩ := h .ping { Answers.succeed with accept := fun _ => 5 } St.boot
    (by decide +kernel)
  exact absurd (congrArg List.length hsent) (by decide +kernel)

end PsvEmmc
