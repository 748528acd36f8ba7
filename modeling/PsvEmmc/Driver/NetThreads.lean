/-
# `PsvEmmc.Driver.NetThreads` — threads that send to the debug client

All threads send through one `message_buffer`.  "message send is locked with
mutex so this buffer should be safe", but the wrapper of the lock drops its
result and asks with a timeout of `0`, so a thread that does not get the mutex
goes on as if it had.

A call clears the buffer, copies its message there and sends the buffer in
pieces, each piece read when it is sent.  As long as no thread clears the
buffer while another is between its own clear and its last piece, the bytes on
the wire are whole frames, one for each call, and a part of one more
(`frames_of_run`).  Threads that all get the mutex keep to that
(`exclusive_of_getsMutex`); two that overlap can send one message twice and lose
the other (`message_lost`).
-/
import PsvEmmc.Driver.Net
import PsvEmmc.Lib.Runs

namespace PsvEmmc

open Runs
open scoped List

/-! ## Threads -/

/-- A message of a size that `send_message_to_client` takes. -/
abbrev ClientMessage := {msg : List UInt8 // msg.length ≤ msgSize}

/-- Where a thread is in `send_message_to_client`. -/
inductive SendPc where
  | idle
  | locked (msg : ClientMessage)
  | cleared (msg : ClientMessage)
  | sending (msg : ClientMessage) (bytesWereSend : Nat)

/-- A step of a thread; `sends` is a `ksceNetSend` that is offered the rest of the buffer and
accepts `n` bytes of it, or one if `n` is `0`. -/
inductive SendStep (τ : Type*) where
  | locks (t : τ) (msg : ClientMessage)
  | clears (t : τ)
  | copies (t : τ)
  | sends (t : τ) (n : Nat)
  | unlocks (t : τ)

/-- The mutex with its owner, the buffer, the threads, and the bytes on the connection; the
messages of all calls so far, and those among them not sent yet, with their threads. -/
structure SendSt (τ : Type*) where
  connInitMutex : Option τ := none
  messageBuffer : List UInt8 := List.replicate msgSize 0
  pc : τ → SendPc := fun _ => .idle
  wire : List UInt8 := []
  started : List ClientMessage := []
  unsent : List (τ × ClientMessage) := []

variable {τ : Type*} [DecidableEq τ]

/-- What `ksceNetSend` accepts of `rest` bytes. -/
def acceptedOf (n rest : Nat) : Nat := max 1 (min n rest)

/-- A thread takes its next step; a step that is not its next one does nothing. -/
def SendSt.step (s : SendSt τ) : SendStep τ → SendSt τ
  | .locks t msg =>
      match s.pc t with
      | .idle =>
          { s with
            -- The result of the lock is not looked at.
            connInitMutex := s.connInitMutex.or (some t)
            pc := Function.update s.pc t (.locked msg)
            started := s.started ++ [msg]
            unsent := (t, msg) :: s.unsent }
      | _ => s
  | .clears t =>
      match s.pc t with
      | .locked msg =>
          { s with
            messageBuffer := List.replicate msgSize 0
            pc := Function.update s.pc t (.cleared msg) }
      | _ => s
  | .copies t =>
      match s.pc t with
      | .cleared msg =>
          { s with
            messageBuffer := msg.1 ++ s.messageBuffer.drop msg.1.length
            pc := Function.update s.pc t (.sending msg 0) }
      | _ => s
  | .sends t n =>
      match s.pc t with
      | .sending msg k =>
          if k = msgSize then s
          else
            let k' := k + acceptedOf n (msgSize - k)
            { s with
              wire := s.wire ++ (s.messageBuffer.drop k).take (acceptedOf n (msgSize - k))
              pc := Function.update s.pc t (.sending msg k')
              unsent := if k' = msgSize then s.unsent.erase (t, msg) else s.unsent }
      | _ => s
  | .unlocks t =>
      match s.pc t with
      | .sending _ k =>
          if k = msgSize then
            { s with
              connInitMutex := if s.connInitMutex = some t then none else s.connInitMutex
              pc := Function.update s.pc t .idle }
          else s
      | _ => s

/-- The thread has cleared the buffer and not sent its last piece. -/
def SendPc.Active : SendPc → Prop
  | .cleared _ => True
  | .sending _ k => k < msgSize
  | _ => False

/-- No thread clears the buffer of another. -/
def Exclusive (s : SendSt τ) : SendStep τ → Prop
  | .clears t => ∀ msg, s.pc t = .locked msg → ∀ u, u ≠ t → ¬ (s.pc u).Active
  | _ => True

/-- The message a thread is still to send. -/
def SendPc.unsent : SendPc → Option ClientMessage
  | .idle => none
  | .locked msg => some msg
  | .cleared msg => some msg
  | .sending msg k => if k = msgSize then none else some msg

/-! ## Whole frames on the wire -/

/-- The frames of some messages. -/
def frames (order : List ClientMessage) : List UInt8 :=
  (order.map fun msg => frame msg.1).flatten

theorem frames_append_singleton (order : List ClientMessage) (msg : ClientMessage) :
    frames (order ++ [msg]) = frames order ++ frame msg.1 := by
  rw [frames, List.map_append, List.flatten_append]
  exact congrArg (frames order ++ ·) (List.append_nil _)

/-- The messages not sent yet are those the threads hold. -/
structure Tracks (unsent : List (τ × ClientMessage)) (pc : τ → SendPc) : Prop where
  mem_iff : ∀ t msg, (t, msg) ∈ unsent ↔ (pc t).unsent = some msg
  nodup : (unsent.map Prod.fst).Nodup

/-- The steps of a call behind its lock, when `ksceNetSend` accepts `ns`; those that the call has
taken do nothing. -/
def callSteps (t : τ) (ns : List Nat) : List (SendStep τ) :=
  .clears t :: .copies t :: (ns.map (.sends t) ++ [.unlocks t])

/-- What the wire should hold: the frames of messages in some order, and a part of the frame of
one that is being sent; these messages and one for each call that has not sent its own are those
of the calls.  And every call comes to its end. -/
structure SendSt.Exact (s : SendSt τ) : Prop where
  onWire : ∃ (order : List ClientMessage) (rest : List (τ × ClientMessage)) (part : List UInt8),
    s.wire = frames order ++ part ∧ s.started ~ order ++ rest.map Prod.snd ∧
    (part = [] ∨ ∃ u ∈ rest, part <+: frame u.2.1) ∧ Tracks rest s.pc
  ends : ∀ t ns, msgSize ≤ ns.length → (run SendSt.step s (callSteps t ns)).pc t = .idle

/-- The frames on the wire, and at most one thread at work on the next. -/
inductive OnWire (buffer : List UInt8) (pc : τ → SendPc) (wire : List UInt8)
    (order : List ClientMessage) : Prop
  | quiet (hquiet : ∀ u, ¬ (pc u).Active) (hwire : wire = frames order)
  | cleared (t : τ) (msg : ClientMessage) (halone : ∀ u, u ≠ t → ¬ (pc u).Active)
      (hpc : pc t = .cleared msg) (hbuffer : buffer = List.replicate msgSize 0)
      (hwire : wire = frames order)
  | sending (t : τ) (msg : ClientMessage) (k : Nat) (halone : ∀ u, u ≠ t → ¬ (pc u).Active)
      (hpc : pc t = .sending msg k) (hk : k < msgSize) (hbuffer : buffer = frame msg.1)
      (hwire : wire = frames order ++ (frame msg.1).take k)

/-- What exclusive steps keep. -/
structure SendInv (s : SendSt τ) : Prop where
  onWire : ∃ order, s.started ~ order ++ s.unsent.map Prod.snd ∧
    OnWire s.messageBuffer s.pc s.wire order
  tracks : Tracks s.unsent s.pc
  bounded : ∀ t msg k, s.pc t = .sending msg k → k ≤ msgSize

section Update

variable {buffer : List UInt8} {pc : τ → SendPc} {wire : List UInt8}
  {order : List ClientMessage} {t : τ} {p : SendPc}

/-- A thread that is not at work moves. -/
theorem OnWire.update (h : OnWire buffer pc wire order) (ht : ¬ (pc t).Active)
    (hp : ¬ p.Active) : OnWire buffer (Function.update pc t p) wire order := by
  have hother : ∀ u, ¬ (pc u).Active → ¬ (Function.update pc t p u).Active := by
    intro u hu
    rcases eq_or_ne u t with rfl | hne
    · rwa [Function.update_self]
    · rwa [Function.update_of_ne hne]
  cases h with
  | quiet hquiet hwire => exact .quiet (fun u => hother u (hquiet u)) hwire
  | cleared v msg halone hpc hbuffer hwire =>
      have hne : v ≠ t := by
        rintro rfl
        rw [hpc] at ht
        exact ht trivial
      exact .cleared v msg (fun u hu => hother u (halone u hu))
        (by rw [Function.update_of_ne hne, hpc]) hbuffer hwire
  | sending v msg k halone hpc hk hbuffer hwire =>
      have hne : v ≠ t := by
        rintro rfl
        rw [hpc] at ht
        exact ht hk
      exact .sending v msg k (fun u hu => hother u (halone u hu))
        (by rw [Function.update_of_ne hne, hpc]) hk hbuffer hwire

/-- The other threads are where they were. -/
theorem alone_update (h : ∀ u, u ≠ t → ¬ (pc u).Active) :
    ∀ u, u ≠ t → ¬ (Function.update pc t p u).Active := by
  intro u hu
  rw [Function.update_of_ne hu]
  exact h u hu

/-- Nobody is at work when the only thread at work stops. -/
theorem quiet_update (h : ∀ u, u ≠ t → ¬ (pc u).Active) (hp : ¬ p.Active) :
    ∀ u, ¬ (Function.update pc t p u).Active := by
  intro u
  rcases eq_or_ne u t with rfl | hne
  · rwa [Function.update_self]
  · rw [Function.update_of_ne hne]
    exact h u hne

/-- When nobody else is at work a thread may clear the buffer. -/
theorem OnWire.clears (h : OnWire buffer pc wire order) (ht : ¬ (pc t).Active)
    (halone : ∀ u, u ≠ t → ¬ (pc u).Active) (msg : ClientMessage) :
    OnWire (List.replicate msgSize 0) (Function.update pc t (.cleared msg)) wire order := by
  have hquiet : ∀ u, ¬ (pc u).Active := fun u => by
    rcases eq_or_ne u t with rfl | hne
    · exact ht
    · exact halone u hne
  refine .cleared t msg (alone_update halone) (Function.update_self ..) rfl ?_
  cases h with
  | quiet _ hwire => exact hwire
  | cleared v msg' _ hpc _ _ => exact absurd (hpc ▸ trivial) (hquiet v)
  | sending v msg' k _ hpc hk _ _ => exact absurd (hpc ▸ hk) (hquiet v)

/-- The thread that cleared the buffer copies its message there. -/
theorem OnWire.copies (h : OnWire buffer pc wire order) {msg : ClientMessage}
    (ht : pc t = .cleared msg) :
    OnWire (msg.1 ++ buffer.drop msg.1.length) (Function.update pc t (.sending msg 0)) wire
      order := by
  have hactive : (pc t).Active := ht ▸ trivial
  cases h with
  | quiet hquiet _ => exact absurd hactive (hquiet t)
  | cleared v msg' halone hpc hbuffer hwire =>
      obtain rfl : t = v := by
        by_contra hne
        exact halone t hne hactive
      refine .sending t msg 0 (alone_update halone) (Function.update_self ..) (by decide) ?_ ?_
      · rw [hbuffer, List.drop_replicate]
        rfl
      · rw [hwire, List.take_zero, List.append_nil]
  | sending v msg' k halone hpc hk _ _ =>
      have hne : t ≠ v := by
        rintro rfl
        rw [ht] at hpc
        cases hpc
      exact absurd hactive (halone t hne)

/-- The thread that sends goes on with its frame. -/
theorem OnWire.sends (h : OnWire buffer pc wire order) {msg : ClientMessage} {k : Nat}
    (ht : pc t = .sending msg k) (hk : k < msgSize) (a : Nat) :
    (k + a = msgSize → OnWire buffer (Function.update pc t (.sending msg (k + a)))
      (wire ++ (buffer.drop k).take a) (order ++ [msg])) ∧
    (k + a < msgSize → OnWire buffer (Function.update pc t (.sending msg (k + a)))
      (wire ++ (buffer.drop k).take a) order) := by
  have hactive : (pc t).Active := ht ▸ hk
  cases h with
  | quiet hquiet _ => exact absurd hactive (hquiet t)
  | cleared v msg' halone hpc _ _ =>
      have hne : t ≠ v := by
        rintro rfl
        rw [ht] at hpc
        cases hpc
      exact absurd hactive (halone t hne)
  | sending v msg' k' halone hpc _ hbuffer hwire =>
      obtain rfl : t = v := by
        by_contra hne
        exact halone t hne hactive
      obtain ⟨rfl, rfl⟩ := SendPc.sending.inj (ht.symm.trans hpc)
      have hpiece : wire ++ (buffer.drop k).take a =
          frames order ++ (frame msg.1).take (k + a) := by
        rw [hwire, hbuffer, List.append_assoc, ← List.take_add]
      constructor
      · intro hlast
        refine .quiet (quiet_update halone (not_lt.mpr hlast.ge)) ?_
        rw [hpiece, hlast, List.take_of_length_le (length_frame msg.2).le,
          frames_append_singleton]
      · intro hmore
        exact .sending t msg (k + a) (alone_update halone) (Function.update_self ..) hmore
          hbuffer hpiece

/-! ## The messages not sent yet -/

variable {unsent : List (τ × ClientMessage)} {msg : ClientMessage}

/-- A thread moves and holds what it held. -/
theorem Tracks.update (h : Tracks unsent pc) (hp : p.unsent = (pc t).unsent) :
    Tracks unsent (Function.update pc t p) := by
  refine ⟨fun u m => ?_, h.nodup⟩
  rw [h.mem_iff]
  rcases eq_or_ne u t with rfl | hne
  · rw [Function.update_self, hp]
  · rw [Function.update_of_ne hne]

/-- A thread starts with a message. -/
theorem Tracks.cons (h : Tracks unsent pc) (ht : (pc t).unsent = none)
    (hp : p.unsent = some msg) : Tracks ((t, msg) :: unsent) (Function.update pc t p) := by
  have hnot : ∀ m, (t, m) ∉ unsent := fun m hm => by
    rw [h.mem_iff, ht] at hm
    cases hm
  refine ⟨fun u m => ?_, List.nodup_cons.mpr ⟨fun hmem => ?_, h.nodup⟩⟩
  · rw [List.mem_cons, Prod.mk.injEq]
    rcases eq_or_ne u t with rfl | hne
    · rw [Function.update_self, hp, Option.some.injEq, or_iff_left (hnot m)]
      exact (and_iff_right rfl).trans eq_comm
    · rw [Function.update_of_ne hne, ← h.mem_iff]
      exact or_iff_right fun hboth => hne hboth.1
  · obtain ⟨⟨u, m⟩, hm, rfl⟩ := List.mem_map.mp hmem
    exact hnot m hm

/-- A thread has sent its message. -/
theorem Tracks.erase (h : Tracks unsent pc) (ht : (pc t).unsent = some msg)
    (hp : p.unsent = none) : Tracks (unsent.erase (t, msg)) (Function.update pc t p) := by
  refine ⟨fun u m => ?_, h.nodup.sublist (List.erase_sublist.map Prod.fst)⟩
  rw [(List.Nodup.of_map _ h.nodup).mem_erase_iff, h.mem_iff]
  rcases eq_or_ne u t with rfl | hne
  · rw [Function.update_self, hp, ht]
    refine iff_of_false ?_ (by simp)
    rintro ⟨hother, hm⟩
    exact hother (by rw [Option.some.inj hm])
  · rw [Function.update_of_ne hne]
    exact and_iff_right fun heq => hne (Prod.mk.inj heq).1

end Update

theorem acceptedOf_le {n rest : Nat} (h : 0 < rest) : acceptedOf n rest ≤ rest :=
  max_le h (min_le_right n rest)

/-- A thread that has not sent more than a frame moves to where it has not. -/
theorem bounded_update {pc : τ → SendPc}
    (h : ∀ t msg k, pc t = .sending msg k → k ≤ msgSize) {t : τ} {p : SendPc}
    (hp : ∀ msg k, p = .sending msg k → k ≤ msgSize) :
    ∀ u msg k, Function.update pc t p u = .sending msg k → k ≤ msgSize := by
  intro u msg k hu
  rcases eq_or_ne u t with rfl | hne
  · rw [Function.update_self] at hu
    exact hp msg k hu
  · rw [Function.update_of_ne hne] at hu
    exact h u msg k hu

/-! ## One step -/

/-- What the next step of a thread does. -/
inductive Moves (s : SendSt τ) : SendStep τ → SendSt τ → Prop
  | locks (t : τ) (msg : ClientMessage) (hpc : s.pc t = .idle) :
      Moves s (.locks t msg) { s with
        connInitMutex := s.connInitMutex.or (some t)
        pc := Function.update s.pc t (.locked msg)
        started := s.started ++ [msg]
        unsent := (t, msg) :: s.unsent }
  | clears (t : τ) (msg : ClientMessage) (hpc : s.pc t = .locked msg) :
      Moves s (.clears t) { s with
        messageBuffer := List.replicate msgSize 0
        pc := Function.update s.pc t (.cleared msg) }
  | copies (t : τ) (msg : ClientMessage) (hpc : s.pc t = .cleared msg) :
      Moves s (.copies t) { s with
        messageBuffer := msg.1 ++ s.messageBuffer.drop msg.1.length
        pc := Function.update s.pc t (.sending msg 0) }
  | sends (t : τ) (n : Nat) (msg : ClientMessage) (k : Nat) (hpc : s.pc t = .sending msg k)
      (hk : k ≠ msgSize) :
      Moves s (.sends t n) { s with
        wire := s.wire ++ (s.messageBuffer.drop k).take (acceptedOf n (msgSize - k))
        pc := Function.update s.pc t (.sending msg (k + acceptedOf n (msgSize - k)))
        unsent :=
          if k + acceptedOf n (msgSize - k) = msgSize then s.unsent.erase (t, msg)
          else s.unsent }
  | unlocks (t : τ) (msg : ClientMessage) (hpc : s.pc t = .sending msg msgSize) :
      Moves s (.unlocks t) { s with
        connInitMutex := if s.connInitMutex = some t then none else s.connInitMutex
        pc := Function.update s.pc t .idle }

/-- A step is the next one of its thread, or does nothing. -/
theorem SendSt.step_cases (s : SendSt τ) (e : SendStep τ) :
    s.step e = s ∨ Moves s e (s.step e) := by
  cases e with
  | locks t msg =>
      rw [step]
      cases hpc : s.pc t with
      | idle => exact Or.inr (.locks t msg hpc)
      | locked m | cleared m | sending m k => exact Or.inl rfl
  | clears t =>
      rw [step]
      cases hpc : s.pc t with
      | locked msg => exact Or.inr (.clears t msg hpc)
      | idle | cleared m | sending m k => exact Or.inl rfl
  | copies t =>
      rw [step]
      cases hpc : s.pc t with
      | cleared msg => exact Or.inr (.copies t msg hpc)
      | idle | locked m | sending m k => exact Or.inl rfl
  | sends t n =>
      rw [step]
      cases hpc : s.pc t with
      | sending msg k =>
          by_cases hk : k = msgSize
          · exact Or.inl (if_pos hk)
          · dsimp only
            rw [if_neg hk]
            exact Or.inr (.sends t n msg k hpc hk)
      | idle | locked m | cleared m => exact Or.inl rfl
  | unlocks t =>
      rw [step]
      cases hpc : s.pc t with
      | sending msg k =>
          by_cases hk : k = msgSize
          · dsimp only
            rw [if_pos hk]
            exact Or.inr (.unlocks t msg (hk ▸ hpc))
          · exact Or.inl (if_neg hk)
      | idle | locked m | cleared m => exact Or.inl rfl

/-- **One step.**  Exclusive steps keep whole frames on the wire. -/
theorem SendInv.step {s : SendSt τ} (hI : SendInv s) {e : SendStep τ} (he : Exclusive s e) :
    SendInv (s.step e) := by
  rcases s.step_cases e with hnone | hmoves
  · rwa [hnone]
  obtain ⟨⟨order, hperm, hwire⟩, htracks, hbounded⟩ := hI
  generalize s.step e = s' at hmoves
  cases hmoves with
  | locks t msg hpc =>
      refine ⟨⟨order, ?_, hwire.update (by rw [hpc]; exact id) id⟩,
        htracks.cons (by rw [hpc]; rfl) rfl, bounded_update hbounded (fun _ _ h => by cases h)⟩
      calc s.started ++ [msg] ~ (order ++ s.unsent.map Prod.snd) ++ [msg] :=
            hperm.append_right [msg]
        _ ~ msg :: (order ++ s.unsent.map Prod.snd) := List.perm_append_singleton _ _
        _ ~ order ++ msg :: s.unsent.map Prod.snd := List.perm_middle.symm
  | clears t msg hpc =>
      exact ⟨⟨order, hperm, hwire.clears (by rw [hpc]; exact id) (he msg hpc) msg⟩,
        htracks.update (by rw [hpc]; rfl), bounded_update hbounded (fun _ _ h => by cases h)⟩
  | copies t msg hpc =>
      refine ⟨⟨order, hperm, hwire.copies hpc⟩, htracks.update (by rw [hpc]; rfl),
        bounded_update hbounded fun m k h => ?_⟩
      obtain ⟨_, rfl⟩ := SendPc.sending.inj h
      exact Nat.zero_le _
  | sends t n msg k hpc hk =>
      have hlt : k < msgSize := lt_of_le_of_ne (hbounded t msg k hpc) hk
      have hle := acceptedOf_le (n := n) (Nat.sub_pos_of_lt hlt)
      generalize acceptedOf n (msgSize - k) = a at hle ⊢
      obtain ⟨hlast, hmore⟩ := hwire.sends hpc hlt a
      have hunsent : (s.pc t).unsent = some msg := by
        rw [hpc]
        exact if_neg hk
      have hbounded' := bounded_update (t := t) hbounded (p := .sending msg (k + a))
        fun m k' h => by
          obtain ⟨_, rfl⟩ := SendPc.sending.inj h
          omega
      by_cases hend : k + a = msgSize
      · rw [if_pos hend]
        refine ⟨⟨order ++ [msg], ?_, hlast hend⟩, htracks.erase hunsent (if_pos hend), hbounded'⟩
        have herase :=
          (List.perm_cons_erase ((htracks.mem_iff t msg).mpr hunsent)).map Prod.snd
        calc s.started ~ order ++ s.unsent.map Prod.snd := hperm
          _ ~ order ++ msg :: (s.unsent.erase (t, msg)).map Prod.snd := herase.append_left order
          _ = (order ++ [msg]) ++ (s.unsent.erase (t, msg)).map Prod.snd := by
              rw [List.append_assoc]
              rfl
      · rw [if_neg hend]
        refine ⟨⟨order, hperm, hmore (by omega)⟩, htracks.update ?_, hbounded'⟩
        rw [hunsent]
        exact if_neg hend
  | unlocks t msg hpc =>
      refine ⟨⟨order, hperm, hwire.update ?_ id⟩, htracks.update ?_,
        bounded_update hbounded (fun _ _ h => by cases h)⟩
      · rw [hpc]
        exact lt_irrefl msgSize
      · rw [hpc]
        rfl

/-! ## Runs -/

omit [DecidableEq τ] in
theorem SendInv.init : SendInv ({} : SendSt τ) where
  onWire := ⟨[], List.Perm.refl _, .quiet (fun _ => id) rfl⟩
  tracks := ⟨fun _ _ => ⟨fun h => absurd h List.not_mem_nil, fun h => by cases h⟩, List.nodup_nil⟩
  bounded := fun _ _ _ h => by cases h

theorem sends_idle {s : SendSt τ} {t : τ} (hpc : s.pc t = .idle) (ns : List Nat) :
    run SendSt.step s (ns.map (.sends t)) = s := by
  induction ns with
  | nil => rfl
  | cons n ns ih =>
      have hsame : s.step (.sends t n) = s := by rw [SendSt.step, hpc]
      rw [List.map_cons, run_cons, hsame, ih]

/-- As many sends as a frame has bytes are enough for it. -/
theorem sends_end {t : τ} {msg : ClientMessage} {ns : List Nat} {s : SendSt τ} {k : Nat}
    (hpc : s.pc t = .sending msg k) (hk : k ≤ msgSize) (hns : msgSize ≤ k + ns.length) :
    (run SendSt.step s (ns.map (.sends t))).pc t = .sending msg msgSize := by
  induction ns generalizing s k with
  | nil => exact hpc.trans (congrArg _ (le_antisymm hk hns))
  | cons n ns ih =>
      rw [List.map_cons, run_cons, SendSt.step, hpc]
      dsimp only
      by_cases hend : k = msgSize
      · rw [if_pos hend]
        exact ih hpc hk (by omega)
      · rw [if_neg hend]
        have hle := acceptedOf_le (n := n) (Nat.sub_pos_of_lt (lt_of_le_of_ne hk hend))
        have hpos : 1 ≤ acceptedOf n (msgSize - k) := le_max_left 1 _
        rw [List.length_cons] at hns
        exact ih (Function.update_self ..) (by omega) (by omega)

/-- A call takes the steps that are left to it and returns. -/
theorem SendSt.call_ends {s : SendSt τ} (t : τ) {ns : List Nat}
    (hbounded : ∀ msg k, s.pc t = .sending msg k → k ≤ msgSize) (hns : msgSize ≤ ns.length) :
    (run SendSt.step s (callSteps t ns)).pc t = .idle := by
  -- by the phase of the call, from the last one backwards
  have hidle : ∀ {s : SendSt τ}, s.pc t = .idle →
      (run SendSt.step s (ns.map (.sends t) ++ [.unlocks t])).pc t = .idle := by
    intro s hpc
    rw [run_append, sends_idle hpc, run_cons, SendSt.step, hpc]
    exact hpc
  have hsending : ∀ {s : SendSt τ} {msg k}, s.pc t = .sending msg k → k ≤ msgSize →
      (run SendSt.step s (ns.map (.sends t) ++ [.unlocks t])).pc t = .idle := by
    intro s msg k hpc hk
    have hlast := sends_end hpc hk (hns.trans (Nat.le_add_left ..))
    rw [run_append, run_cons, SendSt.step, hlast]
    dsimp only
    rw [if_pos rfl]
    exact Function.update_self ..
  have hcopies : ∀ {s : SendSt τ} {msg}, s.pc t = .cleared msg →
      (run SendSt.step s (.copies t :: (ns.map (.sends t) ++ [.unlocks t]))).pc t = .idle := by
    intro s msg hpc
    rw [run_cons, SendSt.step, hpc]
    exact hsending (Function.update_self ..) (Nat.zero_le _)
  rw [callSteps, run_cons]
  cases hpc : s.pc t with
  | idle =>
      have hsame : s.step (.clears t) = s := by rw [SendSt.step, hpc]
      have hsame' : s.step (.copies t) = s := by rw [SendSt.step, hpc]
      rw [hsame, run_cons, hsame']
      exact hidle hpc
  | locked msg =>
      rw [SendSt.step, hpc]
      exact hcopies (Function.update_self ..)
  | cleared msg =>
      have hsame : s.step (.clears t) = s := by rw [SendSt.step, hpc]
      rw [hsame]
      exact hcopies hpc
  | sending msg k =>
      have hsame : s.step (.clears t) = s := by rw [SendSt.step, hpc]
      have hsame' : s.step (.copies t) = s := by rw [SendSt.step, hpc]
      rw [hsame, run_cons, hsame']
      exact hsending hpc (hbounded msg k hpc)

theorem SendInv.exact {s : SendSt τ} (hI : SendInv s) : s.Exact := by
  obtain ⟨⟨order, hperm, hwire⟩, htracks, hbounded⟩ := hI
  refine ⟨?_, fun t ns hns => s.call_ends t (hbounded t) hns⟩
  cases hwire with
  | quiet _ hwire =>
      exact ⟨order, _, [], by rw [hwire, List.append_nil], hperm, Or.inl rfl, htracks⟩
  | cleared _ _ _ _ _ hwire =>
      exact ⟨order, _, [], by rw [hwire, List.append_nil], hperm, Or.inl rfl, htracks⟩
  | sending t msg k _ hpc hk _ hwire =>
      refine ⟨order, _, (frame msg.1).take k, hwire, hperm, Or.inr ⟨(t, msg), ?_, ?_⟩, htracks⟩
      · rw [htracks.mem_iff, hpc]
        exact if_neg hk.ne
      · exact List.take_prefix k _

/-- **What the threads send.**  In every run in which no thread clears the buffer of another, the
wire holds the frames of the messages that were sent, each once, and a part of one more while a
thread sends it; every call that is behind its last send has its message there. -/
theorem frames_of_run {es : List (SendStep τ)} (h : Along SendSt.step Exclusive {} es) :
    (run SendSt.step {} es).Exact :=
  SendInv.exact (inv_run (fun _ _ hI he => hI.step he) SendInv.init h)

/-! ## With the mutex -/

/-- A call gets the mutex. -/
def GetsMutex (s : SendSt τ) : SendStep τ → Prop
  | .locks t _ => s.pc t = .idle → s.connInitMutex = none
  | _ => True

/-- A thread in a call owns the mutex. -/
def Owned (s : SendSt τ) : Prop := ∀ t, s.pc t ≠ .idle → s.connInitMutex = some t

theorem ne_idle_of_update {pc : τ → SendPc} {t u : τ} {p : SendPc} (hne : u ≠ t)
    (hu : Function.update pc t p u ≠ .idle) : pc u ≠ .idle := by
  rwa [Function.update_of_ne hne] at hu

theorem Owned.step {s : SendSt τ} (hI : Owned s) {e : SendStep τ} (he : GetsMutex s e) :
    Owned (s.step e) := by
  rcases s.step_cases e with hnone | hmoves
  · rwa [hnone]
  have hmove : ∀ t p, s.pc t ≠ .idle → ∀ u, Function.update s.pc t p u ≠ .idle →
      s.connInitMutex = some u := by
    intro t p ht u hu
    rcases eq_or_ne u t with rfl | hne
    · exact hI u ht
    · exact hI u (ne_idle_of_update hne hu)
  generalize s.step e = s' at hmoves
  cases hmoves with
  | locks t msg hpc =>
      have hfree := he hpc
      intro u hu
      rcases eq_or_ne u t with rfl | hne
      · show s.connInitMutex.or (some u) = some u
        rw [hfree]
        rfl
      · cases hfree.symm.trans (hI u (ne_idle_of_update hne hu))
  | clears t msg hpc => exact hmove t _ (by simp [hpc])
  | copies t msg hpc => exact hmove t _ (by simp [hpc])
  | sends t n msg k hpc hk => exact hmove t _ (by simp [hpc])
  | unlocks t msg hpc =>
      intro u hu
      rcases eq_or_ne u t with rfl | hne
      · exact absurd (Function.update_self ..) hu
      · have hown := (hI t (by simp [hpc])).symm.trans (hI u (ne_idle_of_update hne hu))
        exact absurd (Option.some.inj hown).symm hne

/-- Threads that get the mutex whenever they ask for it keep out of each other's way. -/
theorem exclusive_of_getsMutex {es : List (SendStep τ)}
    (h : Along SendSt.step GetsMutex {} es) : Along SendSt.step Exclusive {} es := by
  refine along_of_inv (fun _ _ hI he => Owned.step hI he) (fun s e hI _ => ?_)
    (fun t ht => absurd rfl ht) h
  cases e with
  | clears t =>
      intro msg hpc u hne hactive
      have hu : s.pc u ≠ .idle := fun hu => by
        rw [hu] at hactive
        exact hactive
      have hown := (hI t (by simp [hpc])).symm.trans (hI u hu)
      exact hne (Option.some.inj hown).symm
  | locks t msg | copies t | sends t n | unlocks t => trivial

/-- A message of one byte. -/
def byteMessage (b : UInt8) : ClientMessage := ⟨[b], Nat.le_add_left 1 255⟩

/-- Two calls one after the other. -/
theorem frames_of_two_calls :
    (run SendSt.step ({} : SendSt Nat)
      [.locks 0 (byteMessage 1), .clears 0, .copies 0, .sends 0 100, .sends 0 156, .unlocks 0,
        .locks 1 (byteMessage 2), .clears 1]).Exact :=
  frames_of_run (exclusive_of_getsMutex
    ⟨fun _ => rfl, trivial, trivial, trivial, trivial, trivial, fun _ => rfl, trivial, trivial⟩)

/-- While the first thread has its message in the buffer, the second puts its own there. -/
def overlap (first second : ClientMessage) : List (SendStep Nat) :=
  [.locks 0 first, .clears 0, .copies 0, .locks 1 second, .clears 1, .copies 1, .sends 0 256,
    .sends 1 256, .unlocks 0, .unlocks 1]

/-- The second message is sent twice, and the first one not at all. -/
theorem message_lost : ¬ (run SendSt.step {} (overlap (byteMessage 1) (byteMessage 2))).Exact := by
  rintro ⟨⟨order, rest, part, hwire, hperm, hpart, htracks⟩, _⟩
  have hidle : ∀ t,
      (run SendSt.step {} (overlap (byteMessage 1) (byteMessage 2))).pc t = .idle := by
    intro t
    match t with
    | 0 | 1 | _ + 2 => rfl
  obtain rfl : rest = [] := List.eq_nil_iff_forall_not_mem.mpr fun u hu => by
    rw [htracks.mem_iff u.1 u.2, hidle] at hu
    cases hu
  have hfirst : byteMessage 1 ∈ order := by
    rw [List.map_nil, List.append_nil] at hperm
    exact hperm.subset List.mem_cons_self
  -- A byte of the first message would be on the wire.
  have hmem : (1 : UInt8) ∈ frames order ++ part :=
    List.mem_append_left _ (List.mem_flatten.mpr
      ⟨_, List.mem_map_of_mem hfirst, List.mem_cons_self⟩)
  rw [← hwire] at hmem
  have hpiece : (1 : UInt8) ∉
      (((byteMessage 2).1 ++ (List.replicate msgSize 0).drop 1).drop 0).take 256 := by
    intro h
    rcases List.mem_append.mp (List.mem_of_mem_drop (List.mem_of_mem_take h)) with h | h
    · exact absurd h (by decide)
    · exact absurd (List.eq_of_mem_replicate (List.mem_of_mem_drop h)) (by decide)
  have htwice : (1 : UInt8) ∈
      [] ++ (((byteMessage 2).1 ++ (List.replicate msgSize 0).drop 1).drop 0).take 256 ++
        (((byteMessage 2).1 ++ (List.replicate msgSize 0).drop 1).drop 0).take 256 := hmem
  rw [List.nil_append, List.mem_append] at htwice
  exact htwice.elim hpiece hpiece

end PsvEmmc
