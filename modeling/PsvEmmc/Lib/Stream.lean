/-
# `Stream` — a byte stream cut at arbitrary points

A stream socket promises order and nothing about boundaries: a receive may
return any positive number of bytes up to the length asked for, a send may
accept any positive number of the bytes offered, and either may fail.

`Inbound` is the receiving end: the bytes still to come, how many have been
received, and, for each position, what a receive made there answers.  Every
successful receive moves the position forward and the programs verified here
give up after a failed one, so one answer for each position describes every
behaviour of the network.  An answer that is not positive is the code of a
failed receive; a positive one bounds the bytes delivered.

The sending end needs no state.  `send answer buf` is one call, and the loop
`sendAll` takes the answers of its calls as a function of their number.
-/
import Mathlib

namespace Stream

/-! ## Receiving -/

/-- The receiving end of a connection. -/
structure Inbound where
  pending : List UInt8
  received : Nat
  cut : Nat → Int

/-- The result of a receive: its return value, the bytes, the stream afterwards. -/
structure Received where
  count : Int
  bytes : List UInt8
  rest : Inbound

namespace Inbound

/-- The stream once `n` more bytes have been received. -/
def advance (n : Nat) (c : Inbound) : Inbound :=
  { c with pending := c.pending.drop n, received := c.received + n }

@[simp] theorem pending_advance (n : Nat) (c : Inbound) :
    (c.advance n).pending = c.pending.drop n := rfl

@[simp] theorem received_advance (n : Nat) (c : Inbound) :
    (c.advance n).received = c.received + n := rfl

@[simp] theorem advance_zero (c : Inbound) : c.advance 0 = c := rfl

theorem advance_advance (m n : Nat) (c : Inbound) :
    (c.advance m).advance n = c.advance (m + n) := by
  simp [advance, List.drop_drop, Nat.add_assoc]

/-- The stream with more bytes sent into its other end. -/
def push (bs : List UInt8) (c : Inbound) : Inbound := { c with pending := c.pending ++ bs }

@[simp] theorem pending_push (bs : List UInt8) (c : Inbound) :
    (c.push bs).pending = c.pending ++ bs := rfl

/-- One receive of at most `len` bytes.  With nothing left to come it returns 0. -/
def recv (len : Nat) (c : Inbound) : Received :=
  if c.cut c.received ≤ 0 then ⟨c.cut c.received, [], c⟩
  else
    let got := c.pending.take (min (c.cut c.received).toNat len)
    ⟨got.length, got, c.advance got.length⟩

/-- A connection that delivers `bs` and never cuts a receive of an `int`'s length or less. -/
def uncut (bs : List UInt8) : Inbound := ⟨bs, 0, fun _ => 2 ^ 31 - 1⟩

/-- A receive fails and leaves the stream alone, or delivers between 1 and
`len` of the pending bytes. -/
theorem recv_cases (len : Nat) (c : Inbound) :
    ((c.recv len).count ≤ 0 ∧ (c.recv len).bytes = [] ∧ (c.recv len).rest = c) ∨
    (0 < c.cut c.received ∧ ∃ n, 0 < n ∧ n ≤ len ∧ n ≤ c.pending.length ∧
      c.recv len = ⟨n, c.pending.take n, c.advance n⟩) := by
  by_cases hcut : c.cut c.received ≤ 0
  · left
    simp [recv, hcut]
  · have hgot : c.recv len = ⟨(min (min (c.cut c.received).toNat len) c.pending.length : Nat),
        c.pending.take (min (min (c.cut c.received).toNat len) c.pending.length),
        c.advance (min (min (c.cut c.received).toNat len) c.pending.length)⟩ := by
      simp [recv, hcut]
    rcases Nat.eq_zero_or_pos (min (min (c.cut c.received).toNat len) c.pending.length)
      with h0 | hpos
    · left
      rw [hgot, h0]
      simp
    · right
      exact ⟨by omega, _, hpos, by omega, by omega, hgot⟩

/-- A receive that is not cut delivers everything asked for. -/
theorem recv_whole {len : Nat} {c : Inbound} (hlen : 0 < len) (hcut : len ≤ c.cut c.received)
    (hpend : len ≤ c.pending.length) :
    c.recv len = ⟨len, c.pending.take len, c.advance len⟩ := by
  have hpos : ¬ c.cut c.received ≤ 0 := by omega
  have hmin : min (c.cut c.received).toNat len = len := by omega
  simp [recv, hpos, hmin, hpend]

/-- A receive that returns the length asked for delivered exactly the next bytes. -/
theorem recv_eq_of_count {len : Nat} {c : Inbound} (hlen : 0 < len)
    (h : (c.recv len).count = len) :
    len ≤ c.cut c.received ∧ len ≤ c.pending.length ∧
      c.recv len = ⟨len, c.pending.take len, c.advance len⟩ := by
  by_cases hcut : c.cut c.received ≤ 0
  · simp [recv, hcut] at h
    omega
  · have hmin : min (min (c.cut c.received).toNat len) c.pending.length = len := by
      have hcnt : (c.recv len).count =
          (min (min (c.cut c.received).toNat len) c.pending.length : Nat) := by
        simp [recv, hcut]
      omega
    refine ⟨by omega, by omega, ?_⟩
    exact recv_whole hlen (by omega) (by omega)

/-- The loop `while (need != got) { r = recv(..., need - got); if (r <= 0) fail; got += r; }`.
Each round delivers at least one byte, so `need` rounds are enough. -/
def recvLoop : Nat → Nat → Inbound → Bool × List UInt8 × Inbound
  | _, 0, c => (true, [], c)
  | 0, _ + 1, c => (false, [], c)
  | fuel + 1, need + 1, c =>
      let r := c.recv (need + 1)
      if r.count ≤ 0 then (false, [], r.rest)
      else
        let (ok, more, c') := recvLoop fuel (need + 1 - r.bytes.length) r.rest
        (ok, r.bytes ++ more, c')

/-- Receive `need` bytes in a loop: whether it succeeded, the bytes, the stream. -/
def recvAll (need : Nat) (c : Inbound) : Bool × List UInt8 × Inbound := recvLoop need need c

/-- Whatever the loop received is the next part of the stream, and no more than asked for. -/
theorem recvLoop_spec (fuel need : Nat) (c : Inbound) :
    ∃ n ≤ need, n ≤ c.pending.length ∧
      (recvLoop fuel need c).2 = (c.pending.take n, c.advance n) ∧
      ((recvLoop fuel need c).1 = true → n = need) := by
  induction fuel generalizing need c with
  | zero =>
      refine ⟨0, Nat.zero_le _, Nat.zero_le _, ?_⟩
      cases need with
      | zero => exact ⟨by simp [recvLoop], fun _ => rfl⟩
      | succ need => exact ⟨by simp [recvLoop], by simp [recvLoop]⟩
  | succ fuel ih =>
      cases need with
      | zero => exact ⟨0, Nat.le_refl 0, Nat.zero_le _, by simp [recvLoop], fun _ => rfl⟩
      | succ need =>
          rcases recv_cases (need + 1) c with ⟨hle, _, hrest⟩ | ⟨_, n, hpos, hn, hpend, hr⟩
          · refine ⟨0, Nat.zero_le _, Nat.zero_le _, ?_, ?_⟩
            · simp [recvLoop, hle, hrest]
            · simp [recvLoop, hle]
          · have hlen : (c.pending.take n).length = n := by
              rw [List.length_take, Nat.min_eq_left hpend]
            have hcnt : ¬ ((n : Int) ≤ 0) := by omega
            obtain ⟨m, hm, hmp, hres, hok⟩ := ih (need + 1 - n) (c.advance n)
            rw [pending_advance, List.length_drop] at hmp
            refine ⟨n + m, by omega, by omega, ?_, ?_⟩
            · simp only [recvLoop, hr, hcnt, if_false, hlen, hres, pending_advance]
              rw [advance_advance, List.take_add]
            · intro h
              simp only [recvLoop, hr, hcnt, if_false, hlen] at h
              have := hok h
              omega

theorem recvAll_spec (need : Nat) (c : Inbound) :
    ∃ n ≤ need, n ≤ c.pending.length ∧
      (recvAll need c).2 = (c.pending.take n, c.advance n) ∧
      ((recvAll need c).1 = true → n = need) :=
  recvLoop_spec need need c

/-- A loop that succeeded received exactly the next `need` bytes. -/
theorem recvAll_of_ok {need : Nat} {c : Inbound} (h : (recvAll need c).1 = true) :
    need ≤ c.pending.length ∧ recvAll need c = (true, c.pending.take need, c.advance need) := by
  obtain ⟨n, _, hp, hres, hok⟩ := recvAll_spec need c
  obtain rfl := hok h
  exact ⟨hp, Prod.ext h hres⟩

/-- Where bytes are to come and the cut is positive, a receive delivers some. -/
theorem recv_delivers {need : Nat} {c : Inbound} (hcut : 0 < c.cut c.received)
    (hpend : need + 1 ≤ c.pending.length) :
    ∃ n, 0 < n ∧ n ≤ need + 1 ∧ n ≤ c.pending.length ∧
      c.recv (need + 1) = ⟨n, c.pending.take n, c.advance n⟩ := by
  rcases recv_cases (need + 1) c with ⟨hle, _, _⟩ | ⟨_, n, hpos, hn, hp, hr⟩
  · exfalso
    have hcount : (c.recv (need + 1)).count =
        (min (min (c.cut c.received).toNat (need + 1)) c.pending.length : Nat) := by
      simp [recv, Int.not_le.mpr hcut]
    omega
  · exact ⟨n, hpos, hn, hp, hr⟩

/-- However the stream is cut, the loop receives the next `need` bytes. -/
theorem recvLoop_ok (fuel need : Nat) (c : Inbound) (hfuel : need ≤ fuel)
    (hcut : ∀ p, c.received ≤ p → p < c.received + need → 0 < c.cut p)
    (hpend : need ≤ c.pending.length) : (recvLoop fuel need c).1 = true := by
  induction fuel generalizing need c with
  | zero =>
      obtain rfl := Nat.le_zero.mp hfuel
      simp [recvLoop]
  | succ fuel ih =>
      cases need with
      | zero => simp [recvLoop]
      | succ need =>
          obtain ⟨n, hpos, hn, hp, hr⟩ :=
            recv_delivers (hcut c.received (Nat.le_refl _) (by omega)) hpend
          have hlen : (c.pending.take n).length = n := by
            rw [List.length_take, Nat.min_eq_left hp]
          have hcnt : ¬ ((n : Int) ≤ 0) := by omega
          simp only [recvLoop, hr, hcnt, if_false, hlen]
          refine ih (need + 1 - n) (c.advance n) (by omega) ?_ ?_
          · intro p h₁ h₂
            rw [received_advance] at h₁ h₂
            exact hcut p (by omega) (by omega)
          · rw [pending_advance, List.length_drop]
            omega

theorem recvAll_ok {need : Nat} {c : Inbound}
    (hcut : ∀ p, c.received ≤ p → p < c.received + need → 0 < c.cut p)
    (hpend : need ≤ c.pending.length) :
    recvAll need c = (true, c.pending.take need, c.advance need) :=
  (recvAll_of_ok (recvLoop_ok need need c (Nat.le_refl _) hcut hpend)).2

end Inbound

/-! ## Sending -/

/-- One send: its return value and the bytes the socket accepted. -/
def send (answer : Int) (buf : List UInt8) : Int × List UInt8 :=
  if answer ≤ 0 then (answer, [])
  else ((buf.take answer.toNat).length, buf.take answer.toNat)

theorem send_failed {answer : Int} (h : answer ≤ 0) (buf : List UInt8) :
    send answer buf = (answer, []) := by
  simp [send, h]

/-- A send that accepts the whole buffer. -/
theorem send_whole {answer : Int} {buf : List UInt8} (hbuf : 0 < buf.length)
    (h : buf.length ≤ answer) : send answer buf = ((buf.length : Int), buf) := by
  have hpos : ¬ answer ≤ 0 := by omega
  have htake : buf.take answer.toNat = buf := List.take_of_length_le (by omega)
  simp [send, hpos, htake]

/-- The accepted bytes are the whole buffer exactly when the answer covers it. -/
theorem send_accepted_eq_iff {answer : Int} {buf : List UInt8} (hbuf : 0 < buf.length) :
    (send answer buf).2 = buf ↔ buf.length ≤ answer := by
  constructor
  · intro h
    by_cases hneg : answer ≤ 0
    · rw [send_failed hneg] at h
      rw [← h] at hbuf
      exact absurd hbuf (Nat.lt_irrefl 0)
    · have hlen := congrArg List.length h
      simp only [send, hneg, if_false, List.length_take] at hlen
      omega
  · intro h
    rw [send_whole hbuf h]

theorem send_nonneg_iff {answer : Int} {buf : List UInt8} :
    0 ≤ (send answer buf).1 ↔ 0 ≤ answer := by
  by_cases h : answer ≤ 0
  · rw [send_failed h]
  · have hpos : 0 ≤ answer := by omega
    simp [send, h, hpos]

/-- A send that does not report a failure has accepted the whole buffer, unless it accepted
nothing and said so with 0, or only a part. -/
theorem send_whole_or_failed_iff {answer : Int} {buf : List UInt8} (hbuf : 0 < buf.length) :
    (0 ≤ (send answer buf).1 → (send answer buf).2 = buf) ↔
      answer < 0 ∨ buf.length ≤ answer := by
  rw [send_nonneg_iff, send_accepted_eq_iff hbuf]
  constructor
  · intro h
    rcases Int.lt_or_le answer 0 with hneg | hnonneg
    · exact Or.inl hneg
    · exact Or.inr (h hnonneg)
  · rintro (hneg | hle) hnonneg
    · exact absurd hneg (Int.not_lt.mpr hnonneg)
    · exact hle

/-- The loop `while (sent != n) { r = send(buf + sent, n - sent); if (r <= 0) fail; sent += r; }`,
its `j`-th call answered by `answer (i + j)`. -/
def sendLoop (answer : Nat → Int) : Nat → Nat → List UInt8 → Bool × List UInt8
  | _, _, [] => (true, [])
  | 0, _, _ :: _ => (false, [])
  | fuel + 1, i, b :: buf =>
      let (n, accepted) := send (answer i) (b :: buf)
      if n ≤ 0 then (false, [])
      else
        let (ok, more) := sendLoop answer fuel (i + 1) ((b :: buf).drop accepted.length)
        (ok, accepted ++ more)

/-- Send a buffer in a loop: whether all of it was accepted, and what was. -/
def sendAll (answer : Nat → Int) (i : Nat) (buf : List UInt8) : Bool × List UInt8 :=
  sendLoop answer buf.length i buf

/-- Some call of the loop fails before `n` bytes have been accepted. -/
def Stalls (answer : Nat → Int) (i n : Nat) : Prop :=
  ∃ j, answer (i + j) ≤ 0 ∧ ((List.range j).map (fun k => (answer (i + k)).toNat)).sum < n

theorem not_stalls_zero {answer : Nat → Int} {i : Nat} : ¬ Stalls answer i 0 := by
  rintro ⟨j, _, h⟩
  exact absurd h (Nat.not_lt_zero _)

/-- What the first calls of a loop accept: the first one, and the others. -/
theorem sum_accepted_succ (answer : Nat → Int) (i j : Nat) :
    ((List.range (j + 1)).map (fun k => (answer (i + k)).toNat)).sum =
      (answer i).toNat + ((List.range j).map (fun k => (answer (i + 1 + k)).toNat)).sum := by
  rw [List.range_succ_eq_map, List.map_cons, List.map_map, List.sum_cons, Nat.add_zero]
  congr 2
  refine List.map_congr_left fun k _ => ?_
  rw [Function.comp_apply, Nat.succ_eq_add_one, Nat.add_assoc, Nat.add_comm 1 k]

/-- One round: the loop stalls at once, or goes on with what is left to send. -/
theorem stalls_succ {answer : Nat → Int} {i n : Nat} (hn : 0 < n) :
    Stalls answer i n ↔
      answer i ≤ 0 ∨ (0 < answer i ∧ (answer i).toNat < n ∧
        Stalls answer (i + 1) (n - (answer i).toNat)) := by
  constructor
  · rintro ⟨j, hj, hsum⟩
    by_cases h0 : answer i ≤ 0
    · exact Or.inl h0
    · right
      cases j with
      | zero => exact absurd hj h0
      | succ j =>
          rw [sum_accepted_succ] at hsum
          refine ⟨Int.not_le.mp h0, by omega, j, ?_, by omega⟩
          rwa [Nat.add_assoc, Nat.add_comm 1 j]
  · rintro (h0 | ⟨_, hlt, j, hj, hsum⟩)
    · exact ⟨0, h0, by simpa using hn⟩
    · refine ⟨j + 1, ?_, ?_⟩
      · rwa [Nat.add_comm j 1, ← Nat.add_assoc]
      · rw [sum_accepted_succ]
        omega

/-- After a call that accepts something, the loop stalls in what is left to send. -/
theorem stalls_after {answer : Nat → Int} {i n : Nat} (hn : 0 < n) (h0 : ¬ answer i ≤ 0) :
    Stalls answer i n ↔ Stalls answer (i + 1) (n - min (answer i).toNat n) := by
  rw [stalls_succ hn]
  constructor
  · rintro (h | ⟨_, hlt, hs⟩)
    · exact absurd h h0
    · rwa [Nat.min_eq_left (by omega)]
  · intro hs
    by_cases hlt : (answer i).toNat < n
    · rw [Nat.min_eq_left (by omega)] at hs
      exact Or.inr ⟨by omega, hlt, hs⟩
    · rw [Nat.min_eq_right (by omega), Nat.sub_self] at hs
      exact absurd hs not_stalls_zero

/-- The loop accepts a prefix of the buffer: all of it when it succeeds, less when it fails;
and it fails exactly when it stalls. -/
theorem sendLoop_spec (answer : Nat → Int) (fuel i : Nat) (buf : List UInt8)
    (hfuel : buf.length ≤ fuel) :
    ((sendLoop answer fuel i buf).1 = true ∧ (sendLoop answer fuel i buf).2 = buf ∧
      ¬ Stalls answer i buf.length) ∨
    ((sendLoop answer fuel i buf).1 = false ∧ (∃ n < buf.length,
      (sendLoop answer fuel i buf).2 = buf.take n) ∧ Stalls answer i buf.length) := by
  induction fuel generalizing i buf with
  | zero =>
      obtain rfl := List.eq_nil_of_length_eq_zero (Nat.le_zero.mp hfuel)
      exact Or.inl ⟨by simp [sendLoop], by simp [sendLoop], not_stalls_zero⟩
  | succ fuel ih =>
      cases buf with
      | nil => exact Or.inl ⟨by simp [sendLoop], by simp [sendLoop], not_stalls_zero⟩
      | cons b buf =>
          have hpos : 0 < (b :: buf).length := by simp
          by_cases h0 : answer i ≤ 0
          · right
            have hres : sendLoop answer (fuel + 1) i (b :: buf) = (false, []) := by
              simp only [sendLoop, send_failed h0, h0, if_true]
            exact ⟨by rw [hres], ⟨0, hpos, by rw [hres]; rfl⟩, (stalls_succ hpos).mpr (Or.inl h0)⟩
          · set acc := (b :: buf).take (answer i).toNat with hacc
            have hacclen : acc.length = min (answer i).toNat (b :: buf).length := by
              rw [hacc, List.length_take]
            have haccpos : ¬ ((acc.length : Int) ≤ 0) := by omega
            have htakeacc : (b :: buf).take acc.length = acc := by
              rw [hacc, List.length_take, ← List.take_eq_take_min]
            have hsplit : acc ++ (b :: buf).drop acc.length = b :: buf := by
              rw [hacclen, hacc, List.take_eq_take_min]
              exact List.take_append_drop _ _
            have hstep : sendLoop answer (fuel + 1) i (b :: buf) =
                ((sendLoop answer fuel (i + 1) ((b :: buf).drop acc.length)).1,
                  acc ++ (sendLoop answer fuel (i + 1) ((b :: buf).drop acc.length)).2) := by
              simp only [sendLoop, send, h0, if_false, ← hacc, haccpos]
            have hdrop : ((b :: buf).drop acc.length).length = (b :: buf).length - acc.length :=
              List.length_drop
            have hrest : Stalls answer i (b :: buf).length ↔
                Stalls answer (i + 1) ((b :: buf).drop acc.length).length := by
              rw [stalls_after hpos h0, hdrop, hacclen]
            rw [hstep, hrest]
            rcases ih (i + 1) ((b :: buf).drop acc.length) (by rw [hdrop]; omega) with
              ⟨hok, hall, hns⟩ | ⟨hok, ⟨n, hn, htake⟩, hs⟩
            · left
              exact ⟨hok, by rw [hall, hsplit], hns⟩
            · right
              refine ⟨hok, ⟨acc.length + n, by rw [hdrop] at hn; omega, ?_⟩, hs⟩
              rw [htake, List.take_add, htakeacc]

theorem sendAll_ok_iff {answer : Nat → Int} {i : Nat} {buf : List UInt8} :
    (sendAll answer i buf).1 = true ↔ ¬ Stalls answer i buf.length := by
  rcases sendLoop_spec answer buf.length i buf (Nat.le_refl _) with ⟨h, _, hs⟩ | ⟨h, _, hs⟩
  · exact ⟨fun _ => hs, fun _ => h⟩
  · exact ⟨fun h' => absurd (h.symm.trans h') (by simp), fun h' => absurd hs h'⟩

/-- Everything was accepted exactly when the loop succeeded. -/
theorem sendAll_ok_iff_accepted {answer : Nat → Int} {i : Nat} {buf : List UInt8} :
    (sendAll answer i buf).1 = true ↔ (sendAll answer i buf).2 = buf := by
  rcases sendLoop_spec answer buf.length i buf (Nat.le_refl _) with
    ⟨h, hall, _⟩ | ⟨h, ⟨n, hn, htake⟩, _⟩
  · exact ⟨fun _ => hall, fun _ => h⟩
  · constructor
    · intro h'
      exact absurd (h.symm.trans h') (by simp)
    · intro h'
      have hlen : (sendAll answer i buf).2.length = n := by
        rw [sendAll, htake, List.length_take]
        omega
      rw [h'] at hlen
      omega

theorem length_sendAll_le (answer : Nat → Int) (i : Nat) (buf : List UInt8) :
    (sendAll answer i buf).2.length ≤ buf.length := by
  rcases sendLoop_spec answer buf.length i buf (Nat.le_refl _) with
    ⟨_, hall, _⟩ | ⟨_, ⟨n, _, htake⟩, _⟩
  · rw [sendAll, hall]
  · rw [sendAll, htake, List.length_take]
    omega

/-- Sends that always accept something get the whole buffer across. -/
theorem sendAll_of_pos {answer : Nat → Int} {i : Nat} (h : ∀ j, 0 < answer (i + j))
    (buf : List UInt8) : sendAll answer i buf = (true, buf) := by
  have hok : (sendAll answer i buf).1 = true :=
    sendAll_ok_iff.mpr fun ⟨j, hj, _⟩ => absurd (h j) (by omega)
  exact Prod.ext hok (sendAll_ok_iff_accepted.mp hok)

end Stream
