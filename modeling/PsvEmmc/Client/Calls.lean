/-
# `PsvEmmc.Client.Calls` — the Winsock calls of a run

`WinsockApi` is all of Winsock that the client uses; the calls on one socket
are the `Winsock` its functions run against.  Over a recorded world a run
leaves the list of its calls, a `send` with the world it was made in, so
that what became of the request can be told from the list.

A request is accepted when it is sent, its response arrives and passes the
check.  A function of the client that sends a request leaves the socket open
exactly when the request was accepted: otherwise the last two calls are
`closesocket` and `WSACleanup`.  The functions that are made of these go on
or return early, so what they leave is a traffic (`Traffic`): accepted
requests, or accepted requests, one that is not, and then anything.
-/
import PsvEmmc.Client
import PsvEmmc.Lib.Ledger

namespace PsvEmmc

open Words Memory

/-! ## Winsock as a whole -/

/-- A `SOCKET` other than `INVALID_SOCKET`. -/
abbrev Socket := Nat

/-- The calls of the client, over addresses `Addr` and a world `σ`. -/
structure WinsockApi (Addr σ : Type) where
  /-- Zero is success. -/
  wsaStartup : σ → Int × σ
  wsaCleanup : σ → σ
  /-- `none` is a result other than zero. -/
  getaddrinfo : σ → Option (List Addr) × σ
  freeaddrinfo : σ → σ
  /-- `none` is `INVALID_SOCKET`. -/
  socket : Addr → σ → Option Socket × σ
  connect : Socket → Addr → σ → Int × σ
  send : Socket → List UInt8 → σ → Int × σ
  /-- `none` is `SOCKET_ERROR`; otherwise no more bytes than asked for. -/
  recv : Socket → (n : Nat) → σ → Option {bytes : List UInt8 // bytes.length ≤ n} × σ
  shutdown : Socket → σ → Int × σ
  closesocket : Socket → σ → σ
  /-- What the stack holds where a response struct is declared. -/
  residue : σ → Mem

variable {Addr σ : Type}

/-- The calls on one socket. -/
def WinsockApi.on (api : WinsockApi Addr σ) (h : Socket) : Winsock σ where
  send := api.send h
  recv n s := ((api.recv h n s).1.map Subtype.val, (api.recv h n s).2)
  closesocket := api.closesocket h
  wsaCleanup := api.wsaCleanup
  residue := api.residue

/-! ## The record -/

/-- A call with what a reader of the record needs of its arguments and its answer. -/
inductive Call (σ : Type) where
  | wsaStartup (answer : Int)
  | wsaCleanup
  | getaddrinfo (found : Bool)
  | freeaddrinfo
  | socket (answer : Option Socket)
  | connect (h : Socket)
  | send (h : Socket) (request : List UInt8) (before : σ)
  | recv (h : Socket)
  | shutdown (h : Socket) (answer : Int)
  | closesocket (h : Socket)

/-- A world and the calls made so far. -/
abbrev Recorded (σ : Type) := σ × List (Call σ)

/-- The same calls, each noted when it is made. -/
def WinsockApi.recorded (api : WinsockApi Addr σ) : WinsockApi Addr (Recorded σ) where
  wsaStartup t :=
    let (iResult, s) := api.wsaStartup t.1
    (iResult, (s, t.2 ++ [.wsaStartup iResult]))
  wsaCleanup t := (api.wsaCleanup t.1, t.2 ++ [.wsaCleanup])
  getaddrinfo t :=
    let (result, s) := api.getaddrinfo t.1
    (result, (s, t.2 ++ [.getaddrinfo result.isSome]))
  freeaddrinfo t := (api.freeaddrinfo t.1, t.2 ++ [.freeaddrinfo])
  socket ptr t :=
    let (answer, s) := api.socket ptr t.1
    (answer, (s, t.2 ++ [.socket answer]))
  connect h ptr t :=
    let (iResult, s) := api.connect h ptr t.1
    (iResult, (s, t.2 ++ [.connect h]))
  send h request t :=
    let (iResult, s) := api.send h request t.1
    (iResult, (s, t.2 ++ [.send h request t.1]))
  recv h n t :=
    let (bytes, s) := api.recv h n t.1
    (bytes, (s, t.2 ++ [.recv h]))
  shutdown h t :=
    let (iResult, s) := api.shutdown h t.1
    (iResult, (s, t.2 ++ [.shutdown h iResult]))
  closesocket h t := (api.closesocket h t.1, t.2 ++ [.closesocket h])
  residue t := api.residue t.1

/-- A call that answered `a` is noted with its answer. -/
theorem calls_of_eq {α : Type} (note : α → Call σ) {r : α × Recorded σ} {calls : List (Call σ)}
    {a : α} {t' : Recorded σ} (hr : r.2.2 = calls ++ [note r.1]) (h : r = (a, t')) :
    t'.2 = calls ++ [note a] := by
  subst h
  exact hr

section recorded

variable (api : WinsockApi Addr σ) (h : Socket) (t : Recorded σ)

theorem recorded_send (request : List UInt8) :
    (api.recorded.on h).send request t =
      (((api.on h).send request t.1).1,
        (((api.on h).send request t.1).2, t.2 ++ [.send h request t.1])) := rfl

theorem recorded_recv (n : Nat) :
    (api.recorded.on h).recv n t =
      (((api.on h).recv n t.1).1, (((api.on h).recv n t.1).2, t.2 ++ [.recv h])) := rfl

theorem recorded_residue : (api.recorded.on h).residue t = (api.on h).residue t.1 := rfl

/-- `closesocket(socket); WSACleanup();` -/
def gaveUp : List (Call σ) := [.closesocket h, .wsaCleanup]

theorem recorded_giveUp :
    (api.recorded.on h).giveUp t = ((api.on h).giveUp t.1, t.2 ++ gaveUp h) :=
  congrArg (Prod.mk _) (List.append_assoc t.2 [.closesocket h] [.wsaCleanup])

/-- An exchange leaves the request, what was received of the response, and the give-up
if a call failed. -/
theorem exchange_recorded (r : Request) (size : Nat) :
    (∃ k s, exchange (api.on h) r size t.1 = (none, s) ∧
      exchange (api.recorded.on h) r size t =
        (none, (s, t.2 ++
          Call.send h r.encode t.1 :: (List.replicate k (Call.recv h) ++ gaveUp h)))) ∨
    ∃ resp s, exchange (api.on h) r size t.1 = (some resp, s) ∧
      exchange (api.recorded.on h) r size t =
        (some resp, (s, t.2 ++ Call.send h r.encode t.1 :: List.replicate 1 (Call.recv h))) := by
  unfold exchange
  simp only [recorded_send, recorded_recv, recorded_residue, recorded_giveUp]
  by_cases hsend : ((api.on h).send r.encode t.1).1 = socketError
  · refine Or.inl ⟨0, _, if_pos hsend, ?_⟩
    rw [if_pos hsend, List.append_assoc]
    rfl
  · rw [if_neg hsend, if_neg hsend]
    cases (api.on h).recv size ((api.on h).send r.encode t.1).2 with
    | mk answer s =>
        cases answer with
        | none =>
            refine Or.inl ⟨1, _, rfl, ?_⟩
            simp only [List.append_assoc]
            rfl
        | some bytes =>
            refine Or.inr ⟨_, _, rfl, ?_⟩
            simp only [List.append_assoc]
            rfl

/-- The receive loop, when it ends, has all the bytes or gives up. -/
theorem recvLoop_recorded (fuel n : Nat) {r : Option (List UInt8) × Recorded σ}
    (hr : recvLoop (api.recorded.on h) fuel n t = some r) :
    (∃ k s, recvLoop (api.on h) fuel n t.1 = some (none, s) ∧
      r = (none, (s, t.2 ++ (List.replicate k (.recv h) ++ gaveUp h)))) ∨
    ∃ k bytes s, recvLoop (api.on h) fuel n t.1 = some (some bytes, s) ∧ bytes.length = n ∧
      r = (some bytes, (s, t.2 ++ List.replicate k (.recv h))) := by
  induction fuel generalizing n t r with
  | zero =>
      cases n with
      | zero =>
          obtain rfl := Option.some.inj hr
          exact Or.inr ⟨0, [], t.1, rfl, rfl, by rw [List.replicate_zero, List.append_nil]⟩
      | succ n => cases hr
  | succ fuel ih =>
      cases n with
      | zero =>
          obtain rfl := Option.some.inj hr
          exact Or.inr ⟨0, [], t.1, rfl, rfl, by rw [List.replicate_zero, List.append_nil]⟩
      | succ n =>
          have hlen : ∀ bytes ∈ ((api.on h).recv (n + 1) t.1).1, bytes.length ≤ n + 1 := by
            intro bytes hbytes
            obtain ⟨⟨_, hle⟩, _, rfl⟩ := Option.map_eq_some_iff.mp hbytes
            exact hle
          unfold recvLoop at hr ⊢
          rw [recorded_recv] at hr
          cases hanswer : (api.on h).recv (n + 1) t.1 with
          | mk answer s =>
              rw [hanswer] at hr hlen
              cases answer with
              | none =>
                  obtain rfl := Option.some.inj hr
                  refine Or.inl ⟨1, _, rfl, ?_⟩
                  simp only [recorded_giveUp, List.append_assoc]
                  rfl
              | some bytes =>
                  have hle := hlen bytes rfl
                  dsimp only at hr ⊢
                  cases hrest : recvLoop (api.recorded.on h) fuel (n + 1 - bytes.length)
                      (s, t.2 ++ [.recv h]) with
                  | none =>
                      rw [hrest] at hr
                      cases hr
                  | some rest =>
                      rw [hrest] at hr
                      rcases ih _ _ hrest with ⟨k, s', hplain, rfl⟩ | ⟨k, more, s', hplain, hmore, rfl⟩
                      · obtain rfl := Option.some.inj hr
                        refine Or.inl ⟨k + 1, s', by rw [hplain], ?_⟩
                        rw [List.append_assoc]
                        rfl
                      · obtain rfl := Option.some.inj hr
                        refine Or.inr ⟨k + 1, bytes ++ more, s', by rw [hplain], ?_, ?_⟩
                        · rw [List.length_append, hmore]
                          omega
                        · rw [List.append_assoc]
                          rfl

end recorded

/-- A network with one address, on which every call succeeds as long as there are responses. -/
def replay : WinsockApi Unit (List (List UInt8)) where
  wsaStartup s := (0, s)
  wsaCleanup := id
  getaddrinfo s := (some [()], s)
  freeaddrinfo := id
  socket _ s := (some 3, s)
  connect _ _ s := (0, s)
  send _ request s := (request.length, s)
  recv _ n s :=
    match s with
    | [] => (none, [])
    | resp :: rest => (some ⟨resp.take n, List.length_take_le n resp⟩, rest)
  shutdown _ s := (0, s)
  closesocket _ := id
  residue _ _ := 0

/-! ## Accepted requests -/

/-- `clusterData.size()` in `dump_partition`. -/
def clusterDataBytes : Nat := (sdDefaultSectorSize * sectorsPerCluster).toUInt32.toNat

/-- A request that meets no failure: it is sent, its response arrives and passes the check. -/
def Accepted (w : Winsock σ) (fuel : Nat) (r : Request) (s : σ) : Prop :=
  match r.command with
  | .readSector dev =>
      (w.send r.encode s).1 ≠ socketError ∧
        ∃ resp s', recvLoop w fuel (12 + 0x200) (w.send r.encode s).2 = some (some resp, s') ∧
          (CommandResponseBase.decode resp).rejectsRead (.readSector dev) = false
  | .readCluster dev =>
      ∃ resp s', exchange w r 12 s = (some resp, s') ∧
        (∃ data s'', recvLoop w fuel clusterDataBytes s' = some (some data, s'')) ∧
          (CommandResponseBase.decode resp).rejectsRead (.readCluster dev) = false
  | .ping =>
      ∃ resp s', exchange w r 22 s = (some resp, s') ∧
        (CommandResponseBase.decode resp).rejects .ping = false
  | c =>
      ∃ resp s', exchange w r 12 s = (some resp, s') ∧
        (CommandResponseBase.decode resp).rejects c = false

/-- From `t` to `t'` the client sent `r` and received; it gave up unless the request was
accepted. -/
def Asked (api : WinsockApi Addr σ) (fuel : Nat) (h : Socket) (r : Request) (ok : Bool)
    (t t' : Recorded σ) : Prop :=
  (ok = true ↔ Accepted (api.on h) fuel r t.1) ∧
    ∃ k, t'.2 = t.2 ++ .send h r.encode t.1 ::
      (List.replicate k (.recv h) ++ if ok then [] else gaveUp h)

section requests

variable {api : WinsockApi Addr σ} {h : Socket} {fuel : Nat} {t t' : Recorded σ}

/-- A response in one receive that does not come. -/
theorem asked_of_exchange_none {r : Request} {size : Nat} {c : Command}
    (hacc : Accepted (api.on h) fuel r t.1 ↔
      ∃ resp s, exchange (api.on h) r size t.1 = (some resp, s) ∧
        (CommandResponseBase.decode resp).rejects c = false)
    (hcall : exchange (api.recorded.on h) r size t = (none, t')) :
    Asked api fuel h r false t t' := by
  rcases exchange_recorded api h t r size with ⟨k, s, hplain, hrec⟩ | ⟨resp, s, hplain, hrec⟩
  · obtain ⟨_, rfl⟩ := Prod.mk.inj (hrec.symm.trans hcall)
    refine ⟨?_, k, rfl⟩
    rw [hacc, hplain]
    exact iff_of_false Bool.false_ne_true (fun ⟨_, _, he, _⟩ => by cases he)
  · cases hrec.symm.trans hcall

/-- A response in one receive that comes and is checked. -/
theorem asked_of_exchange_some {r : Request} {size : Nat} {c : Command} {resp : List UInt8}
    (hacc : Accepted (api.on h) fuel r t.1 ↔
      ∃ resp s, exchange (api.on h) r size t.1 = (some resp, s) ∧
        (CommandResponseBase.decode resp).rejects c = false)
    (hcall : exchange (api.recorded.on h) r size t = (some resp, t')) :
    if (CommandResponseBase.decode resp).rejects c then
      Asked api fuel h r false t ((api.recorded.on h).giveUp t')
    else Asked api fuel h r true t t' := by
  rcases exchange_recorded api h t r size with ⟨k, s, hplain, hrec⟩ | ⟨resp', s, hplain, hrec⟩
  · cases hrec.symm.trans hcall
  · obtain ⟨hresp, rfl⟩ := Prod.mk.inj (hrec.symm.trans hcall)
    obtain rfl := Option.some.inj hresp
    have haccepted : Accepted (api.on h) fuel r t.1 ↔
        (CommandResponseBase.decode resp').rejects c = false := by
      rw [hacc, hplain]
      constructor
      · rintro ⟨_, _, he, hrej⟩
        cases he
        exact hrej
      · exact fun hrej => ⟨resp', s, rfl, hrej⟩
    cases hrej : (CommandResponseBase.decode resp').rejects c with
    | true =>
        refine ⟨by simp [haccepted, hrej], 1, ?_⟩
        rw [recorded_giveUp, List.append_assoc]
        rfl
    | false => exact ⟨by simp [haccepted, hrej], 1, rfl⟩

variable (fuel) in
/-- A ping that succeeds was accepted. -/
theorem emmcPing_asked {ret : Int} (hcall : emmcPing (api.recorded.on h) t = (ret, t')) :
    ∃ ok, Asked api fuel h .ping ok t t' ∧ (0 ≤ ret → ok = true) := by
  unfold emmcPing at hcall
  split at hcall
  · rename_i hexch
    cases hcall
    exact ⟨false, asked_of_exchange_none Iff.rfl hexch, by decide⟩
  · rename_i hexch
    have hasked := asked_of_exchange_some (c := .ping)
      (Iff.rfl : Accepted (api.on h) fuel .ping t.1 ↔ _) hexch
    split at hcall
    · rename_i hrej
      cases hcall
      rw [if_pos hrej] at hasked
      exact ⟨false, hasked, by decide⟩
    · rename_i hrej
      rw [if_neg hrej] at hasked
      split at hcall
      · obtain ⟨rfl, rfl⟩ := Prod.mk.inj hcall
        exact ⟨true, hasked, fun _ => rfl⟩
      · obtain ⟨rfl, rfl⟩ := Prod.mk.inj hcall
        exact ⟨true, hasked, fun _ => rfl⟩

/-- INIT and DEINIT succeed when they are accepted. -/
theorem exchange_asked {r : Request} {c : Command} {ret : Int}
    (hacc : Accepted (api.on h) fuel r t.1 ↔
      ∃ resp s, exchange (api.on h) r 12 t.1 = (some resp, s) ∧
        (CommandResponseBase.decode resp).rejects c = false)
    (hnone : ∀ s, exchange (api.recorded.on h) r 12 t = (none, s) → (ret, t') = (-1, s))
    (hsome : ∀ resp s, exchange (api.recorded.on h) r 12 t = (some resp, s) →
      (ret, t') = if (CommandResponseBase.decode resp).rejects c then
        (-1, (api.recorded.on h).giveUp s) else (0, s)) :
    ∃ ok, Asked api fuel h r ok t t' ∧ (ok = true ↔ 0 ≤ ret) := by
  cases hexch : exchange (api.recorded.on h) r 12 t with
  | mk answer s =>
      cases answer with
      | none =>
          cases hnone s hexch
          exact ⟨false, asked_of_exchange_none hacc hexch, by decide⟩
      | some resp =>
          have hasked := asked_of_exchange_some hacc hexch
          have hcall := hsome resp s hexch
          split at hasked
          · rename_i hrej
            rw [if_pos hrej] at hcall
            cases hcall
            exact ⟨false, hasked, by decide⟩
          · rename_i hrej
            rw [if_neg hrej] at hcall
            cases hcall
            exact ⟨true, hasked, by decide⟩

variable (fuel) in
theorem emmcInit_asked {a b : Int32} {ret : Int}
    (hcall : emmcInit (api.recorded.on h) a b t = (ret, t')) :
    ∃ ok, Asked api fuel h (.init a b) ok t t' ∧ (ok = true ↔ 0 ≤ ret) := by
  refine exchange_asked (c := .init) Iff.rfl ?_ ?_
  · intro s hexch
    rw [← hcall, emmcInit, hexch]
  · intro resp s hexch
    rw [← hcall, emmcInit, hexch]

variable (fuel) in
theorem emmcDeinit_asked {ret : Int}
    (hcall : emmcDeinit (api.recorded.on h) t = (ret, t')) :
    ∃ ok, Asked api fuel h .deinit ok t t' ∧ (ok = true ↔ 0 ≤ ret) := by
  refine exchange_asked (c := .deinit) Iff.rfl ?_ ?_
  · intro s hexch
    rw [← hcall, emmcDeinit, hexch]
  · intro resp s hexch
    rw [← hcall, emmcDeinit, hexch]

/-- A sector comes whole or not at all. -/
theorem emmcReadSectorOn_asked {dev : Device} {sector : Int32} {ret : Int} {data : List UInt8}
    (hcall : emmcReadSectorOn dev (api.recorded.on h) fuel sector t = some (ret, data, t')) :
    ∃ ok, Asked api fuel h (.readSector dev sector) ok t t' ∧ (ok = true ↔ 0 ≤ ret) ∧
      (ok = true → data.length = 0x200) := by
  have hacc : Accepted (api.on h) fuel (.readSector dev sector) t.1 ↔
      ((api.on h).send (Request.readSector dev sector).encode t.1).1 ≠ socketError ∧
        ∃ resp s', recvLoop (api.on h) fuel (12 + 0x200)
            ((api.on h).send (Request.readSector dev sector).encode t.1).2 = some (some resp, s') ∧
          (CommandResponseBase.decode resp).rejectsRead (.readSector dev) = false := Iff.rfl
  unfold emmcReadSectorOn at hcall
  rw [recorded_send] at hcall
  dsimp only at hcall
  split at hcall
  · rename_i hsend
    simp only [recorded_giveUp, List.append_assoc] at hcall
    cases hcall
    refine ⟨false, ⟨?_, 0, rfl⟩, by decide, by decide⟩
    rw [hacc]
    exact iff_of_false Bool.false_ne_true (fun ⟨hne, _⟩ => hne hsend)
  · rename_i hsend
    split at hcall
    · cases hcall
    · rename_i hloop
      cases hcall
      rcases recvLoop_recorded api h _ _ _ hloop with ⟨k, s, hplain, he⟩ | ⟨_, _, _, _, _, he⟩
      · obtain ⟨_, rfl⟩ := Prod.mk.inj he
        refine ⟨false, ⟨?_, k, ?_⟩, by decide, by decide⟩
        · rw [hacc, hplain]
          exact iff_of_false Bool.false_ne_true (fun ⟨_, _, _, he, _⟩ => by cases he)
        · exact List.append_assoc _ _ _
      · cases he
    · rename_i resp _ hloop
      rcases recvLoop_recorded api h _ _ _ hloop with ⟨_, _, _, he⟩ | ⟨k, _, s, hplain, hlen, he⟩
      · cases he
      · cases he
        have haccepted : Accepted (api.on h) fuel (.readSector dev sector) t.1 ↔
            (CommandResponseBase.decode resp).rejectsRead (.readSector dev) = false := by
          rw [hacc, hplain]
          constructor
          · rintro ⟨_, _, _, he, hrej⟩
            cases he
            exact hrej
          · exact fun hrej => ⟨hsend, resp, s, rfl, hrej⟩
        split at hcall
        · rename_i hrej
          cases hcall
          refine ⟨false, ⟨by simp [haccepted, hrej], k, ?_⟩, by decide, by decide⟩
          simp only [recorded_giveUp, List.append_assoc]
          rfl
        · rename_i hrej
          cases hcall
          refine ⟨true, ⟨by simp [haccepted, hrej], k, ?_⟩, by decide, ?_⟩
          · simp only [List.append_assoc]
            simp
          · intro _
            rw [List.length_drop, hlen]

/-- A cluster comes whole or not at all. -/
theorem emmcReadClusterOn_asked {dev : Device} {cluster : Int32} {ret : Int} {data : List UInt8}
    (hcall : emmcReadClusterOn dev (api.recorded.on h) fuel cluster clusterDataBytes t =
      some (ret, data, t')) :
    ∃ ok, Asked api fuel h (.readCluster dev cluster) ok t t' ∧ (ok = true ↔ 0 ≤ ret) ∧
      (ok = true → data.length = clusterDataBytes) := by
  have hacc : Accepted (api.on h) fuel (.readCluster dev cluster) t.1 ↔
      ∃ resp s', exchange (api.on h) (.readCluster dev cluster) 12 t.1 = (some resp, s') ∧
        (∃ data s'', recvLoop (api.on h) fuel clusterDataBytes s' = some (some data, s'')) ∧
          (CommandResponseBase.decode resp).rejectsRead (.readCluster dev) = false := Iff.rfl
  unfold emmcReadClusterOn at hcall
  rcases exchange_recorded api h t (.readCluster dev cluster) 12 with
    ⟨k, s, hplain, hrec⟩ | ⟨resp, s, hplain, hrec⟩
  · rw [hrec] at hcall
    cases hcall
    refine ⟨false, ⟨?_, k, rfl⟩, by decide, by decide⟩
    rw [hacc, hplain]
    exact iff_of_false Bool.false_ne_true (fun ⟨_, _, he, _⟩ => by cases he)
  · rw [hrec] at hcall
    dsimp only at hcall
    split at hcall
    · cases hcall
    · rename_i hloop
      cases hcall
      rcases recvLoop_recorded api h _ _ _ hloop with ⟨k, s', hdata, he⟩ | ⟨_, _, _, _, _, he⟩
      · cases he
        refine ⟨false, ⟨?_, 1 + k, ?_⟩, by decide, by decide⟩
        · rw [hacc, hplain]
          refine iff_of_false Bool.false_ne_true ?_
          rintro ⟨_, _, he, ⟨_, _, hall⟩, _⟩
          cases he
          cases hdata.symm.trans hall
        · rw [List.append_assoc, List.cons_append, ← List.append_assoc (List.replicate 1 _),
            List.replicate_append_replicate]
          rfl
      · cases he
    · rename_i bytes _ hloop
      rcases recvLoop_recorded api h _ _ _ hloop with ⟨_, _, _, he⟩ | ⟨k, _, s', hdata, hlen, he⟩
      · cases he
      · cases he
        have haccepted : Accepted (api.on h) fuel (.readCluster dev cluster) t.1 ↔
            (CommandResponseBase.decode resp).rejectsRead (.readCluster dev) = false := by
          rw [hacc, hplain]
          constructor
          · rintro ⟨_, _, he, _, hrej⟩
            cases he
            exact hrej
          · exact fun hrej => ⟨resp, s, rfl, ⟨bytes, s', hdata⟩, hrej⟩
        have hcalls : t.2 ++ .send h (Request.readCluster dev cluster).encode t.1 ::
            List.replicate 1 (.recv h) ++ List.replicate k (.recv h) =
              t.2 ++ .send h (Request.readCluster dev cluster).encode t.1 ::
                List.replicate (1 + k) (.recv h) := by
          rw [List.append_assoc, List.cons_append, List.replicate_append_replicate]
        split at hcall
        · rename_i hrej
          cases hcall
          refine ⟨false, ⟨by simp [haccepted, hrej], 1 + k, ?_⟩, by decide,
            fun hok => absurd hok Bool.false_ne_true⟩
          rw [recorded_giveUp]
          dsimp only
          rw [hcalls, List.append_assoc]
          rfl
        · rename_i hrej
          cases hcall
          refine ⟨true, ⟨by simp [haccepted, hrej], 1 + k, ?_⟩, by decide, fun _ => hlen⟩
          dsimp only
          rw [hcalls, if_pos rfl, List.append_nil]

end requests

/-! ## Traffic -/

/-- A call on `h` that sends a request of `P`, if any. -/
def Call.On (h : Socket) (P : Request → Prop) : Call σ → Prop
  | .send h' request _ => h' = h ∧ ∃ r, P r ∧ request = r.encode
  | .recv h' => h' = h
  | .closesocket h' => h' = h
  | .wsaCleanup => True
  | _ => False

/-- A call on `h` that sends an accepted request, or receives. -/
def Call.Serves (api : WinsockApi Addr σ) (fuel : Nat) (h : Socket) (P : Request → Prop) :
    Call σ → Prop
  | .send h' request before =>
      h' = h ∧ ∃ r, P r ∧ request = r.encode ∧ Accepted (api.on h) fuel r before
  | .recv h' => h' = h
  | _ => False

theorem Call.Serves.on {api : WinsockApi Addr σ} {fuel : Nat} {h : Socket} {P : Request → Prop}
    {c : Call σ} (hc : c.Serves api fuel h P) : c.On h P := by
  cases c with
  | send h' request before =>
      obtain ⟨hh, r, hP, hr, _⟩ := hc
      exact ⟨hh, r, hP, hr⟩
  | recv h' => exact hc
  | _ => exact hc.elim

/-- Accepted requests only, or accepted requests, one that is not, the give-up, and then
whatever the callers that do not look at the result go on to do. -/
inductive Traffic (api : WinsockApi Addr σ) (fuel : Nat) (h : Socket) (P : Request → Prop) :
    Bool → List (Call σ) → Prop
  | served {new : List (Call σ)} : (∀ c ∈ new, c.Serves api fuel h P) →
      Traffic api fuel h P true new
  | broken {before rest : List (Call σ)} {r : Request} {s : σ} {k : Nat} :
      (∀ c ∈ before, c.Serves api fuel h P) → P r → ¬ Accepted (api.on h) fuel r s →
      (∀ c ∈ rest, c.On h P) →
      Traffic api fuel h P false
        (before ++ .send h r.encode s :: (List.replicate k (.recv h) ++ gaveUp h ++ rest))

section traffic

variable {api : WinsockApi Addr σ} {fuel : Nat} {h : Socket} {P Q : Request → Prop}
  {ok ok' : Bool} {new new' : List (Call σ)}

theorem Traffic.on (ht : Traffic api fuel h P ok new) : ∀ c ∈ new, c.On h P := by
  cases ht with
  | served hall => exact fun c hc => (hall c hc).on
  | @broken before rest r s k hbefore hr _ hrest =>
      have hreceived : ∀ c ∈ List.replicate k (Call.recv (σ := σ) h), c.On h P := by
        intro c hc
        rw [List.eq_of_mem_replicate hc]
        exact rfl
      have hgaveUp : ∀ c ∈ gaveUp (σ := σ) h, c.On h P := by
        intro c hc
        rcases List.mem_pair.mp hc with rfl | rfl
        · exact rfl
        · trivial
      intro c hc
      simp only [List.mem_append, List.mem_cons] at hc
      rcases hc with hc | rfl | (hc | hc) | hc
      · exact (hbefore c hc).on
      · exact ⟨rfl, r, hr, rfl⟩
      · exact hreceived c hc
      · exact hgaveUp c hc
      · exact hrest c hc

/-- What comes after is served, too, or the first request that is not accepted is in it. -/
theorem Traffic.append (ht : Traffic api fuel h P ok new) (ht' : Traffic api fuel h P ok' new') :
    Traffic api fuel h P (ok && ok') (new ++ new') := by
  cases ht with
  | served hall =>
      cases ht' with
      | served hall' => exact .served (List.forall_mem_append.mpr ⟨hall, hall'⟩)
      | broken hbefore hr hrej hrest =>
          rw [Bool.true_and, ← List.append_assoc]
          exact .broken (List.forall_mem_append.mpr ⟨hall, hbefore⟩) hr hrej hrest
  | broken hbefore hr hrej hrest =>
      rw [Bool.false_and, List.append_assoc, List.cons_append, List.append_assoc]
      exact .broken hbefore hr hrej (List.forall_mem_append.mpr ⟨hrest, ht'.on⟩)

/-- From `t` to `t'` a function of the client made some traffic on `h`.  Where its result is
`good` the traffic was served, and where the result tells all (`sure`) the converse holds. -/
def Reports (api : WinsockApi Addr σ) (fuel : Nat) (h : Socket) (P : Request → Prop)
    (sure good : Prop) (t t' : Recorded σ) : Prop :=
  ∃ ok new, t'.2 = t.2 ++ new ∧ Traffic api fuel h P ok new ∧ (good → ok = true) ∧
    (sure → ok = true → good)

variable {sure good good' : Prop} {t t' t'' : Recorded σ}

theorem Reports.refl (hgood : sure → good) : Reports api fuel h P sure good t t :=
  ⟨true, [], (List.append_nil t.2).symm, .served (fun _ hc => absurd hc List.not_mem_nil),
    fun _ => rfl, fun hs _ => hgood hs⟩

theorem Reports.trans (hr : Reports api fuel h P sure good t t')
    (hr' : Reports api fuel h P sure good' t' t'') :
    Reports api fuel h P sure (good ∧ good') t t'' := by
  obtain ⟨ok, new, hnew, htraffic, hok, hsure⟩ := hr
  obtain ⟨ok', new', hnew', htraffic', hok', hsure'⟩ := hr'
  refine ⟨ok && ok', new ++ new', ?_, htraffic.append htraffic', ?_, ?_⟩
  · rw [hnew', hnew, List.append_assoc]
  · rintro ⟨hg, hg'⟩
    rw [hok hg, hok' hg', Bool.and_true]
  · intro hs hboth
    obtain ⟨ho, ho'⟩ := Bool.and_eq_true_iff.mp hboth
    exact ⟨hsure hs ho, hsure' hs ho'⟩

theorem Reports.congr (hr : Reports api fuel h P sure good t t') (hiff : good ↔ good') :
    Reports api fuel h P sure good' t t' := by
  rwa [propext hiff] at hr

theorem Reports.weaken {sure' : Prop} (hr : Reports api fuel h P sure good t t')
    (himp : sure' → sure) : Reports api fuel h P sure' good t t' := by
  obtain ⟨ok, new, hnew, htraffic, hok, hsure⟩ := hr
  exact ⟨ok, new, hnew, htraffic, hok, fun hs => hsure (himp hs)⟩

/-- A stronger result tells all where it is given. -/
theorem Reports.of_imp (hr : Reports api fuel h P sure good t t') (himp : good' → good) :
    Reports api fuel h P good' good' t t' := by
  obtain ⟨ok, new, hnew, htraffic, hok, _⟩ := hr
  exact ⟨ok, new, hnew, htraffic, fun hg => hok (himp hg), fun hg _ => hg⟩

/-- Every new call is one on the socket. -/
theorem Reports.on (hr : Reports api fuel h P sure good t t') :
    ∀ c ∈ t'.2, c ∈ t.2 ∨ c.On h P := by
  obtain ⟨_, new, hnew, htraffic, _⟩ := hr
  intro c hc
  rw [hnew, List.mem_append] at hc
  exact hc.imp id (htraffic.on c)

/-- One request. -/
theorem Asked.reports {r : Request} (ha : Asked api fuel h r ok t t') (hr : P r)
    (hgood : good → ok = true) (hsure : sure → ok = true → good) :
    Reports api fuel h P sure good t t' := by
  obtain ⟨hacc, k, hcalls⟩ := ha
  refine ⟨ok, _, hcalls, ?_, hgood, hsure⟩
  cases ok with
  | true =>
      refine .served ?_
      intro c hc
      rw [if_pos rfl, List.append_nil] at hc
      rcases List.mem_cons.mp hc with rfl | hc
      · exact ⟨rfl, r, hr, rfl, hacc.mp rfl⟩
      · rw [List.eq_of_mem_replicate hc]
        exact rfl
  | false =>
      have hrej : ¬ Accepted (api.on h) fuel r t.1 :=
        fun h => absurd (hacc.mpr h) Bool.false_ne_true
      have hnothing : ∀ p : Call σ → Prop, ∀ c ∈ [], p c :=
        fun _ _ hc => absurd hc List.not_mem_nil
      have hbroken : Traffic api fuel h P false
          ([] ++ Call.send h r.encode t.1 ::
            (List.replicate k (Call.recv h) ++ gaveUp h ++ [])) :=
        .broken (hnothing _) hr hrej (hnothing _)
      rwa [List.append_nil] at hbroken

/-! ## The client's functions -/

/-- One of the three dump modes. -/
def KnownMode (dumpMode : Int32) : Prop := ∃ dev : Device, dumpMode = dev.dumpMode

theorem toInt_of_unknown {dumpMode : Int32} (hmode : ¬ KnownMode dumpMode) :
    dumpMode.toInt ≠ 0 ∧ dumpMode.toInt ≠ 1 ∧ dumpMode.toInt ≠ 2 :=
  ⟨fun h0 => hmode ⟨.emmc, Int32.toInt_inj.mp h0⟩, fun h1 => hmode ⟨.ms, Int32.toInt_inj.mp h1⟩,
    fun h2 => hmode ⟨.gc, Int32.toInt_inj.mp h2⟩⟩

theorem readSectorMode_unknown {w : Winsock σ} {dumpMode : Int32} (hmode : ¬ KnownMode dumpMode)
    (sector : Int32) (s : σ) : readSectorMode w fuel dumpMode sector s = some (-1, [], s) := by
  obtain ⟨hemmc, hms, hgc⟩ := toInt_of_unknown hmode
  unfold readSectorMode
  split
  · contradiction
  · contradiction
  · contradiction
  · rfl

theorem readClusterMode_unknown {w : Winsock σ} {dumpMode : Int32} (hmode : ¬ KnownMode dumpMode)
    (cluster : Int32) (expectedSize : Nat) (s : σ) :
    readClusterMode w fuel dumpMode cluster expectedSize s = some (-1, [], s) := by
  obtain ⟨hemmc, hms, hgc⟩ := toInt_of_unknown hmode
  unfold readClusterMode
  split
  · contradiction
  · contradiction
  · contradiction
  · rfl

/-- A sector read in a known mode tells whether it was accepted; in another it asks nothing. -/
theorem readSectorMode_reports {dumpMode sector : Int32} {ret : Int} {data : List UInt8}
    (hP : ∀ dev, P (.readSector dev sector))
    (hcall : readSectorMode (api.recorded.on h) fuel dumpMode sector t = some (ret, data, t')) :
    Reports api fuel h P (KnownMode dumpMode) (0 ≤ ret) t t' ∧
      (0 ≤ ret → KnownMode dumpMode ∧ data.length = 0x200) := by
  by_cases hmode : KnownMode dumpMode
  · obtain ⟨dev, rfl⟩ := hmode
    rw [readSectorMode_dumpMode] at hcall
    obtain ⟨ok, hasked, hok, hlen⟩ := emmcReadSectorOn_asked hcall
    exact ⟨hasked.reports (hP dev) hok.mpr (fun _ => hok.mp),
      fun hret => ⟨⟨dev, rfl⟩, hlen (hok.mpr hret)⟩⟩
  · rw [readSectorMode_unknown hmode] at hcall
    cases hcall
    exact ⟨.refl (fun hs => absurd hs hmode), fun hret => absurd hret (by decide)⟩

theorem readClusterMode_reports {dumpMode cluster : Int32} {ret : Int} {data : List UInt8}
    (hP : ∀ dev, P (.readCluster dev cluster))
    (hcall : readClusterMode (api.recorded.on h) fuel dumpMode cluster clusterDataBytes t =
      some (ret, data, t')) :
    Reports api fuel h P (KnownMode dumpMode) (0 ≤ ret) t t' ∧
      (0 ≤ ret → data.length = clusterDataBytes) := by
  by_cases hmode : KnownMode dumpMode
  · obtain ⟨dev, rfl⟩ := hmode
    rw [readClusterMode_dumpMode] at hcall
    obtain ⟨ok, hasked, hok, hlen⟩ := emmcReadClusterOn_asked hcall
    exact ⟨hasked.reports (hP dev) hok.mpr (fun _ => hok.mp), fun hret => hlen (hok.mpr hret)⟩
  · rw [readClusterMode_unknown hmode] at hcall
    cases hcall
    exact ⟨.refl (fun hs => absurd hs hmode), by decide⟩

/-- A loop of reads tells what its reads tell, and writes whole pieces only. -/
theorem dumpLoop_reports {read : Int32 → Recorded σ → Option (Int × List UInt8 × Recorded σ)}
    {size : Nat}
    (hread : ∀ {i t ret data t'}, read i t = some (ret, data, t') →
      Reports api fuel h P sure (0 ≤ ret) t t' ∧ (0 ≤ ret → data.length = size))
    {offset : Int32} {i n : Nat} {done : Bool} {written : List UInt8}
    (hloop : dumpLoop read offset i n t = some (done, written, t')) :
    Reports api fuel h P sure (done = true) t t' ∧
      (done = true → written.length = n * size) := by
  induction n generalizing i t done written t' with
  | zero =>
      cases hloop
      exact ⟨.refl (fun _ => rfl), fun _ => (Nat.zero_mul size).symm⟩
  | succ n ih =>
      unfold dumpLoop at hloop
      split at hloop
      · cases hloop
      · rename_i ret data t₁ hfirst
        obtain ⟨hreports, hlen⟩ := hread hfirst
        split at hloop
        · rename_i hret
          cases hloop
          refine ⟨hreports.congr (iff_of_false ?_ Bool.false_ne_true), fun hdone => absurd hdone
            Bool.false_ne_true⟩
          omega
        · rename_i hret
          have hret : 0 ≤ ret := by omega
          split at hloop
          · cases hloop
          · rename_i hrest
            cases hloop
            obtain ⟨hreports', hlen'⟩ := ih hrest
            refine ⟨(hreports.trans hreports').congr (and_iff_right hret), ?_⟩
            intro hdone
            rw [List.length_append, hlen hret, hlen' hdone, Nat.succ_mul, Nat.add_comm]

/-- The whole clusters of a partition and the sectors that are left are its sectors. -/
theorem partition_length (partitionSize : UInt32) :
    (partitionSize / sectorsPerCluster.toUInt32).toInt32.toUInt32.toNat * clusterDataBytes +
        (partitionSize % sectorsPerCluster.toUInt32).toInt32.toUInt32.toNat * 0x200 =
      0x200 * partitionSize.toNat := by
  have hbytes : clusterDataBytes = 8 * 0x200 := by decide
  have h8 : sectorsPerCluster.toUInt32.toNat = 8 := rfl
  rw [UInt32.toUInt32_toInt32, UInt32.toUInt32_toInt32, UInt32.toNat_div, UInt32.toNat_mod, hbytes,
    h8]
  omega

/-- A dump that reports no error was served throughout and wrote the whole partition. -/
theorem dumpPartition_reports {dumpMode : Int32} {partition : PartitionEntry}
    {d : Dump (Recorded σ)}
    (hcall : dumpPartition (api.recorded.on h) fuel dumpMode partition t = some d)
    (hP : ∀ r, P r) :
    Reports api fuel h P (KnownMode dumpMode) (d.ret = none) t d.world ∧
      (d.ret = none → d.written.length = 0x200 * partition.partitionSize.toNat) := by
  unfold dumpPartition at hcall
  split at hcall
  rename_i iResult t₁ hinit
  obtain ⟨ok₁, hasked, hok⟩ := emmcInit_asked fuel hinit
  have hinit : Reports api fuel h P (KnownMode dumpMode) (0 ≤ iResult) t t₁ :=
    hasked.reports (hP _) hok.mpr (fun _ => hok.mp)
  have hsectors : ∀ {i t ret data t'},
      readSectorMode (api.recorded.on h) fuel dumpMode i t = some (ret, data, t') →
        Reports api fuel h P (KnownMode dumpMode) (0 ≤ ret) t t' ∧
          (0 ≤ ret → data.length = 0x200) := by
    intro i t ret data t' hread
    obtain ⟨hreports, hknown⟩ := readSectorMode_reports (fun _ => hP _) hread
    exact ⟨hreports, fun hret => (hknown hret).2⟩
  have hclusters : ∀ {i t ret data t'},
      readClusterMode (api.recorded.on h) fuel dumpMode i clusterDataBytes t =
        some (ret, data, t') →
        Reports api fuel h P (KnownMode dumpMode) (0 ≤ ret) t t' ∧
          (0 ≤ ret → data.length = clusterDataBytes) :=
    fun hread => readClusterMode_reports (fun _ => hP _) hread
  split at hcall
  · rename_i hret
    cases hcall
    exact ⟨hinit.congr (iff_of_false (by omega) (by simp)), fun hnone => by cases hnone⟩
  · rename_i hret
    have hret : 0 ≤ iResult := by omega
    dsimp only at hcall
    split at hcall
    · cases hcall
    · rename_i hloop
      cases hcall
      obtain ⟨hr₁, _⟩ := dumpLoop_reports hclusters hloop
      exact ⟨(hinit.trans hr₁).congr (iff_of_false (by simp) (by simp)), fun hnone => by cases hnone⟩
    · rename_i hloop
      obtain ⟨hr₁, hlen₁⟩ := dumpLoop_reports hclusters hloop
      split at hcall
      · cases hcall
      · rename_i hloop'
        cases hcall
        obtain ⟨hr₂, _⟩ := dumpLoop_reports hsectors hloop'
        exact ⟨((hinit.trans hr₁).trans hr₂).congr (iff_of_false (by simp) (by simp)),
          fun hnone => by cases hnone⟩
      · rename_i hloop'
        obtain ⟨hr₂, hlen₂⟩ := dumpLoop_reports hsectors hloop'
        generalize hdeinit : emmcDeinit (api.recorded.on h) _ = answer at hcall
        obtain ⟨iResult', t₂⟩ := answer
        dsimp only at hcall
        obtain ⟨ok₂, hasked₂, hok₂⟩ := emmcDeinit_asked fuel hdeinit
        have hdeinit : Reports api fuel h P (KnownMode dumpMode) (0 ≤ iResult') _ t₂ :=
          hasked₂.reports (hP _) hok₂.mpr (fun _ => hok₂.mp)
        have hall := ((hinit.trans hr₁).trans hr₂).trans hdeinit
        split at hcall
        · rename_i hret'
          cases hcall
          refine ⟨hall.congr (iff_of_false ?_ (by simp)), fun hnone => by cases hnone⟩
          rintro ⟨_, hret''⟩
          omega
        · rename_i hret'
          cases hcall
          refine ⟨hall.congr (iff_of_true ⟨⟨⟨hret, rfl⟩, rfl⟩, by omega⟩ rfl), fun _ => ?_⟩
          rw [List.length_append, hlen₁ rfl, hlen₂ rfl]
          exact partition_length partition.partitionSize

end traffic

end PsvEmmc
