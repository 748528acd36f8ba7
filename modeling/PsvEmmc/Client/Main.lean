/-
# `PsvEmmc.Client.Main` — the client's run, its sockets and its exit code

`main` parses the arguments, connects, dumps the device and disconnects.  It
does not look at what `dump_device` returned, so its exit code tells whether
the arguments were good and the connection was made and shut down, and
nothing about the dump (`main_reports_completed_iff`).

The functions that send a request close the socket and Winsock themselves
when it fails, and `main` closes both again.  So over a whole run everything
is released exactly once, and nothing used afterwards, when no request fails
and the loop over the addresses does not return from the middle, where it
leaves the list behind (`winsock_calls_balanced_iff`).
-/
import PsvEmmc.Client.Served

namespace PsvEmmc

open Runs Ledger

variable {Addr σ : Type}

/-! ## The connection -/

/-- The loop over the addresses: `none` when it returns from the function, otherwise
`ConnectSocket`, where `none` is `INVALID_SOCKET`. -/
def connectLoop (api : WinsockApi Addr σ) : List Addr → σ → Option (Option Socket) × σ
  | [], s => (some none, s)
  | ptr :: rest, s =>
      match api.socket ptr s with
      | (none, s) => (none, api.wsaCleanup s)
      | (some connectSocket, s) =>
          match api.connect connectSocket ptr s with
          | (iResult, s) =>
              if iResult = socketError then
                connectLoop api rest (api.closesocket connectSocket s)
              else (some (some connectSocket), s)

/-- `initialize_emmc_proxy_connection`: the connected socket for `0`, `none` for `-1`. -/
def initializeEmmcProxyConnection (api : WinsockApi Addr σ) (s : σ) : Option Socket × σ :=
  match api.wsaStartup s with
  | (iResult, s) =>
      if iResult ≠ 0 then (none, s)
      else
        match api.getaddrinfo s with
        | (none, s) => (none, api.wsaCleanup s)
        | (some result, s) =>
            match connectLoop api result s with
            | (none, s) => (none, s)
            | (some none, s) => (none, api.wsaCleanup (api.freeaddrinfo s))
            | (some (some connectSocket), s) => (some connectSocket, api.freeaddrinfo s)

/-- `deinitialize_emmc_proxy_connection`. -/
def deinitializeEmmcProxyConnection (api : WinsockApi Addr σ) (connectSocket : Socket) (s : σ) :
    Int × σ :=
  match api.shutdown connectSocket s with
  | (iResult, s) =>
      if iResult = socketError then (-1, (api.on connectSocket).giveUp s)
      else (0, (api.on connectSocket).giveUp s)

/-- `WSAStartup` succeeds and `getaddrinfo` finds addresses. -/
def Resolves (api : WinsockApi Addr σ) (s : σ) (result : List Addr) (s' : σ) : Prop :=
  ∃ s₁, api.wsaStartup s = (0, s₁) ∧ api.getaddrinfo s₁ = (some result, s')

/-- The first of the addresses that can be connected to is connected to `h`, and none before it
is refused a socket. -/
inductive Connects (api : WinsockApi Addr σ) : List Addr → σ → Socket → σ → Prop
  | first {ptr : Addr} {rest : List Addr} {h : Socket} {iResult : Int} {s s₁ s₂ : σ} :
      api.socket ptr s = (some h, s₁) → api.connect h ptr s₁ = (iResult, s₂) →
      iResult ≠ socketError → Connects api (ptr :: rest) s h s₂
  | next {ptr : Addr} {rest : List Addr} {h h' : Socket} {s s₁ s₂ s₃ : σ} :
      api.socket ptr s = (some h', s₁) → api.connect h' ptr s₁ = (socketError, s₂) →
      Connects api rest (api.closesocket h' s₂) h s₃ → Connects api (ptr :: rest) s h s₃

/-- No `socket` call up to a connection is refused. -/
def SocketsGranted (api : WinsockApi Addr σ) : List Addr → σ → Prop
  | [], _ => True
  | ptr :: rest, s =>
      ∃ h s₁, api.socket ptr s = (some h, s₁) ∧
        ((api.connect h ptr s₁).1 = socketError →
          SocketsGranted api rest (api.closesocket h (api.connect h ptr s₁).2))

/-- No `socket` call of a run is refused. -/
def Granted (api : WinsockApi Addr σ) (s : σ) : Prop :=
  ∀ result s', Resolves api s result s' → SocketsGranted api result s'

/-- The network connects the client to `h`. -/
def Connected (api : WinsockApi Addr σ) (s : σ) (h : Socket) (s' : σ) : Prop :=
  ∃ result s₁ s₂, Resolves api s result s₁ ∧ Connects api result s₁ h s₂ ∧
    s' = api.freeaddrinfo s₂

section connection

variable {api : WinsockApi Addr σ} {ptrs : List Addr} {h : Socket} {s s' : σ}

theorem connectLoop_connects_iff :
    connectLoop api ptrs s = (some (some h), s') ↔ Connects api ptrs s h s' := by
  constructor
  · intro hloop
    induction ptrs generalizing s with
    | nil => cases hloop
    | cons ptr rest ih =>
        unfold connectLoop at hloop
        split at hloop
        · cases hloop
        · rename_i h' s₁ hsocket
          split at hloop
          rename_i iResult s₂ hconnect
          split at hloop
          · rename_i hfailed
            rw [hfailed] at hconnect
            exact .next hsocket hconnect (ih hloop)
          · rename_i hok
            cases hloop
            exact .first hsocket hconnect hok
  · intro hconnects
    induction hconnects with
    | first hsocket hconnect hok =>
        simp only [connectLoop, hsocket, hconnect]
        exact if_neg hok
    | next hsocket hconnect _ ih =>
        simp only [connectLoop, hsocket, hconnect]
        exact (if_pos trivial).trans ih

/-- The loop returns from the middle exactly when a socket is refused. -/
theorem connectLoop_returns_iff :
    (connectLoop api ptrs s).1 = none ↔ ¬ SocketsGranted api ptrs s := by
  induction ptrs generalizing s with
  | nil => exact iff_of_false (by simp [connectLoop]) (not_not.mpr trivial)
  | cons ptr rest ih =>
      rw [SocketsGranted, connectLoop]
      cases api.socket ptr s with
      | mk answer s₁ =>
          cases answer with
          | none =>
              refine iff_of_true rfl ?_
              rintro ⟨_, _, he, _⟩
              cases he
          | some h =>
              have hgranted : (∃ h' s', (some h, s₁) = (some h', s') ∧
                  ((api.connect h' ptr s').1 = socketError →
                    SocketsGranted api rest
                      (api.closesocket h' (api.connect h' ptr s').2))) ↔
                  ((api.connect h ptr s₁).1 = socketError →
                    SocketsGranted api rest (api.closesocket h (api.connect h ptr s₁).2)) := by
                constructor
                · rintro ⟨_, _, he, hrest⟩
                  cases he
                  exact hrest
                · exact fun hrest => ⟨h, s₁, rfl, hrest⟩
              rw [hgranted]
              dsimp only
              by_cases hfailed : (api.connect h ptr s₁).1 = socketError
              · rw [if_pos hfailed, ih]
                exact not_congr ⟨fun hrest _ => hrest, fun hrest => hrest hfailed⟩
              · rw [if_neg hfailed]
                exact iff_of_false (by simp) (not_not.mpr (fun he => absurd he hfailed))

theorem initialize_connected_iff :
    initializeEmmcProxyConnection api s = (some h, s') ↔ Connected api s h s' := by
  constructor
  · intro hinit
    unfold initializeEmmcProxyConnection at hinit
    split at hinit
    rename_i iResult s₁ hstartup
    split at hinit
    · cases hinit
    · rename_i hstarted
      obtain rfl : iResult = 0 := not_not.mp hstarted
      split at hinit
      · cases hinit
      · rename_i result s₂ hinfo
        split at hinit
        · cases hinit
        · cases hinit
        · rename_i hloop
          cases hinit
          exact ⟨result, s₂, _, ⟨s₁, hstartup, hinfo⟩, connectLoop_connects_iff.mp hloop, rfl⟩
  · rintro ⟨result, s₂, s₃, ⟨s₁, hstartup, hinfo⟩, hconnects, rfl⟩
    rw [initializeEmmcProxyConnection, hstartup]
    dsimp only
    rw [if_neg (not_not.mpr rfl), hinfo]
    dsimp only
    rw [connectLoop_connects_iff.mpr hconnects]

theorem recorded_socket (ptr : Addr) (t : Recorded σ) :
    api.recorded.socket ptr t = ((api.socket ptr t.1).1,
      ((api.socket ptr t.1).2, t.2 ++ [.socket (api.socket ptr t.1).1])) := rfl

/-- A call that answered `a` has that answer when it is not noted. -/
theorem answer_of_eq {α : Type} {r : α × Recorded σ} {p : α × σ} {a : α} {t' : Recorded σ}
    (hr : p = (r.1, r.2.1)) (h : r = (a, t')) : p = (a, t'.1) := by
  subst h
  exact hr

/-- Noting the calls does not change the connection. -/
theorem connectLoop_recorded (ptrs : List Addr) (t : Recorded σ) :
    connectLoop api ptrs t.1 =
      ((connectLoop api.recorded ptrs t).1, (connectLoop api.recorded ptrs t).2.1) := by
  induction ptrs generalizing t with
  | nil => rfl
  | cons ptr rest ih =>
      rw [connectLoop, connectLoop, recorded_socket]
      cases api.socket ptr t.1 with
      | mk answer s₁ =>
          cases answer with
          | none => rfl
          | some h =>
              show (if (api.connect h ptr s₁).1 = socketError then _ else _) =
                ((if (api.connect h ptr s₁).1 = socketError then _ else _ : _ × Recorded σ).1,
                  (if (api.connect h ptr s₁).1 = socketError then _ else _ : _ × Recorded σ).2.1)
              by_cases hfailed : (api.connect h ptr s₁).1 = socketError
              · rw [if_pos hfailed, if_pos hfailed]
                exact ih (api.recorded.closesocket h
                  (api.recorded.connect h ptr (s₁, t.2 ++ [.socket (some h)])).2)
              · rw [if_neg hfailed, if_neg hfailed]
                rfl

theorem initialize_recorded (t : Recorded σ) :
    initializeEmmcProxyConnection api t.1 =
      ((initializeEmmcProxyConnection api.recorded t).1,
        (initializeEmmcProxyConnection api.recorded t).2.1) := by
  have hstartup : api.recorded.wsaStartup t = ((api.wsaStartup t.1).1,
      ((api.wsaStartup t.1).2, t.2 ++ [.wsaStartup (api.wsaStartup t.1).1])) := rfl
  have hinfo : ∀ t, api.recorded.getaddrinfo t = ((api.getaddrinfo t.1).1,
      ((api.getaddrinfo t.1).2, t.2 ++ [.getaddrinfo (api.getaddrinfo t.1).1.isSome])) :=
    fun _ => rfl
  rw [initializeEmmcProxyConnection, initializeEmmcProxyConnection, hstartup]
  cases api.wsaStartup t.1 with
  | mk iResult s₁ =>
      dsimp only
      by_cases hfailed : iResult ≠ 0
      · rw [if_pos hfailed, if_pos hfailed]
      · rw [if_neg hfailed, if_neg hfailed, hinfo]
        cases api.getaddrinfo s₁ with
        | mk answer s₂ =>
            cases answer with
            | none => rfl
            | some result =>
                dsimp only
                rw [show connectLoop api result s₂ = _ from connectLoop_recorded result (s₂, _)]
                cases connectLoop api.recorded result _ with
                | mk r t₃ =>
                    rcases r with _ | _ | h
                    · rfl
                    · rfl
                    · rfl

end connection

/-- What `main` leaves: its exit code, what `dump_device` left if it was called, the world. -/
structure Exit (σ : Type) where
  ret : Int
  device : Option (DeviceDump σ)
  world : σ

/-- `main`; `none` when a cast throws or a response never comes. -/
def main (api : WinsockApi Addr σ) (lexicalCast : String → Option Int32) (fuel : Nat)
    (mbr : Frame) (argv : List String) (s : σ) : Option (Exit σ) :=
  match parseArgs lexicalCast argv with
  | none => none
  | some none => some ⟨1, none, s⟩
  | some (some args) =>
      match initializeEmmcProxyConnection api s with
      | (none, s) => some ⟨1, none, s⟩
      | (some emmcSocket, s) =>
          match dumpDevice (api.on emmcSocket) fuel mbr args.dumpMode args.dumpPartitionIndex s with
          | none => none
          | some d =>
              match deinitializeEmmcProxyConnection api emmcSocket d.world with
              | (ret, s) => some ⟨if ret < 0 then 1 else 0, some d, s⟩

/-! ## The books -/

/-- What the client has to give back. -/
inductive Resource where
  | winsock
  | addrInfo
  | socket (h : Socket)
  deriving DecidableEq

/-- What a call does to the resources. -/
def Call.entry : Call σ → Option (Entry Resource)
  | .wsaStartup answer => if answer = 0 then some (.acquire .winsock) else none
  | .wsaCleanup => some (.release .winsock)
  | .getaddrinfo found => if found then some (.acquire .addrInfo) else none
  | .freeaddrinfo => some (.release .addrInfo)
  | .socket answer => answer.map fun h => .acquire (.socket h)
  | .connect h => some (.use (.socket h))
  | .send h _ _ => some (.use (.socket h))
  | .recv h => some (.use (.socket h))
  | .shutdown h _ => some (.use (.socket h))
  | .closesocket h => some (.release (.socket h))

/-- The books of a list of calls. -/
def books (calls : List (Call σ)) : List (Entry Resource) := calls.filterMap Call.entry

theorem books_append (xs ys : List (Call σ)) : books (xs ++ ys) = books xs ++ books ys :=
  List.filterMap_append

/-- What is live when the loop over the addresses ends with `r`. -/
def liveAfterLoop : Option (Option Socket) → List Resource
  | none => [.addrInfo]
  | some none => [.addrInfo, .winsock]
  | some (some h) => [.socket h, .addrInfo, .winsock]

/-- The loop closes every socket but the connected one. -/
theorem connectLoop_calls (api : WinsockApi Addr σ) {ptrs : List Addr} {t t' : Recorded σ}
    {r : Option (Option Socket)} (hloop : connectLoop api.recorded ptrs t = (r, t')) :
    ∃ new, t'.2 = t.2 ++ new ∧ Leads [.addrInfo, .winsock] (books new) (liveAfterLoop r) := by
  induction ptrs generalizing t with
  | nil =>
      cases hloop
      exact ⟨[], (List.append_nil _).symm, trivial, rfl⟩
  | cons ptr rest ih =>
      unfold connectLoop at hloop
      split at hloop
      · rename_i t₁ hsocket
        have hcalls : t₁.2 = t.2 ++ [.socket none] := calls_of_eq .socket rfl hsocket
        cases hloop
        refine ⟨[.socket none, .wsaCleanup], ?_, ⟨by decide, trivial⟩, rfl⟩
        show t₁.2 ++ [.wsaCleanup] = _
        rw [hcalls, List.append_assoc]
        rfl
      · rename_i h t₁ hsocket
        have hcalls₁ : t₁.2 = t.2 ++ [.socket (some h)] := calls_of_eq .socket rfl hsocket
        split at hloop
        rename_i iResult t₂ hconnect
        have hcalls : t₂.2 = t.2 ++ [.socket (some h), .connect h] := by
          rw [calls_of_eq (fun _ => .connect h) rfl hconnect, hcalls₁, List.append_assoc]
          rfl
        split at hloop
        · obtain ⟨new, hnew, hleads⟩ := ih hloop
          refine ⟨[.socket (some h), .connect h, .closesocket h] ++ new, ?_, ?_⟩
          · rw [hnew]
            show t₂.2 ++ [.closesocket h] ++ new = _
            rw [hcalls]
            simp only [List.append_assoc]
            rfl
          · rw [books_append]
            refine Leads.append ⟨⟨trivial, List.mem_cons_self, List.mem_cons_self, trivial⟩, ?_⟩
              hleads
            exact List.erase_cons_head _ _
        · cases hloop
          exact ⟨[.socket (some h), .connect h], hcalls, ⟨trivial, List.mem_cons_self, trivial⟩,
            rfl⟩

/-- What has been called at the end of the loop, with the calls in front of it: Winsock and the
list of addresses are live when it starts. -/
theorem connectLoop_started (api : WinsockApi Addr σ) {result : List Addr} {t t' : Recorded σ}
    {r : Option (Option Socket)} (ht : t.2 = [.wsaStartup 0, .getaddrinfo true])
    (hloop : connectLoop api.recorded result t = (r, t')) :
    Leads [] (books t'.2) (liveAfterLoop r) := by
  obtain ⟨new, hnew, hleads⟩ := connectLoop_calls api hloop
  have hstarted : Leads [] (books t.2) [.addrInfo, .winsock] := by
    rw [ht]
    exact ⟨⟨trivial, trivial, trivial⟩, rfl⟩
  rw [hnew, books_append]
  exact hstarted.append hleads

/-- What `initialize_emmc_proxy_connection` has called when it ends with `r`: with a connection,
the socket and Winsock are open and nothing else; without one, the books balance unless the
loop returned from the middle. -/
def InitializeBooks (api : WinsockApi Addr σ) (s : σ) (calls : List (Call σ))
    (r : Option Socket) : Prop :=
  match r with
  | none => Balanced (books calls) ↔ Granted api s
  | some h => Granted api s ∧ Leads [] (books calls) [.socket h, .winsock]

theorem initialize_calls (api : WinsockApi Addr σ) {s : σ} {t : Recorded σ} {r : Option Socket}
    (hinit : initializeEmmcProxyConnection api.recorded (s, []) = (r, t)) :
    InitializeBooks api s t.2 r := by
  unfold initializeEmmcProxyConnection at hinit
  split at hinit
  rename_i iResult t₁ hstartup
  have hcalls₁ : t₁.2 = [.wsaStartup iResult] := calls_of_eq .wsaStartup rfl hstartup
  have hanswer₁ : api.wsaStartup s = (iResult, t₁.1) := answer_of_eq rfl hstartup
  split at hinit
  · rename_i hfailed
    cases hinit
    have hbooks : books [Call.wsaStartup (σ := σ) iResult] = [] := by
      simp [books, Call.entry, hfailed]
    rw [hcalls₁, InitializeBooks, hbooks]
    refine iff_of_true ⟨trivial, rfl⟩ ?_
    rintro result s' ⟨s₁, hstarted, _⟩
    cases hanswer₁.symm.trans hstarted
    exact absurd rfl hfailed
  · rename_i hstarted
    obtain rfl : iResult = 0 := not_not.mp hstarted
    split at hinit
    · rename_i t₂ hinfo
      have hcalls : (api.recorded.wsaCleanup t₂).2 =
          [.wsaStartup 0, .getaddrinfo false, .wsaCleanup] := by
        show t₂.2 ++ [Call.wsaCleanup] = _
        rw [calls_of_eq (fun answer => .getaddrinfo answer.isSome) rfl hinfo, hcalls₁]
        rfl
      have hanswer₂ : api.getaddrinfo t₁.1 = (none, t₂.1) := answer_of_eq rfl hinfo
      cases hinit
      rw [hcalls]
      refine iff_of_true ⟨⟨trivial, List.mem_cons_self, trivial⟩, rfl⟩ ?_
      rintro result s' ⟨s₁, hstarted, hfound⟩
      cases hanswer₁.symm.trans hstarted
      cases hanswer₂.symm.trans hfound
    · rename_i result t₂ hinfo
      have hcalls₂ : t₂.2 = [.wsaStartup 0, .getaddrinfo true] := by
        rw [calls_of_eq (fun answer => .getaddrinfo answer.isSome) rfl hinfo, hcalls₁]
        rfl
      have hanswer₂ : api.getaddrinfo t₁.1 = (some result, t₂.1) := answer_of_eq rfl hinfo
      have hgranted : Granted api s ↔ (connectLoop api.recorded result t₂).1 ≠ none := by
        have hplain : (connectLoop api result t₂.1).1 = (connectLoop api.recorded result t₂).1 :=
          congrArg Prod.fst (connectLoop_recorded result t₂)
        rw [← hplain, Ne, connectLoop_returns_iff, not_not]
        constructor
        · exact fun h => h result t₂.1 ⟨t₁.1, hanswer₁, hanswer₂⟩
        · rintro h result' s' ⟨s₁, hstarted, hfound⟩
          cases hanswer₁.symm.trans hstarted
          cases hanswer₂.symm.trans hfound
          exact h
      split at hinit
      · rename_i hloop
        have hleads := connectLoop_started api hcalls₂ hloop
        cases hinit
        rw [hloop] at hgranted
        refine iff_of_false ?_ (fun h => hgranted.mp h rfl)
        intro hbalanced
        cases hleads.2.symm.trans hbalanced.closed
      · rename_i t₃ hloop
        have hleads := connectLoop_started api hcalls₂ hloop
        have hcalls : (api.recorded.wsaCleanup (api.recorded.freeaddrinfo t₃)).2 =
            t₃.2 ++ [Call.freeaddrinfo, .wsaCleanup] := List.append_assoc _ _ _
        have hend : Leads [.addrInfo, .winsock]
            (books [Call.freeaddrinfo (σ := σ), .wsaCleanup]) [] :=
          ⟨⟨List.mem_cons_self, List.mem_cons_self, trivial⟩, rfl⟩
        cases hinit
        rw [hloop] at hgranted
        rw [hcalls, InitializeBooks, books_append]
        obtain ⟨hlegal, hclosed⟩ := hleads.append hend
        exact iff_of_true ⟨hlegal, hclosed⟩ (hgranted.mpr (Option.some_ne_none _))
      · rename_i h t₃ hloop
        have hleads := connectLoop_started api hcalls₂ hloop
        have hcalls : (api.recorded.freeaddrinfo t₃).2 = t₃.2 ++ [Call.freeaddrinfo] := rfl
        have hend : Leads [.socket h, .addrInfo, .winsock]
            (books [Call.freeaddrinfo (σ := σ)]) [.socket h, .winsock] :=
          ⟨⟨List.mem_cons_of_mem _ List.mem_cons_self, trivial⟩, rfl⟩
        cases hinit
        rw [hloop] at hgranted
        rw [hcalls, InitializeBooks, books_append]
        exact ⟨hgranted.mpr (Option.some_ne_none _), hleads.append hend⟩

/-! ## The traffic in the books -/

section traffic

variable {api : WinsockApi Addr σ} {fuel : Nat} {h : Socket} {P : Request → Prop} {ok : Bool}
  {new : List (Call σ)}

/-- `shutdown`, and then both are closed whatever it answers. -/
def closing (h : Socket) (answer : Int) : List (Call σ) :=
  [.shutdown h answer, .closesocket h, .wsaCleanup]

theorem deinitialize_calls {t t' : Recorded σ} {ret : Int}
    (hdeinit : deinitializeEmmcProxyConnection api.recorded h t = (ret, t')) :
    ∃ answer, t'.2 = t.2 ++ closing h answer ∧ (ret < 0 ↔ answer = socketError) := by
  unfold deinitializeEmmcProxyConnection at hdeinit
  split at hdeinit
  rename_i iResult t₁ hshutdown
  have hcalls : ((api.recorded.on h).giveUp t₁).2 = t.2 ++ closing h iResult := by
    rw [recorded_giveUp]
    dsimp only
    rw [calls_of_eq (.shutdown h) rfl hshutdown, List.append_assoc]
    rfl
  refine ⟨iResult, ?_⟩
  split at hdeinit
  · rename_i herror
    cases hdeinit
    exact ⟨hcalls, iff_of_true (by decide) herror⟩
  · rename_i hok
    cases hdeinit
    exact ⟨hcalls, iff_of_false (by decide) hok⟩

theorem books_closing (h : Socket) (answer : Int) :
    Leads [.socket h, .winsock] (books (closing (σ := σ) h answer)) [] :=
  ⟨⟨List.mem_cons_self, List.mem_cons_self, by simp [Ledger.step, Legal], trivial⟩,
    by simp [books, closing, Call.entry, run, Ledger.step]⟩

/-- Served calls use the socket. -/
theorem leads_of_serves (hserves : ∀ c ∈ new, c.Serves api fuel h P) :
    Leads [.socket h, .winsock] (books new) [.socket h, .winsock] := by
  refine leads_of_uses ?_
  intro e he
  obtain ⟨c, hc, hentry⟩ := List.mem_filterMap.mp he
  refine ⟨.socket h, List.mem_cons_self, ?_⟩
  have hc := hserves c hc
  cases c with
  | send h' request before =>
      obtain ⟨rfl, _⟩ := hc
      exact (Option.some.inj hentry).symm
  | recv h' =>
      obtain rfl : h' = h := hc
      exact (Option.some.inj hentry).symm
  | _ => exact hc.elim

/-- Calls on the socket acquire nothing. -/
theorem acquired_of_on (hon : ∀ c ∈ new, c.On h P) : ∀ e ∈ books new, e.acquired = none := by
  intro e he
  obtain ⟨c, hc, hentry⟩ := List.mem_filterMap.mp he
  have hc := hon c hc
  cases c with
  | send h' request before =>
      cases hentry
      rfl
  | recv h' =>
      cases hentry
      rfl
  | closesocket h' =>
      cases hentry
      rfl
  | wsaCleanup =>
      cases hentry
      rfl
  | _ => exact hc.elim

/-- The calls up to a give-up close everything. -/
theorem leads_of_gaveUp {before : List (Call σ)} {r : Request} {s : σ} {k : Nat}
    (hbefore : ∀ c ∈ before, c.Serves api fuel h P) :
    Leads [.socket h, .winsock]
      (books (before ++ Call.send h r.encode s :: (List.replicate k (Call.recv h) ++ gaveUp h)))
      [] := by
  have hreceived : Leads [.socket h, .winsock]
      (books (.send h r.encode s :: List.replicate k (.recv h))) [.socket h, .winsock] := by
    refine leads_of_uses ?_
    intro e he
    obtain ⟨c, hc, hentry⟩ := List.mem_filterMap.mp he
    refine ⟨.socket h, List.mem_cons_self, ?_⟩
    rcases List.mem_cons.mp hc with rfl | hc
    · exact (Option.some.inj hentry).symm
    · rw [List.eq_of_mem_replicate hc] at hentry
      exact (Option.some.inj hentry).symm
  have hclosed : Leads [.socket h, .winsock] (books (gaveUp (σ := σ) h)) [] :=
    ⟨⟨List.mem_cons_self, by simp [Ledger.step, Legal], trivial⟩,
      by simp [books, gaveUp, Call.entry, run, Ledger.step]⟩
  rw [← List.cons_append, books_append, books_append]
  exact (leads_of_serves hbefore).append (hreceived.append hclosed)

/-- Traffic followed by the shutdown balances exactly when it was served: after a give-up
nothing is open and the shutdown at the latest uses the socket. -/
theorem Traffic.balanced_iff (ht : Traffic api fuel h P ok new) (answer : Int)
    {calls : List (Call σ)} (hcalls : Leads [] (books calls) [.socket h, .winsock]) :
    Balanced (books (calls ++ (new ++ closing h answer))) ↔ ok = true := by
  cases ht with
  | served hserves =>
      have hall := hcalls.append ((leads_of_serves hserves).append
        (books_closing (σ := σ) h answer))
      rw [← books_append, ← books_append] at hall
      exact iff_of_true ⟨hall.1, hall.2⟩ rfl
  | @broken before rest r s k hbefore hr hrej hrest =>
      refine iff_of_false ?_ Bool.false_ne_true
      intro hbalanced
      have hsplit : before ++
          Call.send h r.encode s :: (List.replicate k (Call.recv h) ++ gaveUp h ++ rest) =
            before ++ Call.send h r.encode s :: (List.replicate k (Call.recv h) ++ gaveUp h) ++
              rest := by
        simp only [List.append_assoc, List.cons_append]
      have hlegal := hbalanced.legal
      rw [books_append, books_append, hsplit, books_append, List.append_assoc, ← List.append_assoc,
        (hcalls.append (leads_of_gaveUp hbefore)).legal_append_iff] at hlegal
      refine not_legal_of_no_acquire ?_ ?_ hlegal
      · exact List.append_ne_nil_of_right_ne_nil _ (by simp [books, closing, Call.entry])
      · refine List.forall_mem_append.mpr ⟨acquired_of_on hrest, ?_⟩
        simp [books, closing, Call.entry, Entry.acquired]

end traffic

/-! ## The run -/

section run

variable {api : WinsockApi Addr σ} {fuel : Nat} {mbr : Frame}

/-- What a run of `main` has called: nothing; or the calls of a connection that was not made;
or those of a connection, the traffic of `dump_device` and the shutdown. -/
theorem main_cases {lexicalCast : String → Option Int32} {argv : List String} {s : σ}
    {e : Exit (Recorded σ)}
    (hrun : main api.recorded lexicalCast fuel mbr argv (s, []) = some e) :
    (e.ret = 1 ∧ ((e.world.2 = [] ∧ parseArgs lexicalCast argv = some none) ∨
      ∃ args, parseArgs lexicalCast argv = some (some args) ∧
        initializeEmmcProxyConnection api.recorded (s, []) = (none, e.world))) ∨
    ∃ args h t d answer, parseArgs lexicalCast argv = some (some args) ∧
      initializeEmmcProxyConnection api.recorded (s, []) = (some h, t) ∧
      dumpDevice (api.recorded.on h) fuel mbr args.dumpMode args.dumpPartitionIndex t = some d ∧
      e.world.2 = d.world.2 ++ closing h answer ∧ e.device = some d ∧
      e.ret = if answer = socketError then 1 else 0 := by
  unfold main at hrun
  split at hrun
  · cases hrun
  · rename_i hparse
    cases hrun
    exact Or.inl ⟨rfl, Or.inl ⟨rfl, hparse⟩⟩
  · rename_i args hparse
    split at hrun
    · rename_i hinit
      cases hrun
      exact Or.inl ⟨rfl, Or.inr ⟨args, hparse, hinit⟩⟩
    · rename_i h t hinit
      split at hrun
      · cases hrun
      · rename_i d hdump
        split at hrun
        rename_i ret t' hdeinit
        cases hrun
        obtain ⟨answer, hcalls, hret⟩ := deinitialize_calls hdeinit
        refine Or.inr ⟨args, h, t, d, answer, hparse, hinit, hdump, hcalls, rfl, ?_⟩
        exact if_congr hret rfl rfl

/-- A run of `main` with a connection and a dump that came to an end. -/
theorem main_connected {api : WinsockApi Addr σ} {lexicalCast : String → Option Int32}
    {argv : List String} {args : Args} {h : Socket} {s t : σ} {d : DeviceDump σ}
    (hparse : parseArgs lexicalCast argv = some (some args))
    (hinit : initializeEmmcProxyConnection api s = (some h, t))
    (hdump : dumpDevice (api.on h) fuel mbr args.dumpMode args.dumpPartitionIndex t = some d) :
    main api lexicalCast fuel mbr argv s =
      some ⟨if (deinitializeEmmcProxyConnection api h d.world).1 < 0 then 1 else 0, some d,
        (deinitializeEmmcProxyConnection api h d.world).2⟩ := by
  rw [main, hparse]
  dsimp only
  rw [hinit]
  dsimp only
  rw [hdump]

/-- The run comes to an end with everything released exactly once and nothing used that is not
open, or a cast throws before the first call. -/
def Released (api : WinsockApi Addr σ) (lexicalCast : String → Option Int32) (mbr : Frame)
    (argv : List String) (s : σ) : Prop :=
  parseArgs lexicalCast argv = none ∨
    ∃ fuel e, main api.recorded lexicalCast fuel mbr argv (s, []) = some e ∧
      Balanced (books e.world.2)

/-- After a connection the books balance exactly when the dump is served. -/
theorem balanced_iff_dumpServed {args : Args} {h : Socket} {s : σ} {t : Recorded σ}
    {d : DeviceDump (Recorded σ)} {answer : Int}
    (hinit : initializeEmmcProxyConnection api.recorded (s, []) = (some h, t))
    (hdump : dumpDevice (api.recorded.on h) fuel mbr args.dumpMode args.dumpPartitionIndex t =
      some d) :
    Balanced (books (d.world.2 ++ closing h answer)) ↔
      (api.on h).DumpServed mbr args.dumpMode args.dumpPartitionIndex t.1 := by
  obtain ⟨ok, new, hnew, htraffic, hgood, hsure⟩ := dumpDevice_served (P := fun _ => True)
    (fun _ => trivial) hdump
  rw [hnew, List.append_assoc, htraffic.balanced_iff answer (initialize_calls api hinit).2,
    ← dumpServed_recorded]
  exact ⟨hsure trivial, hgood⟩

/-- **Everything is released exactly once.**  For every command line, every outcome of every call
and every content of the stack: the run of `main` ends with Winsock, the list of addresses and
every socket released as often as acquired, and nothing used or released that is not open,
exactly when no `socket` call is refused and all requests of the dump are served. -/
theorem winsock_calls_balanced_iff (api : WinsockApi Addr σ)
    (lexicalCast : String → Option Int32) (mbr : Frame) (argv : List String) (s : σ) :
    Released api lexicalCast mbr argv s ↔
      ∀ args, parseArgs lexicalCast argv = some (some args) →
        Granted api s ∧ ∀ h s', Connected api s h s' →
          (api.on h).DumpServed mbr args.dumpMode args.dumpPartitionIndex s' := by
  have hrecorded : ∀ {r t}, initializeEmmcProxyConnection api.recorded (s, []) = (r, t) →
      initializeEmmcProxyConnection api s = (r, t.1) :=
    fun hinit => answer_of_eq (initialize_recorded (s, [])) hinit
  constructor
  · rintro (hthrown | ⟨fuel, e, hrun, hbalanced⟩) args hparse
    · cases hthrown.symm.trans hparse
    · rcases main_cases hrun with ⟨_, ⟨_, hparse'⟩ | ⟨args', _, hinit⟩⟩ |
        ⟨args', h, t, d, answer, hparse', hinit, hdump, hcalls, _, _⟩
      · cases hparse.symm.trans hparse'
      · refine ⟨(initialize_calls api hinit).mp hbalanced, ?_⟩
        intro h s' hconnected
        cases (hrecorded hinit).symm.trans (initialize_connected_iff.mpr hconnected)
      · cases hparse.symm.trans hparse'
        rw [hcalls, balanced_iff_dumpServed hinit hdump] at hbalanced
        refine ⟨(initialize_calls api hinit).1, ?_⟩
        intro h' s' hconnected
        cases (hrecorded hinit).symm.trans (initialize_connected_iff.mpr hconnected)
        exact hbalanced
  · intro hcond
    cases hparse : parseArgs lexicalCast argv with
    | none => exact Or.inl hparse
    | some accepted =>
        cases accepted with
        | none =>
            refine Or.inr ⟨0, ⟨1, none, (s, [])⟩, ?_, trivial, rfl⟩
            rw [main, hparse]
        | some args =>
            obtain ⟨hgranted, hserved⟩ := hcond args hparse
            cases hinit : initializeEmmcProxyConnection api.recorded (s, []) with
            | mk r t =>
                cases r with
                | none =>
                    refine Or.inr ⟨0, ⟨1, none, t⟩, ?_, (initialize_calls api hinit).mpr hgranted⟩
                    rw [main, hparse]
                    dsimp only
                    rw [hinit]
                | some h =>
                    have hdumped := hserved h t.1 (initialize_connected_iff.mp (hrecorded hinit))
                    obtain ⟨fuel, d, hdump⟩ := dumpDevice_returns (dumpServed_recorded.mpr hdumped)
                    obtain ⟨answer, hcalls, _⟩ := deinitialize_calls
                      (Prod.mk.eta (p := deinitializeEmmcProxyConnection api.recorded h
                        d.world)).symm
                    refine Or.inr ⟨fuel, _, main_connected hparse hinit hdump, ?_⟩
                    dsimp only
                    rw [hcalls]
                    exact (balanced_iff_dumpServed hinit hdump).mpr hdumped

end run

/-- The run of `psvemmc 0 0 dump` on a network that gives these responses. -/
def replayRun (responses : List (List UInt8)) : Option (Exit (Recorded (List (List UInt8)))) :=
  main replay.recorded castZero 1 (fun _ => 0) ["psvemmc", "0", "0", "dump"] (responses, [])

theorem replayRun_unanswered : (replayRun []).isSome = true := by decide +kernel

/-- The ping is not answered: the client closes the socket and Winsock, and `main` shuts the
closed socket down and closes both again. -/
theorem winsock_closed_twice :
    ¬ Released replay castZero (fun _ => 0) ["psvemmc", "0", "0", "dump"] [] := by
  rintro (hthrown | ⟨fuel, e, hrun, hbalanced⟩)
  · exact absurd hthrown (by decide)
  · have hsame : replayRun [] = some e := hrun
    rw [← Option.some.inj ((Option.some_get replayRun_unanswered).trans hsame)] at hbalanced
    exact absurd hbalanced.legal (by decide +kernel)

end PsvEmmc
