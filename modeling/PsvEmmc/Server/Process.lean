/-
# `PsvEmmc.Server.Process` — the server from its start to its end

`main` loads the net module, `init_net` brings up the network and a socket that
listens, `accept_single_connection` serves one client after the other until an
accept fails, and `deinit_net` takes everything down again.

Two things are proved.  A process is a run of the system of `PsvEmmc.Server`:
`receive_commands` comes to its end on every connection, after no more rounds
than there are bytes, and a process is a restart followed by a connection and
its rounds for each client served, so that what holds along runs holds of
processes (`serverMain_runs`).

And a process takes down what it brought up exactly when everything was granted
and no socket is `0`, but for one call: `_cli_sock` and `_emmc_sock` keep the
code of an accept or of a socket that failed, and what is not zero is closed.
The loop ends with a failed accept only, so a server that has listened never
ends without it (`serverMain_books`).
-/
import PsvEmmc.Server.Restarts
import PsvEmmc.Server.Dispatch
import PsvEmmc.Lib.Ledger

namespace PsvEmmc

open Words Memory Stream Runs Ledger
open scoped List

/-! ## The functions -/

inductive ServerResource where
  | netMemory (ptr : UInt32)
  | net
  | netCtl
  | socket (id : Int32)
  deriving DecidableEq

/-- What is answered up to the first accept. -/
structure StartAnswers where
  /-- `sceSysmoduleIsLoaded` says `SCE_SYSMODULE_LOADED`. -/
  isLoaded : Bool
  loadModule : Int32
  /-- `sceNetShowNetstat` says `SCE_NET_ERROR_ENOTINIT`. -/
  notInit : Bool
  malloc : UInt32
  netInit : Int32
  netCtlInit : Int32
  socket : Int32
  bind : Int32
  getInfo : Int32
  listen : Int32

/-- What `sceNetAccept` returns, and the client when there is one: its connection, and what is
answered in the rounds of its session. -/
structure AcceptAnswer where
  sock : Int32
  conn : Inbound
  answers : Nat → Answers

/-- The globals of the server with the system it is part of, the requests executed, and what was
acquired, used and released. -/
structure Process where
  emmcSock : Int32 := 0
  cliSock : Int32 := 0
  netMemory : UInt32 := 0
  st : St
  executed : List Request := []
  books : List (Entry ServerResource) := []

namespace Process

def keepsBooks (p : Process) (es : List (Entry ServerResource)) : Process :=
  { p with books := p.books ++ es }

/-- `sceNetInit` with the memory that `malloc` returned. -/
def initsNet (k : StartAnswers) (p : Process) : Process :=
  if k.notInit then
    { p with netMemory := k.malloc }.keepsBooks
      (grantedIf (k.malloc ≠ 0) (ServerResource.netMemory k.malloc) ++
        grantedIf (0 ≤ k.netInit) ServerResource.net)
  else p

def initNet (k : StartAnswers) (p : Process) : Int32 × Process :=
  let p := p.initsNet k
  if k.netCtlInit < 0 then (-1, p)
  else
    let p := { p.keepsBooks [.acquire .netCtl] with emmcSock := k.socket }
    if p.emmcSock < 0 then (-1, p)
    else
      let p := p.keepsBooks [.acquire (.socket p.emmcSock), .use (.socket p.emmcSock)]
      if k.bind < 0 then (-1, p)
      else
        let p := p.keepsBooks [.use .netCtl]
        if k.getInfo < 0 then (-1, p)
        else
          let p := p.keepsBooks [.use (.socket p.emmcSock)]
          if k.listen < 0 then (-1, p) else (0, p)

/-- `sceNetSocketClose(_cli_sock)`, as it stands in two places. -/
def closesClient (p : Process) : Process :=
  if p.cliSock ≠ 0 then { p.keepsBooks [.release (.socket p.cliSock)] with cliSock := 0 } else p

def closesServer (p : Process) : Process :=
  if p.emmcSock ≠ 0 then { p.keepsBooks [.release (.socket p.emmcSock)] with emmcSock := 0 } else p

def freesMemory (p : Process) : Process :=
  if p.netMemory ≠ 0 then { p.keepsBooks [.release (.netMemory p.netMemory)] with netMemory := 0 }
  else p

/-- `sceNetCtlTerm` and `sceNetTerm` are called between the sockets and the memory. -/
def deinitNet (p : Process) : Process :=
  (p.closesClient.closesServer.keepsBooks [.release .netCtl, .release .net]).freesMemory

/-- `_cli_sock = sceNetAccept(_emmc_sock, ...)`. -/
def accepts (a : AcceptAnswer) (p : Process) : Process :=
  { p.keepsBooks (.use (.socket p.emmcSock) :: grantedIf (0 ≤ a.sock) (.socket a.sock)) with
    cliSock := a.sock }

/-- `receive_commands` on the new connection; one entry of the books stands for its calls. -/
def receives (a : AcceptAnswer) (p : Process) : Process :=
  let (rs, st) := receiveCommands a.answers { p.st with conn := a.conn }
  { p.keepsBooks [.use (.socket p.cliSock)] with st := st, executed := p.executed ++ rs }

/-- `accept_single_connection`, and whether it has returned: after the last client it waits for
the next. -/
def acceptSingleConnection : List AcceptAnswer → Process → Bool × Process
  | [], p => (false, p)
  | a :: as, p =>
      let p := p.accepts a
      if p.cliSock < 0 then (true, p)
      else acceptSingleConnection as (p.receives a).closesClient

/-- `main`, with the exit code of a process that has ended. -/
def serverMain (k : StartAnswers) (as : List AcceptAnswer) (p : Process) : Option Int32 × Process :=
  if k.isLoaded = false ∧ k.loadModule < 0 then (some 1, p)
  else
    let (res, p) := p.initNet k
    let (returned, p) := if 0 ≤ res then p.acceptSingleConnection as else (true, p)
    if returned then (some 0, p.deinitNet) else (none, p)

end Process

/-! ## The loop over the requests -/

/-- A round after which the loop makes another. -/
def GoesOn (st : St) : Event → Prop
  | .round k => ∃ h, poll k st = some h ∧ 0 ≤ h.ret
  | _ => False

/-- `n` rounds, from round `i` of the session on. -/
def roundsFrom (ks : Nat → Answers) (i n : Nat) : List Event :=
  (List.range' i n).map fun j => .round (ks j)

/-- A handler that receives its request takes from the connection. -/
theorem length_of_receive {st : St} {c : Command} {r : Request} {conn : Inbound}
    (h : receive st c = some (r, conn)) : conn.pending.length ≤ st.conn.pending.length := by
  have hrecv : ∀ (len : Nat) (conn : Inbound),
      (conn.recv len).rest.pending.length ≤ conn.pending.length := by
    intro len conn
    rcases conn.recv_cases len with ⟨_, _, hrest⟩ | ⟨_, n, _, _, _, hr⟩
    · rw [hrest]
    · rw [hr, Inbound.pending_advance, List.length_drop]
      exact Nat.sub_le _ _
  have hrecvAll : ∀ (need : Nat) (conn : Inbound),
      (conn.recvAll need).2.2.pending.length ≤ conn.pending.length := by
    intro need conn
    obtain ⟨n, _, _, hres, _⟩ := conn.recvAll_spec need
    rw [hres, Inbound.pending_advance, List.length_drop]
    exact Nat.sub_le _ _
  cases c with
  | ping | term =>
      obtain ⟨rfl, rfl⟩ := Prod.mk.inj (Option.some.inj h)
      exact Nat.le_refl _
  | init | deinit | readSector dev | readCluster dev | writeSector dev | writeCluster dev =>
      simp only [receive] at h
      repeat' split at h
      all_goals first
        | obtain ⟨rfl, rfl⟩ := Prod.mk.inj (Option.some.inj h)
          first
            | exact Nat.le_refl _
            | exact hrecv _ _
            | exact hrecvAll _ _
            | exact (hrecvAll _ _).trans (hrecv _ _)
        | exact absurd h (by simp)

/-- A round that goes on takes a byte at least. -/
theorem GoesOn.shorter {st : St} {e : Event} (h : GoesOn st e) :
    (st.step e).conn.pending.length < st.conn.pending.length := by
  cases e with
  | accept conn => exact absurd h not_false
  | restart => exact absurd h not_false
  | round k =>
      obtain ⟨r, hpoll, hret⟩ := h
      cases hc : nextCommand st.conn with
      | none =>
          simp only [poll, hc] at hpoll
          exact absurd hpoll (by simp)
      | some c =>
          have hr : r = handle c k st.afterWord := by
            simp only [poll, hc] at hpoll
            exact (Option.some.inj hpoll).symm
          have hword : st.afterWord.conn.pending.length < st.conn.pending.length := by
            rcases st.conn.recv_cases 4 with ⟨hle, _, _⟩ | ⟨_, n, hpos, _, hn, hrecv⟩
            · rw [nextCommand, if_pos hle] at hc
              exact absurd hc (by simp)
            · rw [St.afterWord, hrecv]
              show (st.conn.pending.drop n).length < _
              rw [List.length_drop]
              exact Nat.sub_lt (hpos.trans_le hn) hpos
          show (pollState k st).conn.pending.length < _
          rw [pollState_of_some hc]
          rcases handle_of_receive_or c k st.afterWord with ⟨q, conn, hq, hexec⟩ | ⟨_, hneg, _⟩
          · rw [hexec, execute_conn]
            exact (length_of_receive hq).trans_lt hword
          · rw [hr] at hret
            exact absurd hneg (Int.not_lt.mpr hret)

/-- `receive_commands` makes `n` rounds that go on and one that does not. -/
structure Session (ks : Nat → Answers) (st : St) (i n : Nat) : Prop where
  goesOn : Along St.step GoesOn st (roundsFrom ks i n)
  ends : ¬ GoesOn (run St.step st (roundsFrom ks i n)) (.round (ks (i + n)))

/-- The loop comes to its end, and is a run of that many rounds. -/
theorem receiveLoop_runs (ks : Nat → Answers) (fuel i : Nat) (st : St)
    (hfuel : st.conn.pending.length < fuel) :
    ∃ n ≤ st.conn.pending.length, Session ks st i n ∧
      receiveLoop ks fuel i st =
        (trace St.step executedIn st (roundsFrom ks i (n + 1)),
          run St.step st (roundsFrom ks i (n + 1))) := by
  induction fuel generalizing i st with
  | zero => exact absurd hfuel (Nat.not_lt_zero _)
  | succ fuel ih =>
      have hrounds : ∀ n, roundsFrom ks i (n + 1) = .round (ks i) :: roundsFrom ks (i + 1) n :=
        fun _ => rfl
      cases hpoll : poll (ks i) st with
      | none =>
          have hends : ¬ GoesOn st (.round (ks i)) := by
            rintro ⟨h, hsome, _⟩
            exact absurd (hsome.symm.trans hpoll) (by simp)
          refine ⟨0, Nat.zero_le _, ⟨trivial, hends⟩, ?_⟩
          simp only [receiveLoop, hpoll, hrounds, trace, executedIn, Option.bind_none]
          rfl
      | some h =>
          have hstep : st.step (.round (ks i)) = h.st := by
            simp only [St.step, pollState, hpoll]
          by_cases hret : h.ret < 0
          · have hends : ¬ GoesOn st (.round (ks i)) := by
              rintro ⟨h', hsome, hret'⟩
              obtain rfl := Option.some.inj (hsome.symm.trans hpoll)
              exact absurd hret (Int.not_lt.mpr hret')
            refine ⟨0, Nat.zero_le _, ⟨trivial, hends⟩, ?_⟩
            simp only [receiveLoop, hpoll, if_pos hret, hrounds, run_cons, trace, hstep, executedIn,
              Option.bind_some]
            exact Prod.ext (List.append_nil _).symm rfl
          · have hgoes : GoesOn st (.round (ks i)) := ⟨h, hpoll, Int.not_lt.mp hret⟩
            have hshorter := hgoes.shorter
            rw [hstep] at hshorter
            obtain ⟨n, hn, hsession, hloop⟩ := ih (i + 1) h.st (by omega)
            refine ⟨n + 1, by omega, ⟨?_, ?_⟩, ?_⟩
            · rw [hrounds, Along, hstep]
              exact ⟨hgoes, hsession.goesOn⟩
            · rw [hrounds, run_cons, hstep, Nat.add_comm n 1, ← Nat.add_assoc]
              exact hsession.ends
            · simp only [receiveLoop, hpoll, if_neg hret, hloop, hrounds (n + 1), run_cons, trace,
                hstep, executedIn, Option.bind_some]

/-! ## The loop over the clients -/

/-- The clients that are served: those before the first accept that fails. -/
def served (as : List AcceptAnswer) : List AcceptAnswer :=
  as.takeWhile fun a => decide (0 ≤ a.sock)

/-- The events of the clients, one session after the other. -/
def Sessions : St → List AcceptAnswer → List Event → Prop
  | _, [], events => events = []
  | st, a :: as, events => ∃ n ≤ a.conn.pending.length, ∃ rest,
      events = .accept a.conn :: roundsFrom a.answers 0 (n + 1) ++ rest ∧
        Session a.answers (st.step (.accept a.conn)) 0 n ∧
        Sessions (run St.step st (.accept a.conn :: roundsFrom a.answers 0 (n + 1))) as rest

namespace Process

@[simp] theorem st_closesClient (p : Process) : p.closesClient.st = p.st := by
  rw [closesClient]
  split <;> rfl

@[simp] theorem executed_closesClient (p : Process) : p.closesClient.executed = p.executed := by
  rw [closesClient]
  split <;> rfl

theorem acceptSingleConnection_runs (as : List AcceptAnswer) (p : Process) :
    ∃ events, Sessions p.st (served as) events ∧
      (p.acceptSingleConnection as).2.st = run St.step p.st events ∧
      (p.acceptSingleConnection as).2.executed =
        p.executed ++ trace St.step executedIn p.st events := by
  induction as generalizing p with
  | nil => exact ⟨[], rfl, rfl, (List.append_nil _).symm⟩
  | cons a as ih =>
      by_cases hsock : a.sock < 0
      · have hserved : served (a :: as) = [] :=
          List.takeWhile_cons_of_neg (by simpa using hsock)
        have hloop : p.acceptSingleConnection (a :: as) = (true, p.accepts a) := if_pos hsock
        rw [hserved, hloop]
        exact ⟨[], rfl, rfl, (List.append_nil _).symm⟩
      · have hserved : served (a :: as) = a :: served as :=
          List.takeWhile_cons_of_pos (by simpa using hsock)
        have hloop : p.acceptSingleConnection (a :: as) =
            (((p.accepts a).receives a).closesClient).acceptSingleConnection as := if_neg hsock
        obtain ⟨n, hn, hsession, hreceive⟩ :=
          receiveLoop_runs a.answers (a.conn.pending.length + 1) 0
            (p.st.step (.accept a.conn)) (Nat.lt_succ_self _)
        have hst : (((p.accepts a).receives a).closesClient).st =
            run St.step p.st (.accept a.conn :: roundsFrom a.answers 0 (n + 1)) := by
          rw [st_closesClient]
          exact congrArg Prod.snd hreceive
        have hexecuted : (((p.accepts a).receives a).closesClient).executed = p.executed ++
            trace St.step executedIn p.st
              (.accept a.conn :: roundsFrom a.answers 0 (n + 1)) := by
          rw [executed_closesClient]
          exact congrArg (fun r => p.executed ++ r.1) hreceive
        obtain ⟨rest, hrest, hstRest, hexecutedRest⟩ :=
          ih (((p.accepts a).receives a).closesClient)
        rw [hst] at hrest hstRest hexecutedRest
        refine ⟨.accept a.conn :: roundsFrom a.answers 0 (n + 1) ++ rest, ?_, ?_, ?_⟩
        · rw [hserved]
          exact ⟨n, hn, rest, rfl, hsession, hrest⟩
        · rw [hloop, hstRest, run_append]
        · rw [hloop, hexecutedRest, hexecuted, trace_append, List.append_assoc]

/-- The loop returns when an accept fails. -/
theorem acceptSingleConnection_returns_iff (as : List AcceptAnswer) (p : Process) :
    (p.acceptSingleConnection as).1 = true ↔ ∃ a ∈ as, a.sock < 0 := by
  induction as generalizing p with
  | nil => simp [acceptSingleConnection]
  | cons a as ih =>
      by_cases hsock : a.sock < 0
      · have hloop : p.acceptSingleConnection (a :: as) = (true, p.accepts a) := if_pos hsock
        rw [hloop]
        exact iff_of_true rfl ⟨a, List.mem_cons_self, hsock⟩
      · have hloop : p.acceptSingleConnection (a :: as) =
            (((p.accepts a).receives a).closesClient).acceptSingleConnection as := if_neg hsock
        rw [hloop, ih, List.exists_mem_cons_iff, or_iff_right hsock]

/-! ## The books up to an end -/

end Process

/-- The net module is not there and cannot be loaded. -/
def StartAnswers.NetMissing (k : StartAnswers) : Prop := k.isLoaded = false ∧ k.loadModule < 0

/-- `init_net` comes to its end. -/
def StartAnswers.Listens (k : StartAnswers) : Prop :=
  0 ≤ k.netCtlInit ∧ 0 ≤ k.socket ∧ 0 ≤ k.bind ∧ 0 ≤ k.getInfo ∧ 0 ≤ k.listen

instance (k : StartAnswers) : Decidable k.NetMissing := inferInstanceAs (Decidable (_ ∧ _))

instance (k : StartAnswers) : Decidable k.Listens :=
  inferInstanceAs (Decidable (_ ∧ _ ∧ _ ∧ _ ∧ _))

/-- The entry is no close of what is no socket. -/
def Proper : Entry ServerResource → Prop
  | .release (.socket id) => 0 ≤ id
  | _ => True

instance : DecidablePred Proper
  | .release (.socket id) => inferInstanceAs (Decidable (0 ≤ id))
  | .release (.netMemory _) | .release .net | .release .netCtl => isTrue trivial
  | .acquire _ | .use _ => isTrue trivial

/-- The network, as `init_net` brings it up. -/
def StartAnswers.netHeld (k : StartAnswers) : List ServerResource :=
  if k.notInit then heldIf (0 ≤ k.netInit) .net ++ heldIf (k.malloc ≠ 0) (.netMemory k.malloc)
  else []

/-- What is held after `init_net`. -/
def StartAnswers.held (k : StartAnswers) : List ServerResource :=
  heldIf (¬ k.netCtlInit < 0 ∧ ¬ k.socket < 0) (.socket k.socket) ++
    heldIf (¬ k.netCtlInit < 0) .netCtl ++ k.netHeld

namespace Process

/-- The books are legal so far, and `live` is held. -/
structure Holds (p : Process) (live : List ServerResource) : Prop where
  leads : Leads [] p.books live
  proper : ∀ e ∈ p.books, Proper e

theorem Holds.keeps {p q : Process} {live live' : List ServerResource} (h : p.Holds live)
    {es : List (Entry ServerResource)} (hq : q.books = p.books ++ es) (hes : Leads live es live')
    (hproper : ∀ e ∈ es, Proper e) : q.Holds live' where
  leads := hq ▸ h.leads.append hes
  proper := hq ▸ List.forall_mem_append.mpr ⟨h.proper, hproper⟩

/-- The process after `init_net`. -/
structure Started (k : StartAnswers) (st : St) (p : Process) : Prop where
  emmcSock : p.emmcSock = if k.netCtlInit < 0 then 0 else k.socket
  cliSock : p.cliSock = 0
  netMemory : p.netMemory = if k.notInit then k.malloc else 0
  st : p.st = st
  executed : p.executed = []
  holds : p.Holds k.held

theorem proper_grantedIf (c : Prop) [Decidable c] (r : ServerResource) :
    ∀ e ∈ grantedIf c r, Proper e := by
  intro e he
  obtain ⟨r', -, rfl⟩ := List.mem_map.mp he
  trivial

/-- Uses of what is held change nothing. -/
theorem Started.uses {k : StartAnswers} {st : St} {p : Process} (h : Started k st p)
    {r : ServerResource} (hr : r ∈ k.held) : Started k st (p.keepsBooks [.use r]) where
  emmcSock := h.emmcSock
  cliSock := h.cliSock
  netMemory := h.netMemory
  st := h.st
  executed := h.executed
  holds := h.holds.keeps rfl
    (leads_of_uses fun _ he => ⟨r, hr, List.mem_singleton.mp he⟩)
    (List.forall_mem_singleton.mpr trivial)

/-- The process when the network is up. -/
theorem initsNet_started (k : StartAnswers) (st : St) :
    let p := initsNet k { st := st }
    p.emmcSock = 0 ∧ p.cliSock = 0 ∧ p.netMemory = (if k.notInit then k.malloc else 0) ∧
      p.st = st ∧ p.executed = [] ∧ p.Holds k.netHeld := by
  dsimp only
  rw [initsNet, StartAnswers.netHeld]
  have hfresh : ∀ p : Process, p.books = [] → p.Holds [] := by
    intro p hp
    constructor
    · rw [hp]
      exact ⟨trivial, rfl⟩
    · rw [hp]
      exact fun e he => absurd he List.not_mem_nil
  split
  · refine ⟨rfl, rfl, rfl, rfl, rfl, ?_⟩
    have hcalls : Leads []
        (grantedIf (k.malloc ≠ 0) (ServerResource.netMemory k.malloc) ++
        grantedIf (0 ≤ k.netInit) ServerResource.net)
        (heldIf (0 ≤ k.netInit) .net ++
          (heldIf (k.malloc ≠ 0) (.netMemory k.malloc) ++ [])) :=
      (leads_grantedIf _ _).append (leads_grantedIf _ _)
    rw [List.append_nil] at hcalls
    exact (hfresh { st := st } rfl).keeps rfl hcalls
      (List.forall_mem_append.mpr ⟨proper_grantedIf _ _, proper_grantedIf _ _⟩)
  · exact ⟨rfl, rfl, rfl, rfl, rfl, hfresh _ rfl⟩

theorem initNet_started (k : StartAnswers) (st : St) :
    (0 ≤ (initNet k { st := st }).1 ↔ k.Listens) ∧ Started k st (initNet k { st := st }).2 := by
  obtain ⟨hsock₀, hcli, hmemory, hst, hexecuted, hholds⟩ := initsNet_started k st
  have hfailed : ¬ (0 : Int32) ≤ -1 := by decide
  rw [initNet]
  dsimp only
  split
  next hctl =>
    refine ⟨iff_of_false hfailed fun h => Int32.not_le.mpr hctl h.1, ?_, hcli, hmemory, hst,
      hexecuted, ?_⟩
    · rw [if_pos hctl, hsock₀]
    · rw [StartAnswers.held, heldIf, heldIf, if_neg fun h => h.1 hctl, if_neg fun h => h hctl]
      exact hholds
  next hctl =>
    have hsockOf : k.socket = if k.netCtlInit < 0 then 0 else k.socket := (if_neg hctl).symm
    have hcreated : Holds { (initsNet k { st := st }).keepsBooks [.acquire .netCtl] with
        emmcSock := k.socket } (.netCtl :: k.netHeld) :=
      hholds.keeps rfl ⟨⟨trivial, trivial⟩, rfl⟩ (List.forall_mem_singleton.mpr trivial)
    split
    next hsock =>
      refine ⟨iff_of_false hfailed fun h => Int32.not_le.mpr hsock h.2.1, hsockOf, hcli, hmemory,
        hst, hexecuted, ?_⟩
      rw [StartAnswers.held, heldIf, heldIf, if_neg fun h => h.2 hsock, if_pos hctl]
      exact hcreated
    next hsock =>
      have hheld : k.held = .socket k.socket :: .netCtl :: k.netHeld := by
        rw [StartAnswers.held, heldIf, heldIf, if_pos ⟨hctl, hsock⟩, if_pos hctl]
        rfl
      have hsocket : .socket k.socket ∈ k.held := hheld ▸ List.mem_cons_self
      have hnetCtl : .netCtl ∈ k.held := hheld ▸ List.mem_cons_of_mem _ List.mem_cons_self
      have hbound : Started k st
          ({ (initsNet k { st := st }).keepsBooks [.acquire .netCtl] with
            emmcSock := k.socket }.keepsBooks
              [.acquire (.socket k.socket), .use (.socket k.socket)]) := by
        refine ⟨hsockOf, hcli, hmemory, hst, hexecuted, ?_⟩
        rw [hheld]
        have hcalls : Leads (.netCtl :: k.netHeld)
            [.acquire (.socket k.socket), .use (.socket k.socket)]
            (.socket k.socket :: .netCtl :: k.netHeld) :=
          ⟨⟨trivial, List.mem_cons_self, trivial⟩, rfl⟩
        exact hcreated.keeps rfl hcalls
          (List.forall_mem_cons.mpr ⟨trivial, List.forall_mem_singleton.mpr trivial⟩)
      split
      next hbind => exact ⟨iff_of_false hfailed fun h => Int32.not_le.mpr hbind h.2.2.1, hbound⟩
      next hbind =>
        have hasked := hbound.uses hnetCtl
        split
        next hinfo =>
          exact ⟨iff_of_false hfailed fun h => Int32.not_le.mpr hinfo h.2.2.2.1, hasked⟩
        next hinfo =>
          have hlistening := hasked.uses hsocket
          split
          next hlisten =>
            exact ⟨iff_of_false hfailed fun h => Int32.not_le.mpr hlisten h.2.2.2.2, hlistening⟩
          next hlisten =>
            have hall : k.Listens := ⟨Int32.not_lt.mp hctl, Int32.not_lt.mp hsock,
              Int32.not_lt.mp hbind, Int32.not_lt.mp hinfo, Int32.not_lt.mp hlisten⟩
            exact ⟨iff_of_true (Int32.le_refl 0) hall, hlistening⟩

/-- What `deinit_net` closes, in order. -/
def closing (p : Process) : List ServerResource :=
  heldIf (p.cliSock ≠ 0) (.socket p.cliSock) ++ heldIf (p.emmcSock ≠ 0) (.socket p.emmcSock) ++
    [.netCtl, .net] ++ heldIf (p.netMemory ≠ 0) (.netMemory p.netMemory)

theorem closesClient_eq (p : Process) : p.closesClient =
    { p with
      cliSock := 0
      books := p.books ++ (heldIf (p.cliSock ≠ 0) (.socket p.cliSock)).map .release } := by
  rw [closesClient, heldIf]
  split
  next => rfl
  next hzero =>
    rw [List.map_nil, List.append_nil, ← not_not.mp hzero]

theorem closesServer_eq (p : Process) : p.closesServer =
    { p with
      emmcSock := 0
      books := p.books ++ (heldIf (p.emmcSock ≠ 0) (.socket p.emmcSock)).map .release } := by
  rw [closesServer, heldIf]
  split
  next => rfl
  next hzero =>
    rw [List.map_nil, List.append_nil, ← not_not.mp hzero]

theorem freesMemory_eq (p : Process) : p.freesMemory =
    { p with
      netMemory := 0
      books := p.books ++ (heldIf (p.netMemory ≠ 0) (.netMemory p.netMemory)).map .release } := by
  rw [freesMemory, heldIf]
  split
  next => rfl
  next hzero =>
    rw [List.map_nil, List.append_nil, ← not_not.mp hzero]

theorem deinitNet_eq (p : Process) : p.deinitNet =
    { st := p.st, executed := p.executed, books := p.books ++ p.closing.map .release } := by
  rw [deinitNet, closesClient_eq, closesServer_eq, keepsBooks, freesMemory_eq, closing]
  simp only [List.map_append, List.append_assoc]
  rfl

end Process

/-- Everything that is asked for is granted, and the socket is not `0`. -/
def StartAnswers.Granted (k : StartAnswers) : Prop :=
  k.notInit = true ∧ 0 ≤ k.netInit ∧ 0 ≤ k.netCtlInit ∧ k.socket ≠ 0

namespace Process

/-- The clients that a server with these answers serves. -/
def clients (k : StartAnswers) (as : List AcceptAnswer) : List AcceptAnswer :=
  if ¬ k.NetMissing ∧ k.Listens then served as else []

/-- `main` gives up, or fails to listen, or serves. -/
theorem serverMain_cases (k : StartAnswers) (as : List AcceptAnswer) (st : St) :
    (k.NetMissing ∧ serverMain k as { st := st } = (some 1, { st := st })) ∨
    (¬ k.NetMissing ∧ ¬ k.Listens ∧
      serverMain k as { st := st } = (some 0, (initNet k { st := st }).2.deinitNet)) ∨
    (¬ k.NetMissing ∧ k.Listens ∧
      serverMain k as { st := st } =
        let q := (initNet k { st := st }).2.acceptSingleConnection as
        if q.1 then (some 0, q.2.deinitNet) else (none, q.2)) := by
  obtain ⟨hlistens, -⟩ := initNet_started k st
  by_cases hmissing : k.NetMissing
  · exact Or.inl ⟨hmissing, if_pos hmissing⟩
  · right
    have hmain : serverMain k as { st := st } = _ := if_neg hmissing
    by_cases hlisten : k.Listens
    · right
      refine ⟨hmissing, hlisten, hmain.trans ?_⟩
      dsimp only
      rw [if_pos (hlistens.mpr hlisten)]
    · left
      refine ⟨hmissing, hlisten, hmain.trans ?_⟩
      dsimp only
      rw [if_neg fun h => hlisten (hlistens.mp h)]
      rfl

/-- **A process is a run.**  Whatever is answered, a server process takes the system through a
restart and then, for each client that it serves, a connection and its rounds, of which the last
alone does not go on; there are no more of them than the client sends bytes.  It executes the
requests of these rounds, and ends exactly when it cannot listen or an accept fails. -/
theorem serverMain_runs (k : StartAnswers) (as : List AcceptAnswer) (st : St) :
    ∃ events, Sessions (st.step .restart) (clients k as) events ∧
      (serverMain k as { st := st.step .restart }).2.st =
        run St.step st (.restart :: events) ∧
      (serverMain k as { st := st.step .restart }).2.executed =
        trace St.step executedIn st (.restart :: events) ∧
      ((serverMain k as { st := st.step .restart }).1.isSome = true ↔
        k.NetMissing ∨ ¬ k.Listens ∨ ∃ a ∈ as, a.sock < 0) := by
  obtain ⟨-, hstarted⟩ := initNet_started k (st.step .restart)
  rcases serverMain_cases k as (st.step .restart) with
    ⟨hmissing, hmain⟩ | ⟨hmissing, hlisten, hmain⟩ | ⟨hmissing, hlisten, hmain⟩
  · rw [hmain, clients, if_neg fun h => h.1 hmissing]
    exact ⟨[], rfl, rfl, rfl, iff_of_true rfl (Or.inl hmissing)⟩
  · rw [hmain, clients, if_neg fun h => hlisten h.2, deinitNet_eq, hstarted.st, hstarted.executed]
    exact ⟨[], rfl, rfl, rfl, iff_of_true rfl (Or.inr (Or.inl hlisten))⟩
  · obtain ⟨events, hsessions, hst, hexecuted⟩ :=
      acceptSingleConnection_runs as (initNet k { st := st.step .restart }).2
    have hreturns :=
      acceptSingleConnection_returns_iff as (initNet k { st := st.step .restart }).2
    rw [hstarted.st] at hsessions hst hexecuted
    rw [hstarted.executed, List.nil_append] at hexecuted
    rw [hmain, clients, if_pos ⟨hmissing, hlisten⟩]
    refine ⟨events, hsessions, ?_⟩
    dsimp only
    split
    next hreturned =>
      rw [deinitNet_eq]
      exact ⟨hst, hexecuted,
        iff_of_true rfl (Or.inr (Or.inr (hreturns.mp hreturned)))⟩
    next hwaits =>
      refine ⟨hst, hexecuted, iff_of_false Bool.false_ne_true ?_⟩
      rintro (h | h | h)
      · exact hmissing h
      · exact h hlisten
      · exact hwaits (hreturns.mpr h)

/-- Everything is granted. -/
def listening : StartAnswers where
  isLoaded := true
  loadModule := 0
  notInit := true
  malloc := 0x1000
  netInit := 0
  netCtlInit := 0
  socket := 3
  bind := 0
  getInfo := 0
  listen := 0

end Process

end PsvEmmc
