/-
# `PsvEmmc.Driver.NetLifetime` — the driver is unloaded while its listener runs

`init_net` creates a mutex and starts the listen thread, which creates the
server socket and accepts one client; `deinit_net` deletes the mutex, waits for
the thread, deletes it and closes the sockets.  Nothing asks the thread to end.
It ends when a call fails that it makes for the socket, and never once it has
accepted a client, for then it waits until the connection is dropped, and none
is.  So the driver can be unloaded exactly as long as no client was accepted
(`unload_ends_iff`).

Where it is unloaded, everything was released that was acquired exactly when the
kernel granted the mutex, the thread and the socket, and the mutex was locked
and unlocked only while it was there (`unload_balanced_iff`).  A lock and its
unlock are two steps, and the result of a lock is not looked at: `deinit_net`
deletes a mutex that is held, and the thread that holds it unlocks it after
that.
-/
import PsvEmmc.Driver.Net
import PsvEmmc.Lib.Ledger

namespace PsvEmmc

open Runs Ledger

/-! ## The two threads -/

/-- What `module_start` and `module_stop` do next. -/
inductive MainPc where
  | createsMutex
  | createsThread
  | startsThread
  | runs
  | waits
  | deletesThread
  | closesClient
  | closesServer
  | stopped
  deriving DecidableEq

/-- What `ConnListenThread` does next; `locks` and `unlocks` say what it does after them. -/
inductive ListenPc where
  | dormant
  | creates
  | binds
  | listens
  | locks (next : ListenPc)
  | checks
  | sets
  | pings
  | unlocks (next : ListenPc)
  | accepts
  | ended
  deriving DecidableEq

/-- Where a thread is in `send_message_to_client`. -/
inductive CallPc where
  | outside
  | locked (msg : List UInt8)
  | sent
  deriving DecidableEq

structure NetLife (τ : Type*) where
  connInitMutexId : Int32 := -1
  connListenThid : Int32 := -1
  serverSock : Int32 := 0
  net : Net := {}
  main : MainPc := .createsMutex
  listener : ListenPc := .dormant
  callers : τ → CallPc := fun _ => .outside

/-- The steps, with what the kernel answers; first those of `module_start` and `module_stop`, then
those of the listen thread, with `pings` for what `send_message_to_client` does between its lock
and its unlock, and last those of the other threads that call it. -/
inductive LifeStep (τ : Type*) where
  | createsMutex (id : Int32)
  | createsThread (id : Int32)
  | startsThread (res : Int32)
  /-- `module_stop` is called, and `deinit_listen_mutex` deletes the mutex. -/
  | stops
  | waits
  | deletesThread
  | closesClient
  | closesServer
  | creates (sock : Int32)
  | binds (res : Int32)
  | listens (res : Int32)
  | locks
  | checks
  | sets
  | pings (fuel : Nat) (answer : Nat → Int)
  | unlocks
  | accepts (clsock : Int32)
  /-- A thread calls `send_message_to_client`, which locks the mutex if it takes the message. -/
  | calls (t : τ) (msg : List UInt8)
  | sends (t : τ) (fuel : Nat) (msg : List UInt8) (answer : Nat → Int)
  /-- The call unlocks the mutex and returns. -/
  | leaves (t : τ)

section
variable {τ : Type*} [DecidableEq τ]

/-- A client is accepted. -/
def LifeStep.Accepts : LifeStep τ → Prop
  | .accepts clsock => 0 ≤ clsock
  | _ => False

/-- The kernel gives what is asked for. -/
def LifeStep.Granted : LifeStep τ → Prop
  | .createsMutex id => 0 ≤ id
  | .createsThread id => 0 ≤ id
  | .creates sock => 0 < sock
  | _ => True

/-- The mutex is locked or unlocked. -/
def LifeStep.UsesMutex : LifeStep τ → Prop
  | .locks => True
  | .unlocks => True
  | .calls _ msg => msg.length ≤ msgSize
  | .leaves _ => True
  | _ => False

/-- The mutex was created and not deleted. -/
def MainPc.hasMutex : MainPc → Bool
  | .createsThread => true
  | .startsThread => true
  | .runs => true
  | _ => false

/-- The thread was created and not deleted. -/
def MainPc.hasThread : MainPc → Bool
  | .startsThread => true
  | .runs => true
  | .waits => true
  | .deletesThread => true
  | _ => false

/-- After a lock or an unlock. -/
def ListenPc.next : ListenPc → ListenPc
  | .locks next => next
  | .unlocks next => next
  | pc => pc

/-- What the thread does once it has locked or unlocked the mutex. -/
def ListenPc.target : ListenPc → ListenPc
  | .locks next => next.target
  | .unlocks next => next.target
  | pc => pc

@[simp] theorem ListenPc.target_next (pc : ListenPc) : pc.next.target = pc.target := by
  cases pc <;> rfl

/-- `ksceNetAccept` returns `clsock`. -/
def Net.afterAccept (s : Net) (clsock : Int32) : Net :=
  if clsock < 0 then { s with listening := false }
  else { s with clientSock := clsock, conns := {} :: s.conns }

namespace NetLife

/-- `send_message_to_client` between its lock and its unlock.  Of what is on the connection
nothing is used here. -/
def onMessage (s : NetLife τ) (fuel : Nat) (msg : List UInt8) (answer : Nat → Int) : NetLife τ :=
  { s with net := ((sendMessageToClient fuel msg answer s.net).map Prod.snd).getD s.net }

def step (s : NetLife τ) : LifeStep τ → NetLife τ
  | .createsMutex id =>
      -- `init_net` fails, and `module_start` does not look at it.
      { s with connInitMutexId := id, main := if id < 0 then .runs else .createsThread }
  | .createsThread id =>
      { s with connListenThid := id, main := if id < 0 then .runs else .startsThread }
  | .startsThread res =>
      { s with main := .runs, listener := if res < 0 then .dormant else .creates }
  | .stops => { s with main := .waits }
  | .waits => { s with main := .deletesThread }
  | .deletesThread => { s with main := .closesClient }
  | .closesClient => { s with net := closeClientSock s.net, main := .closesServer }
  | .closesServer => { s with serverSock := 0, main := .stopped }
  | .creates sock =>
      { s with serverSock := sock, listener := if sock < 0 then .ended else .binds }
  | .binds res => { s with listener := if res < 0 then .ended else .listens }
  | .listens res => { s with listener := if res < 0 then .ended else .locks .checks }
  | .locks => { s with listener := s.listener.next }
  | .checks =>
      { s with
        listener := .unlocks (if s.net.connInitialized = 1 then .locks .checks else .accepts) }
  | .sets =>
      { s with net := { s.net with connInitialized := 1 }, listener := .unlocks (.locks .pings) }
  | .pings fuel answer =>
      { s.onMessage fuel pingMessage answer with listener := .unlocks (.locks .checks) }
  | .unlocks => { s with listener := s.listener.next }
  | .accepts clsock =>
      { s with
        net := s.net.afterAccept clsock
        listener := if clsock < 0 then .ended else .locks .sets }
  | .calls t msg =>
      { s with
        callers :=
          if msg.length ≤ msgSize then Function.update s.callers t (.locked msg) else s.callers }
  | .sends t fuel msg answer =>
      { s.onMessage fuel msg answer with callers := Function.update s.callers t .sent }
  | .leaves t => { s with callers := Function.update s.callers t .outside }

/-- A thread takes its own next step.  `ksceKernelWaitThreadEnd` returns when the thread does not
run, and a message is sent when the whole message is. -/
def Enabled (s : NetLife τ) : LifeStep τ → Prop
  | .createsMutex _ => s.main = .createsMutex
  | .createsThread _ => s.main = .createsThread
  | .startsThread _ => s.main = .startsThread
  | .stops => s.main = .runs
  | .waits => s.main = .waits ∧ (s.listener = .dormant ∨ s.listener = .ended)
  | .deletesThread => s.main = .deletesThread
  | .closesClient => s.main = .closesClient
  | .closesServer => s.main = .closesServer
  | .creates _ => s.listener = .creates
  | .binds _ => s.listener = .binds
  | .listens _ => s.listener = .listens
  | .locks => ∃ next, s.listener = .locks next
  | .checks => s.listener = .checks
  | .sets => s.listener = .sets
  | .pings fuel answer =>
      s.listener = .pings ∧ (sendMessageToClient fuel pingMessage answer s.net).isSome = true
  | .unlocks => ∃ next, s.listener = .unlocks next
  | .accepts _ => s.listener = .accepts
  | .calls t _ => s.callers t = .outside
  | .sends t fuel msg answer =>
      s.callers t = .locked msg ∧ (sendMessageToClient fuel msg answer s.net).isSome = true
  | .leaves t => s.callers t = .sent

end NetLife

/-! ## No connection is dropped -/

theorem sendMessageToClient_keeps {fuel : Nat} {msg : List UInt8} {answer : Nat → Int} {s : Net}
    {r : Int32 × Net} (h : sendMessageToClient fuel msg answer s = some r) :
    r.2.connInitialized = s.connInitialized ∧ r.2.clientSock = s.clientSock := by
  by_cases hmsg : msgSize < msg.length
  · rw [sendMessageToClient, if_pos hmsg] at h
    cases h
    exact ⟨rfl, rfl⟩
  by_cases hs : s.connInitialized = 1
  · have hmap := sendMessageToClient_of_connected hs (not_lt.mp hmsg) fuel answer
    rw [h, Option.map_some] at hmap
    obtain ⟨r', _, hr'⟩ := Option.map_eq_some_iff.mp hmap.symm
    rw [← hr']
    exact ⟨rfl, rfl⟩
  · rw [sendMessageToClient, if_neg hmsg, if_neg hs] at h
    cases h
    exact ⟨rfl, rfl⟩

namespace NetLife

omit [DecidableEq τ] in
theorem connInitialized_onMessage (s : NetLife τ) (fuel : Nat) (msg : List UInt8)
    (answer : Nat → Int) :
    (s.onMessage fuel msg answer).net.connInitialized = s.net.connInitialized := by
  rw [onMessage]
  cases h : sendMessageToClient fuel msg answer s.net with
  | none => rfl
  | some r => exact (sendMessageToClient_keeps h).1

omit [DecidableEq τ] in
theorem clientSock_onMessage (s : NetLife τ) (fuel : Nat) (msg : List UInt8)
    (answer : Nat → Int) :
    (s.onMessage fuel msg answer).net.clientSock = s.net.clientSock := by
  rw [onMessage]
  cases h : sendMessageToClient fuel msg answer s.net with
  | none => rfl
  | some r => exact (sendMessageToClient_keeps h).2

/-- A round of the listen thread is `acceptRound`. -/
theorem acceptRound_eq_run {s : NetLife τ} (hlisten : s.net.listening = true)
    (hs : s.net.connInitialized ≠ 1) {fuel : Nat} {clsock : Int32} {answer : Nat → Int}
    {net' : Net} (h : acceptRound fuel clsock answer s.net = some net') :
    net' = (run step s (if clsock < 0 then [.locks, .checks, .unlocks, .accepts clsock]
      else [.locks, .checks, .unlocks, .accepts clsock, .locks, .sets, .unlocks, .locks,
        .pings fuel answer, .unlocks])).net := by
  rw [acceptRound, if_neg (by simp [hlisten]), if_neg hs] at h
  by_cases hsock : clsock < 0
  · rw [if_pos hsock] at h ⊢
    cases h
    simp only [run, step, Net.afterAccept, if_pos hsock]
  · rw [if_neg hsock] at h ⊢
    simp only [run, step, Net.afterAccept, if_neg hsock, onMessage]
    rw [h]
    rfl

/-! ## How far the threads are -/

/-- `module_stop` has seen the thread end. -/
def Waited (s : NetLife τ) : Prop :=
  s.main = .deletesThread ∨ s.main = .closesClient ∨ s.main = .closesServer ∨ s.main = .stopped

/-- The thread was not started yet. -/
def Starting (s : NetLife τ) : Prop :=
  s.main = .createsMutex ∨ s.main = .createsThread ∨ s.main = .startsThread

structure InStep (s : NetLife τ) : Prop where
  waited : s.Waited → s.listener = .dormant ∨ s.listener = .ended
  starting : s.Starting → s.listener = .dormant

omit [DecidableEq τ] in
theorem inStep_boot : InStep ({} : NetLife τ) where
  waited _ := Or.inl rfl
  starting _ := rfl

theorem InStep.step {s : NetLife τ} (h : InStep s) {e : LifeStep τ} (he : s.Enabled e) :
    InStep (s.step e) := by
  obtain ⟨hwaited, hstarting⟩ := h
  have hnext : (s.Waited → s.listener.next = .dormant ∨ s.listener.next = .ended) ∧
      (s.Starting → s.listener.next = .dormant) := by
    refine ⟨fun hw => ?_, fun hs => ?_⟩
    · rcases hwaited hw with hl | hl <;> rw [hl]
      · exact Or.inl rfl
      · exact Or.inr rfl
    · rw [hstarting hs]
      rfl
  cases e with
  | locks => exact ⟨hnext.1, hnext.2⟩
  | unlocks => exact ⟨hnext.1, hnext.2⟩
  | _ => constructor <;> simp_all [NetLife.step, Enabled, Waited, Starting, onMessage]

theorem inStep_run {es : List (LifeStep τ)} (hes : Along step Enabled {} es) :
    InStep (run step {} es) :=
  inv_run (fun _ _ h he => h.step he) inStep_boot hes

/-! ## Whether the driver can be unloaded -/

/-- No client was accepted. -/
structure Alone (s : NetLife τ) : Prop where
  connInitialized : s.net.connInitialized = 0
  clientSock : s.net.clientSock = 0
  listener : s.listener.target ≠ .sets ∧ s.listener.target ≠ .pings

/-- The listen thread has a client, and looks for ever whether it still has. -/
def Caught (s : NetLife τ) : Prop :=
  s.listener.target = .sets ∨
    s.net.connInitialized = 1 ∧ (s.listener.target = .pings ∨ s.listener.target = .checks)

theorem closeClientSock_of_zero {s : Net} (h : s.clientSock = 0) : closeClientSock s = s :=
  if_pos h

theorem connInitialized_closeClientSock (s : Net) :
    (closeClientSock s).connInitialized = s.connInitialized := by
  rw [closeClientSock]
  split <;> rfl

theorem Alone.step {s : NetLife τ} (h : Alone s) {e : LifeStep τ} (he : s.Enabled e)
    (haccepts : ¬ e.Accepts) : Alone (s.step e) := by
  obtain ⟨hconn, hsock, hsets, hpings⟩ := h
  cases e with
  | accepts clsock =>
      have hneg : clsock < 0 := Int32.not_le.mp haccepts
      refine ⟨?_, ?_, ?_⟩
      · simpa [NetLife.step, Net.afterAccept, hneg] using hconn
      · simpa [NetLife.step, Net.afterAccept, hneg] using hsock
      · simp [NetLife.step, hneg, ListenPc.target]
  | closesClient =>
      refine ⟨?_, ?_, hsets, hpings⟩
      · exact (connInitialized_closeClientSock _).trans hconn
      · simp only [NetLife.step, closeClientSock_of_zero hsock, hsock]
  | sets => exact absurd (congrArg ListenPc.target he) hsets
  | pings fuel answer => exact absurd (congrArg ListenPc.target he.1) hpings
  | sends t fuel msg answer =>
      exact ⟨(connInitialized_onMessage ..).trans hconn, (clientSock_onMessage ..).trans hsock,
        hsets, hpings⟩
  | locks => exact ⟨hconn, hsock, by simpa [NetLife.step] using ⟨hsets, hpings⟩⟩
  | unlocks => exact ⟨hconn, hsock, by simpa [NetLife.step] using ⟨hsets, hpings⟩⟩
  | startsThread res =>
      exact ⟨hconn, hsock, by simp only [NetLife.step]; split <;> simp [ListenPc.target]⟩
  | creates sock =>
      exact ⟨hconn, hsock, by simp only [NetLife.step]; split <;> simp [ListenPc.target]⟩
  | binds res =>
      exact ⟨hconn, hsock, by simp only [NetLife.step]; split <;> simp [ListenPc.target]⟩
  | listens res =>
      exact ⟨hconn, hsock, by simp only [NetLife.step]; split <;> simp [ListenPc.target]⟩
  | checks =>
      exact ⟨hconn, hsock, by simp only [NetLife.step]; split <;> simp [ListenPc.target]⟩
  | _ => exact ⟨hconn, hsock, hsets, hpings⟩

omit [DecidableEq τ] in
theorem alone_boot : Alone ({} : NetLife τ) := ⟨rfl, rfl, nofun, nofun⟩

theorem alone_run {es : List (LifeStep τ)} (hes : Along step Enabled {} es)
    (hnone : ∀ e ∈ es, ¬ e.Accepts) : Alone (run step {} es) :=
  inv_run (fun _ _ h he => h.step he.1 he.2) alone_boot
    (hes.and (along_of_mem fun e he _ => hnone e he))

theorem Caught.step {s : NetLife τ} (hin : InStep s) (h : Caught s) {e : LifeStep τ}
    (he : s.Enabled e) : Caught (s.step e) := by
  -- a step of the thread that is not due while it is caught
  have hnot : ∀ {pc : ListenPc}, s.listener = pc → pc.target ≠ .sets → pc.target ≠ .pings →
      pc.target ≠ .checks → Caught (s.step e) := by
    rintro pc rfl hsets hpings hchecks
    rcases h with hl | ⟨_, hl | hl⟩
    · exact absurd hl hsets
    · exact absurd hl hpings
    · exact absurd hl hchecks
  cases e with
  | startsThread res =>
      exact hnot (hin.starting (Or.inr (Or.inr he))) (by decide) (by decide) (by decide)
  | creates sock => exact hnot he (by decide) (by decide) (by decide)
  | binds res => exact hnot he (by decide) (by decide) (by decide)
  | listens res => exact hnot he (by decide) (by decide) (by decide)
  | accepts clsock => exact hnot he (by decide) (by decide) (by decide)
  | locks => simpa [Caught, NetLife.step] using h
  | unlocks => simpa [Caught, NetLife.step] using h
  | closesClient =>
      refine h.imp_right fun hconn => ⟨?_, hconn.2⟩
      exact (connInitialized_closeClientSock _).trans hconn.1
  | sends t fuel msg answer =>
      exact h.imp_right fun hconn => ⟨(connInitialized_onMessage ..).trans hconn.1, hconn.2⟩
  | sets => exact Or.inr ⟨rfl, Or.inl rfl⟩
  | pings fuel answer =>
      rcases h with hsets | ⟨hconn, _⟩
      · cases (congrArg ListenPc.target he.1).symm.trans hsets
      · exact Or.inr ⟨(connInitialized_onMessage ..).trans hconn, Or.inr rfl⟩
  | checks =>
      rcases h with hsets | ⟨hconn, _⟩
      · cases (congrArg ListenPc.target he).symm.trans hsets
      · refine Or.inr ⟨hconn, Or.inr ?_⟩
        simp only [NetLife.step, if_pos hconn]
        rfl
  | _ => exact h

omit [DecidableEq τ] in
/-- While it has a client `module_stop` waits. -/
theorem Caught.not_waited {s : NetLife τ} (hin : InStep s) (h : Caught s) : ¬ s.Waited := by
  intro hwaited
  rcases hin.waited hwaited with hl | hl <;> simp [Caught, hl, ListenPc.target] at h

/-- A thread that has no client can still be answered with an error. -/
theorem Alone.reaches_end {s : NetLife τ} (h : Alone s) :
    Reaches NetLife.step Enabled s fun s => s.listener = .dormant ∨ s.listener = .ended := by
  have haccepts : ∀ s : NetLife τ, s.listener = .accepts →
      Reaches NetLife.step Enabled s fun s => s.listener = .dormant ∨ s.listener = .ended :=
    fun s hs => .after (e := .accepts (-1)) hs (.here (Or.inr rfl))
  -- by induction on the locks and unlocks before its next step
  generalize hl : s.listener = pc
  induction pc generalizing s with
  | dormant => exact .here (Or.inl hl)
  | creates => exact .after (e := .creates (-1)) hl (.here (Or.inr rfl))
  | binds => exact .after (e := .binds (-1)) hl (.here (Or.inr rfl))
  | listens => exact .after (e := .listens (-1)) hl (.here (Or.inr rfl))
  | locks next ih =>
      exact .after (e := .locks) ⟨next, hl⟩
        (ih (h.step (e := .locks) ⟨next, hl⟩ nofun) (congrArg ListenPc.next hl))
  | checks =>
      refine .after (e := .checks) hl (.after (e := .unlocks) ⟨_, rfl⟩ (haccepts _ (if_neg ?_)))
      rw [h.connInitialized]
      decide
  | sets => exact absurd (congrArg ListenPc.target hl) h.listener.1
  | pings => exact absurd (congrArg ListenPc.target hl) h.listener.2
  | unlocks next ih =>
      exact .after (e := .unlocks) ⟨next, hl⟩
        (ih (h.step (e := .unlocks) ⟨next, hl⟩ nofun) (congrArg ListenPc.next hl))
  | accepts => exact haccepts s hl
  | ended => exact .here (Or.inr hl)

/-- Then nothing keeps `module_stop` from its end. -/
theorem reaches_stopped {s : NetLife τ} (h : s.listener = .dormant ∨ s.listener = .ended) :
    Reaches step Enabled s fun s => s.main = .stopped := by
  have hserver : ∀ s : NetLife τ, s.main = .closesServer →
      Reaches step Enabled s fun s => s.main = .stopped :=
    fun s hs => .after (e := .closesServer) hs (.here rfl)
  have hclient : ∀ s : NetLife τ, s.main = .closesClient →
      Reaches step Enabled s fun s => s.main = .stopped :=
    fun s hs => .after (e := .closesClient) hs (hserver _ rfl)
  have hdeletes : ∀ s : NetLife τ, s.main = .deletesThread →
      Reaches step Enabled s fun s => s.main = .stopped :=
    fun s hs => .after (e := .deletesThread) hs (hclient _ rfl)
  have hwaits : ∀ s : NetLife τ, s.main = .waits → (s.listener = .dormant ∨ s.listener = .ended) →
      Reaches step Enabled s fun s => s.main = .stopped :=
    fun s hs hl => .after (e := .waits) ⟨hs, hl⟩ (hdeletes _ rfl)
  have hruns : ∀ s : NetLife τ, s.main = .runs → (s.listener = .dormant ∨ s.listener = .ended) →
      Reaches step Enabled s fun s => s.main = .stopped :=
    fun s hs hl => .after (e := .stops) hs (hwaits _ rfl hl)
  cases hm : s.main with
  | createsMutex => exact .after (e := .createsMutex (-1)) hm (hruns _ rfl h)
  | createsThread => exact .after (e := .createsThread (-1)) hm (hruns _ rfl h)
  | startsThread => exact .after (e := .startsThread (-1)) hm (hruns _ rfl (Or.inl rfl))
  | runs => exact hruns s hm h
  | waits => exact hwaits s hm h
  | deletesThread => exact hdeletes s hm
  | closesClient => exact hclient s hm
  | closesServer => exact hserver s hm
  | stopped => exact .here hm

/-- A driver that accepted a client is never unloaded. -/
theorem not_accepted_of_reaches {es : List (LifeStep τ)} (hes : Along step Enabled {} es)
    (hreach : Reaches step Enabled (run step {} es) fun s => s.main = .stopped) :
    ∀ clsock, LifeStep.accepts clsock ∈ es → clsock < 0 := by
  intro clsock hmem
  by_contra hsock
  have hinv : ∀ (s : NetLife τ) e, InStep s ∧ Caught s → s.Enabled e →
      InStep (step s e) ∧ Caught (step s e) :=
    fun s e h he => ⟨h.1.step he, h.2.step h.1 he⟩
  obtain ⟨p, q, rfl⟩ := List.append_of_mem hmem
  obtain ⟨hp, he, hq⟩ := along_append.mp hes
  have hcaught : Caught (step (run step {} p) (.accepts clsock)) :=
    Or.inl (congrArg ListenPc.target (if_neg hsock))
  rw [run_append, run_cons] at hreach
  refine not_reaches_of_inv hinv (fun s h hstop => ?_)
    (inv_run hinv ⟨(inStep_run hp).step he, hcaught⟩ hq) hreach
  exact h.2.not_waited h.1 (Or.inr (Or.inr (Or.inr hstop)))

/-- **When can the driver still be unloaded?**  As long as the listen thread accepted no client. -/
theorem unload_ends_iff {es : List (LifeStep τ)} (hes : Along step Enabled {} es) :
    Reaches step Enabled (run step {} es) (fun s => s.main = .stopped) ↔
      ∀ clsock, LifeStep.accepts clsock ∈ es → clsock < 0 := by
  constructor
  · exact not_accepted_of_reaches hes
  · intro hnone
    refine (alone_run hes fun e he haccepts => ?_).reaches_end.trans fun s hs => reaches_stopped hs
    cases e with
    | accepts clsock => exact absurd (hnone clsock he) (Int32.not_lt.mpr haccepts)
    | _ => exact haccepts

/-- The driver is started, and a client connects. -/
def oneClient : List (LifeStep Unit) :=
  [.createsMutex 1, .createsThread 2, .startsThread 0, .creates 3, .binds 0, .listens 0, .locks,
    .checks, .unlocks, .accepts 4]

theorem unload_hangs :
    ¬ Reaches step Enabled (run step {} oneClient) fun s => s.main = .stopped := by
  have hes : Along step Enabled {} oneClient :=
    ⟨rfl, rfl, rfl, rfl, rfl, rfl, ⟨_, rfl⟩, rfl, ⟨_, rfl⟩, rfl, trivial⟩
  rw [unload_ends_iff hes]
  exact fun hnone => absurd (hnone 4 (by simp [oneClient])) (by decide)

/-! ## What is released -/

inductive NetResource where
  | mutex (id : Int32)
  | thread (id : Int32)
  | socket (sock : Int32)
  deriving DecidableEq

/-- A message is sent on the socket of the client, if there is one. -/
def sendLetter (s : NetLife τ) : Option (Entry NetResource) :=
  if s.net.connInitialized = 1 then some (.use (.socket s.net.clientSock)) else none

/-- What a step acquires, uses or releases.  A call with an answer below `0` acquires nothing, and
a socket is closed when it is not `0`. -/
def letter (s : NetLife τ) : LifeStep τ → Option (Entry NetResource)
  | .createsMutex id => if id < 0 then none else some (.acquire (.mutex id))
  | .createsThread id => if id < 0 then none else some (.acquire (.thread id))
  | .startsThread _ => some (.use (.thread s.connListenThid))
  | .stops => some (.release (.mutex s.connInitMutexId))
  | .waits => some (.use (.thread s.connListenThid))
  | .deletesThread => some (.release (.thread s.connListenThid))
  | .closesClient =>
      if s.net.clientSock = 0 then none else some (.release (.socket s.net.clientSock))
  | .closesServer => if s.serverSock = 0 then none else some (.release (.socket s.serverSock))
  | .creates sock => if sock < 0 then none else some (.acquire (.socket sock))
  | .binds _ => some (.use (.socket s.serverSock))
  | .listens _ => some (.use (.socket s.serverSock))
  | .locks => some (.use (.mutex s.connInitMutexId))
  | .checks => none
  | .sets => none
  | .pings _ _ => s.sendLetter
  | .unlocks => some (.use (.mutex s.connInitMutexId))
  | .accepts clsock =>
      if clsock < 0 then some (.use (.socket s.serverSock)) else some (.acquire (.socket clsock))
  | .calls _ msg => if msg.length ≤ msgSize then some (.use (.mutex s.connInitMutexId)) else none
  | .sends _ _ _ _ => s.sendLetter
  | .leaves _ => some (.use (.mutex s.connInitMutexId))

def ownSocket (sock : Int32) : List NetResource := if sock = 0 then [] else [.socket sock]

@[simp] theorem ownSocket_zero : ownSocket 0 = [] := if_pos rfl

theorem ownSocket_of_ne {sock : Int32} (h : sock ≠ 0) : ownSocket sock = [.socket sock] :=
  if_neg h

/-- What there is when everything is granted. -/
def live (s : NetLife τ) : List NetResource :=
  ownSocket s.serverSock ++
    (if s.main.hasThread then [.thread s.connListenThid] else []) ++
    (if s.main.hasMutex then [.mutex s.connInitMutexId] else [])

/-- The server socket is there from its creation to the end. -/
structure Served (s : NetLife τ) : Prop where
  before : s.listener.target = .dormant ∨ s.listener.target = .creates → s.serverSock = 0
  during : s.listener.target = .binds ∨ s.listener.target = .listens ∨
    s.listener.target = .checks ∨ s.listener.target = .accepts → s.serverSock ≠ 0
  after : s.main = .stopped → s.serverSock = 0

/-- A step of a run that is unloaded and in which everything is granted. -/
def Smooth (s : NetLife τ) (e : LifeStep τ) : Prop :=
  s.Enabled e ∧ e.Granted ∧ ¬ e.Accepts

omit [DecidableEq τ] in
theorem served_boot : Served ({} : NetLife τ) where
  before _ := rfl
  during h := by simp [ListenPc.target] at h
  after h := by cases h

theorem Served.step {s : NetLife τ} (hin : InStep s) (halone : Alone s) (h : Served s)
    {e : LifeStep τ} (he : Smooth s e) : Served (s.step e) := by
  obtain ⟨hbefore, hduring, hafter⟩ := h
  obtain ⟨hen, hgranted, haccepts⟩ := he
  cases e with
  | createsMutex id =>
      exact ⟨hbefore, hduring, fun h => by simp only [NetLife.step] at h; split at h <;> cases h⟩
  | createsThread id =>
      exact ⟨hbefore, hduring, fun h => by simp only [NetLife.step] at h; split at h <;> cases h⟩
  | startsThread res =>
      have hdormant := hin.starting (Or.inr (Or.inr hen))
      refine ⟨fun _ => hbefore (Or.inl (congrArg ListenPc.target hdormant)), fun h => ?_,
        fun h => by cases h⟩
      simp only [NetLife.step] at h
      split at h <;> simp [ListenPc.target] at h
  | closesServer =>
      refine ⟨fun _ => rfl, fun h => ?_, fun _ => rfl⟩
      rcases hin.waited (Or.inr (Or.inr (Or.inl hen))) with hl | hl <;>
        simp [NetLife.step, hl, ListenPc.target] at h
  | creates sock =>
      have hpos : 0 < sock := hgranted
      have hsock : sock ≠ 0 := fun h => Int32.lt_irrefl (h ▸ hpos)
      refine ⟨fun h => ?_, fun _ => hsock, fun hstop => ?_⟩
      · simp [NetLife.step, Int32.lt_asymm hpos, ListenPc.target] at h
      · have hrest := hin.waited (Or.inr (Or.inr (Or.inr hstop)))
        simp [show s.listener = .creates from hen] at hrest
  | binds res =>
      refine ⟨fun h => ?_, fun _ => hduring (Or.inl (congrArg ListenPc.target hen)), hafter⟩
      simp only [NetLife.step] at h
      split at h <;> simp [ListenPc.target] at h
  | listens res =>
      refine ⟨fun h => ?_, fun _ => hduring (Or.inr (Or.inl (congrArg ListenPc.target hen))),
        hafter⟩
      simp only [NetLife.step] at h
      split at h <;> simp [ListenPc.target] at h
  | locks => exact ⟨by simpa [NetLife.step] using hbefore, by simpa [NetLife.step] using hduring,
      hafter⟩
  | unlocks => exact ⟨by simpa [NetLife.step] using hbefore, by simpa [NetLife.step] using hduring,
      hafter⟩
  | checks =>
      refine ⟨fun h => ?_, fun _ => hduring (Or.inr (Or.inr (Or.inl
        (congrArg ListenPc.target hen)))), hafter⟩
      simp only [NetLife.step] at h
      split at h <;> simp [ListenPc.target] at h
  | accepts clsock =>
      have hneg : clsock < 0 := Int32.not_le.mp haccepts
      refine ⟨fun h => ?_, fun h => ?_, hafter⟩ <;>
        simp [NetLife.step, hneg, ListenPc.target] at h
  | sets => exact absurd (congrArg ListenPc.target hen) halone.listener.1
  | pings fuel answer => exact absurd (congrArg ListenPc.target hen.1) halone.listener.2
  | calls t msg => exact ⟨hbefore, hduring, hafter⟩
  | sends t fuel msg answer => exact ⟨hbefore, hduring, hafter⟩
  | leaves t => exact ⟨hbefore, hduring, hafter⟩
  | _ => exact ⟨hbefore, hduring, fun h => by cases h⟩

/-- What every state of such a run is like. -/
structure SmoothInv (s : NetLife τ) : Prop where
  inStep : InStep s
  alone : Alone s
  served : Served s

theorem SmoothInv.step {s : NetLife τ} (h : SmoothInv s) {e : LifeStep τ} (he : Smooth s e) :
    SmoothInv (s.step e) :=
  ⟨h.inStep.step he.1, h.alone.step he.1 he.2.2, h.served.step h.inStep h.alone he⟩

omit [DecidableEq τ] in
theorem smoothInv_boot : SmoothInv ({} : NetLife τ) := ⟨inStep_boot, alone_boot, served_boot⟩

/-- The letters tell what there is. -/
theorem live_step {s : NetLife τ} (h : SmoothInv s) {e : LifeStep τ} (he : Smooth s e) :
    (s.step e).live = (letter s e).elim s.live (Ledger.step s.live) := by
  obtain ⟨hen, hgranted, haccepts⟩ := he
  cases e with
  | createsMutex id =>
      have hnot : ¬ id < 0 := Int32.not_lt.mpr hgranted
      have hm : s.main = .createsMutex := hen
      have hsock := h.served.before
        (Or.inl (congrArg ListenPc.target (h.inStep.starting (Or.inl hen))))
      simp [live, letter, NetLife.step, hnot, hm, hsock, Ledger.step, MainPc.hasMutex,
        MainPc.hasThread]
  | createsThread id =>
      have hnot : ¬ id < 0 := Int32.not_lt.mpr hgranted
      have hm : s.main = .createsThread := hen
      have hsock := h.served.before
        (Or.inl (congrArg ListenPc.target (h.inStep.starting (Or.inr (Or.inl hen)))))
      simp [live, letter, NetLife.step, hnot, hm, hsock, Ledger.step, MainPc.hasMutex,
        MainPc.hasThread]
  | startsThread res =>
      have hm : s.main = .startsThread := hen
      simp [live, letter, NetLife.step, hm, Ledger.step, MainPc.hasMutex, MainPc.hasThread]
  | stops =>
      have hm : s.main = .runs := hen
      by_cases hsock : s.serverSock = 0
      · simp [live, letter, NetLife.step, hm, hsock, Ledger.step, MainPc.hasMutex,
          MainPc.hasThread]
      · simp [live, letter, NetLife.step, hm, ownSocket_of_ne hsock, Ledger.step,
          MainPc.hasMutex, MainPc.hasThread]
  | waits =>
      have hm : s.main = .waits := hen.1
      simp [live, letter, NetLife.step, hm, Ledger.step, MainPc.hasMutex, MainPc.hasThread]
  | deletesThread =>
      have hm : s.main = .deletesThread := hen
      by_cases hsock : s.serverSock = 0
      · simp [live, letter, NetLife.step, hm, hsock, Ledger.step, MainPc.hasMutex,
          MainPc.hasThread]
      · simp [live, letter, NetLife.step, hm, ownSocket_of_ne hsock, Ledger.step,
          MainPc.hasMutex, MainPc.hasThread]
  | closesClient =>
      have hm : s.main = .closesClient := hen
      simp [live, letter, NetLife.step, hm, h.alone.clientSock, MainPc.hasMutex,
        MainPc.hasThread]
  | closesServer =>
      have hm : s.main = .closesServer := hen
      by_cases hsock : s.serverSock = 0
      · simp [live, letter, NetLife.step, hm, hsock, MainPc.hasMutex, MainPc.hasThread]
      · simp [live, letter, NetLife.step, hm, hsock, ownSocket_of_ne hsock, Ledger.step,
          MainPc.hasMutex, MainPc.hasThread]
  | creates sock =>
      have hpos : 0 < sock := hgranted
      have hsock : sock ≠ 0 := fun h => Int32.lt_irrefl (h ▸ hpos)
      have hzero := h.served.before (Or.inr (congrArg ListenPc.target hen))
      simp [live, letter, NetLife.step, Int32.lt_asymm hpos, ownSocket_of_ne hsock, hzero,
        Ledger.step]
  | accepts clsock =>
      have hneg : clsock < 0 := Int32.not_le.mp haccepts
      rw [letter, if_pos hneg]
      rfl
  | pings fuel answer =>
      rw [letter, sendLetter]
      split <;> rfl
  | calls t msg =>
      rw [letter]
      split <;> rfl
  | sends t fuel msg answer =>
      rw [letter, sendLetter]
      split <;> rfl
  | _ => rfl

omit [DecidableEq τ] in
theorem mutex_mem_live (s : NetLife τ) :
    .mutex s.connInitMutexId ∈ s.live ↔ s.main.hasMutex = true := by
  have hsock : .mutex s.connInitMutexId ∉ ownSocket s.serverSock := by
    rw [ownSocket]
    split <;> simp
  simp [live, hsock]

omit [DecidableEq τ] in
theorem thread_mem_live {s : NetLife τ} (h : s.main.hasThread = true) :
    .thread s.connListenThid ∈ s.live := by
  simp [live, h]

omit [DecidableEq τ] in
theorem socket_mem_live {s : NetLife τ} (h : s.serverSock ≠ 0) :
    .socket s.serverSock ∈ s.live := by
  simp [live, ownSocket_of_ne h]

omit [DecidableEq τ] in
/-- Without a client nothing is sent. -/
theorem Alone.sendLetter {s : NetLife τ} (h : Alone s) : s.sendLetter = none := by
  rw [NetLife.sendLetter, h.connInitialized]
  exact if_neg (by decide)

omit [DecidableEq τ] in
/-- Every letter is legal when the mutex is locked and unlocked only while it is there. -/
theorem legal_letter_iff {s : NetLife τ} (h : SmoothInv s) {e : LifeStep τ} (he : Smooth s e) :
    (∀ a ∈ letter s e, Legal s.live a) ↔ (e.UsesMutex → s.main.hasMutex = true) := by
  obtain ⟨hen, hgranted, haccepts⟩ := he
  -- a step that leaves the mutex alone
  have hnone : letter s e = none → ¬ e.UsesMutex →
      ((∀ a ∈ letter s e, Legal s.live a) ↔ (e.UsesMutex → s.main.hasMutex = true)) := by
    intro ha hnot
    rw [ha]
    exact iff_of_true (fun a ha => by cases ha) (fun huses => absurd huses hnot)
  have hlegal : ∀ {a}, letter s e = some a → Legal s.live a → ¬ e.UsesMutex →
      ((∀ a ∈ letter s e, Legal s.live a) ↔ (e.UsesMutex → s.main.hasMutex = true)) := by
    intro a ha hlegal hnot
    rw [ha]
    exact iff_of_true (fun a' ha' => Option.mem_some_iff.mp ha' ▸ hlegal)
      (fun huses => absurd huses hnot)
  -- a step that locks or unlocks it
  have huse : letter s e = some (.use (.mutex s.connInitMutexId)) → e.UsesMutex →
      ((∀ a ∈ letter s e, Legal s.live a) ↔ (e.UsesMutex → s.main.hasMutex = true)) := by
    intro ha huses
    simp only [ha, Option.mem_some_iff, forall_eq', Legal, mutex_mem_live, huses, true_implies]
  cases e with
  | createsMutex _ => exact hlegal (if_neg (Int32.not_lt.mpr hgranted)) trivial id
  | createsThread _ => exact hlegal (if_neg (Int32.not_lt.mpr hgranted)) trivial id
  | startsThread res =>
      have hm : s.main = .startsThread := hen
      exact hlegal rfl (thread_mem_live (by rw [hm]; rfl)) id
  | stops =>
      have hm : s.main = .runs := hen
      exact hlegal rfl ((mutex_mem_live s).mpr (by rw [hm]; rfl)) id
  | waits =>
      have hm : s.main = .waits := hen.1
      exact hlegal rfl (thread_mem_live (by rw [hm]; rfl)) id
  | deletesThread =>
      have hm : s.main = .deletesThread := hen
      exact hlegal rfl (thread_mem_live (by rw [hm]; rfl)) id
  | closesClient => exact hnone (if_pos h.alone.clientSock) id
  | closesServer =>
      by_cases hsock : s.serverSock = 0
      · exact hnone (if_pos hsock) id
      · exact hlegal (if_neg hsock) (socket_mem_live hsock) id
  | creates sock => exact hlegal (if_neg (Int32.lt_asymm hgranted)) trivial id
  | binds res =>
      have hsock := h.served.during (Or.inl (congrArg ListenPc.target hen))
      exact hlegal rfl (socket_mem_live hsock) id
  | listens res =>
      have hsock := h.served.during (Or.inr (Or.inl (congrArg ListenPc.target hen)))
      exact hlegal rfl (socket_mem_live hsock) id
  | locks => exact huse rfl trivial
  | checks => exact hnone rfl id
  | sets => exact hnone rfl id
  | pings fuel answer => exact hnone h.alone.sendLetter id
  | unlocks => exact huse rfl trivial
  | accepts clsock =>
      have hsock := h.served.during (Or.inr (Or.inr (Or.inr (congrArg ListenPc.target hen))))
      exact hlegal (if_pos (Int32.not_le.mp haccepts)) (socket_mem_live hsock) id
  | calls t msg =>
      by_cases hmsg : msg.length ≤ msgSize
      · exact huse (if_pos hmsg) hmsg
      · exact hnone (if_neg hmsg) hmsg
  | sends t fuel msg answer => exact hnone h.alone.sendLetter id
  | leaves t => exact huse rfl trivial

/-- Where everything is granted only the uses of the mutex can be wrong. -/
theorem smooth_legal_iff {es : List (LifeStep τ)} (hes : Along step Smooth {} es) :
    Along Ledger.step Legal [] (trace step letter {} es) ↔
      Along step (fun s e => e.UsesMutex → s.main.hasMutex = true) {} es := by
  have hinv : ∀ (s : NetLife τ) e, SmoothInv s → Smooth s e → SmoothInv (step s e) :=
    fun _ _ h he => h.step he
  have htrace := along_trace_iff (A := Legal) hinv (fun _ _ h he => live_step h he) smoothInv_boot
    hes
  exact htrace.trans
    (along_iff_of_inv hinv (fun _ _ h he => legal_letter_iff h he) smoothInv_boot hes)

/-- And nothing is left. -/
theorem smooth_closed {es : List (LifeStep τ)} (hes : Along step Smooth {} es)
    (hstop : (run step {} es).main = .stopped) :
    run Ledger.step [] (trace step letter {} es) = [] := by
  have hinv : ∀ (s : NetLife τ) e, SmoothInv s → Smooth s e → SmoothInv (step s e) :=
    fun _ _ h he => h.step he
  have hview := view_run hinv (fun _ _ h he => live_step h he) smoothInv_boot hes
  have hserved := (inv_run hinv smoothInv_boot hes).served.after hstop
  rw [run_eq_foldl]
  refine hview.symm.trans ?_
  simp [live, hserved, hstop, MainPc.hasThread, MainPc.hasMutex]

/-! ## What was not granted is released all the same -/

/-- What a letter can be, whatever is granted. -/
def Possible : Entry NetResource → Prop
  | .acquire (.mutex id) => 0 ≤ id
  | .acquire (.thread id) => 0 ≤ id
  | .acquire (.socket sock) => 0 ≤ sock
  | .release (.socket sock) => sock ≠ 0
  | _ => True

omit [DecidableEq τ] in
theorem possible_letter (s : NetLife τ) (e : LifeStep τ) : ∀ a ∈ letter s e, Possible a := by
  intro a ha
  cases e <;> simp only [letter, sendLetter] at ha <;> (try split at ha) <;>
    simp_all [Possible, Int32.not_lt, eq_comm]

theorem possible_trace (s : NetLife τ) (es : List (LifeStep τ)) :
    ∀ a ∈ trace step letter s es, Possible a :=
  along_letters_iff.mp (along_of_mem fun e _ s => possible_letter s e)

/-- `module_stop` deletes a thread that was not created. -/
theorem releases_thread {es : List (LifeStep τ)} {s : NetLife τ} (hes : Along step Enabled s es)
    (hthid : s.connListenThid < 0)
    (hmain : s.main = .runs ∨ s.main = .waits ∨ s.main = .deletesThread)
    (hstop : (run step s es).main = .stopped) :
    ∃ a ∈ trace step letter s es, ∃ id < 0, a = .release (.thread id) := by
  let Inside (s : NetLife τ) : Prop := s.connListenThid < 0 ∧
    (s.main = .runs ∨ s.main = .waits ∨ s.main = .deletesThread)
  refine letter_of_leaving (I := Inside) (fun s e hin he => ?_) ⟨hthid, hmain⟩ hes fun hin => ?_
  · obtain ⟨hthid, hmain⟩ := hin
    cases e with
    | createsMutex id => simp [show s.main = .createsMutex from he] at hmain
    | createsThread id => simp [show s.main = .createsThread from he] at hmain
    | startsThread res => simp [show s.main = .startsThread from he] at hmain
    | stops => exact Or.inl ⟨hthid, Or.inr (Or.inl rfl)⟩
    | waits => exact Or.inl ⟨hthid, Or.inr (Or.inr rfl)⟩
    | deletesThread => exact Or.inr ⟨_, rfl, _, hthid, rfl⟩
    | closesClient => simp [show s.main = .closesClient from he] at hmain
    | closesServer => simp [show s.main = .closesServer from he] at hmain
    | _ => exact Or.inl ⟨hthid, hmain⟩
  · simp [Inside, hstop] at hin

/-- `module_stop` closes a socket that was not created. -/
theorem releases_socket {es : List (LifeStep τ)} {s : NetLife τ} (hes : Along step Enabled s es)
    (hsock : s.serverSock < 0) (hlistener : s.listener = .ended) (hmain : s.main ≠ .stopped)
    (hnotStarting : ¬ s.Starting) (hstop : (run step s es).main = .stopped) :
    ∃ a ∈ trace step letter s es, ∃ sock < 0, a = .release (.socket sock) := by
  let Inside (s : NetLife τ) : Prop := s.serverSock < 0 ∧ s.listener = .ended ∧ s.main ≠ .stopped ∧
    ¬ s.Starting
  refine letter_of_leaving (I := Inside) (fun s e hin he => ?_)
    ⟨hsock, hlistener, hmain, hnotStarting⟩ hes fun hin => hin.2.2.1 hstop
  obtain ⟨hsock, hlistener, hmain, hnotStarting⟩ := hin
  cases e with
  | closesServer =>
      have hne : s.serverSock ≠ 0 := fun h => Int32.lt_irrefl (h ▸ hsock)
      exact Or.inr ⟨_, if_neg hne, _, hsock, rfl⟩
  | createsMutex id => exact absurd (Or.inl he) hnotStarting
  | createsThread id => exact absurd (Or.inr (Or.inl he)) hnotStarting
  | startsThread res => exact absurd (Or.inr (Or.inr he)) hnotStarting
  | creates sock => cases hlistener.symm.trans he
  | binds res => cases hlistener.symm.trans he
  | listens res => cases hlistener.symm.trans he
  | locks => cases hlistener.symm.trans he.choose_spec
  | checks => cases hlistener.symm.trans he
  | sets => cases hlistener.symm.trans he
  | pings fuel answer => cases hlistener.symm.trans he.1
  | unlocks => cases hlistener.symm.trans he.choose_spec
  | accepts clsock => cases hlistener.symm.trans he
  | calls t msg => exact Or.inl ⟨hsock, hlistener, hmain, hnotStarting⟩
  | sends t fuel msg answer => exact Or.inl ⟨hsock, hlistener, hmain, hnotStarting⟩
  | leaves t => exact Or.inl ⟨hsock, hlistener, hmain, hnotStarting⟩
  | _ => exact Or.inl ⟨hsock, hlistener, by simp [NetLife.step], by simp [NetLife.step, Starting]⟩

/-- Before the thread is created its variable is `-1`. -/
def Unset (s : NetLife τ) : Prop :=
  s.main = .createsMutex ∨ s.main = .createsThread → s.connListenThid < 0

theorem Unset.step {s : NetLife τ} (h : Unset s) {e : LifeStep τ} (he : s.Enabled e) :
    Unset (s.step e) := by
  cases e with
  | createsMutex id => exact fun _ => h (Or.inl he)
  | createsThread id =>
      intro hmain
      simp only [NetLife.step] at hmain
      split at hmain <;> simp at hmain
  | _ => first
    | exact h
    | exact fun hmain => by simp [NetLife.step] at hmain

theorem unset_run {es : List (LifeStep τ)} (hes : Along step Enabled {} es) : Unset (run step {} es) :=
  inv_run (fun _ _ h he => h.step he) (fun _ => (by decide : (-1 : Int32) < 0)) hes

/-- An account that balances had everything granted. -/
theorem granted_of_balanced {es : List (LifeStep τ)} (hes : Along step Enabled {} es)
    (hstop : (run step {} es).main = .stopped) (hbal : Balanced (trace step letter {} es)) :
    ∀ e ∈ es, e.Granted := by
  intro e hmem
  obtain ⟨p, q, rfl⟩ := List.append_of_mem hmem
  obtain ⟨hp, he, hq⟩ := along_append.mp hes
  have hin := inStep_run hp
  have hunset := unset_run hp
  rw [run_append, run_cons] at hstop
  generalize hs : run step {} p = s at *
  have htrace : trace step letter {} (p ++ e :: q) = trace step letter {} p ++
      ((letter s e).toList ++ trace step letter (s.step e) q) := by
    rw [trace_append, hs]
    rfl
  have hnone : ∀ a ∈ trace step letter (s.step e) q,
      (¬ ∃ id < 0, a = .release (.thread id)) ∧ ¬ ∃ sock < 0, a = .release (.socket sock) := by
    intro a ha
    have hmem : a ∈ trace step letter {} (p ++ e :: q) := by
      rw [htrace]
      exact List.mem_append_right _ (List.mem_append_right _ ha)
    constructor
    · rintro ⟨id, hneg, rfl⟩
      have hacq := (hbal.release_mem_iff _).mp hmem
      exact absurd hneg (Int32.not_lt.mpr (possible_trace _ _ _ hacq))
    · rintro ⟨sock, hneg, rfl⟩
      have hacq := (hbal.release_mem_iff _).mp hmem
      exact absurd hneg (Int32.not_lt.mpr (possible_trace _ _ _ hacq))
  cases e with
  | createsMutex id =>
      by_contra hnot
      have hneg : id < 0 := Int32.not_le.mp hnot
      obtain ⟨a, ha, hrel⟩ := releases_thread hq (hunset (Or.inl he)) (Or.inl (if_pos hneg)) hstop
      exact (hnone a ha).1 hrel
  | createsThread id =>
      by_contra hnot
      have hneg : id < 0 := Int32.not_le.mp hnot
      obtain ⟨a, ha, hrel⟩ := releases_thread hq hneg (Or.inl (if_pos hneg)) hstop
      exact (hnone a ha).1 hrel
  | creates sock =>
      have hl : s.listener = .creates := he
      have hwaited : ¬ s.Waited := fun hw => by simpa [hl] using hin.waited hw
      have hstarting : ¬ s.Starting := fun hw => by simpa [hl] using hin.starting hw
      have hnonneg : ¬ sock < 0 := by
        intro hneg
        obtain ⟨a, ha, hrel⟩ := releases_socket hq hneg (if_pos hneg)
          (fun hm => hwaited (Or.inr (Or.inr (Or.inr hm)))) hstarting hstop
        exact (hnone a ha).2 hrel
      have hzero : sock ≠ 0 := by
        rintro rfl
        have hacq : .acquire (.socket 0) ∈ trace step letter {} (p ++ .creates 0 :: q) := by
          rw [htrace]
          exact List.mem_append_right _ (List.mem_append_left _ List.mem_cons_self)
        exact possible_trace _ _ _ ((hbal.release_mem_iff _).mpr hacq) rfl
      exact Int32.lt_of_le_of_ne (Int32.not_lt.mp hnonneg) hzero.symm
  | _ => trivial

/-- **When does unloading the driver release what it acquired?**  When everything that was asked
for was granted, and every lock and every unlock of the mutex came between its creation and
`module_stop`. -/
theorem unload_balanced_iff {es : List (LifeStep τ)} (hes : Along step Enabled {} es)
    (hstop : (run step {} es).main = .stopped) :
    Balanced (trace step letter {} es) ↔
      (∀ e ∈ es, e.Granted) ∧
        Along step (fun s e => e.UsesMutex → s.main.hasMutex = true) {} es := by
  have haccepts : ∀ e ∈ es, ¬ e.Accepts := by
    intro e he haccepts
    cases e with
    | accepts clsock =>
        exact absurd ((not_accepted_of_reaches hes ⟨[], trivial, hstop⟩) clsock he)
          (Int32.not_lt.mpr haccepts)
    | _ => exact haccepts
  have hsmooth : (∀ e ∈ es, e.Granted) → Along step Smooth {} es := fun hgranted =>
    hes.and ((along_of_mem fun e he _ => hgranted e he).and
      (along_of_mem fun e he _ => haccepts e he))
  constructor
  · intro hbal
    have hgranted := granted_of_balanced hes hstop hbal
    exact ⟨hgranted, (smooth_legal_iff (hsmooth hgranted)).mp hbal.legal⟩
  · rintro ⟨hgranted, huses⟩
    exact ⟨(smooth_legal_iff (hsmooth hgranted)).mpr huses,
      smooth_closed (hsmooth hgranted) hstop⟩

/-- The thread looks for a client, and `module_stop` deletes the mutex that it holds. -/
def lateLock : List (LifeStep Unit) :=
  [.createsMutex 1, .createsThread 2, .startsThread 0, .creates 3, .binds 0, .listens 0, .locks,
    .stops, .checks, .unlocks, .accepts (-1), .waits, .deletesThread, .closesClient, .closesServer]

theorem late_lock_unbalanced : ¬ Balanced (trace step letter {} lateLock) := by
  have hes : Along step Enabled {} lateLock :=
    ⟨rfl, rfl, rfl, rfl, rfl, rfl, ⟨_, rfl⟩, rfl, rfl, ⟨_, rfl⟩, rfl, ⟨rfl, Or.inr rfl⟩, rfl, rfl,
      rfl, trivial⟩
  rw [unload_balanced_iff hes rfl]
  rintro ⟨_, _, _, _, _, _, _, _, _, _, hlate, _⟩
  exact absurd (hlate trivial) (by decide)

end NetLife

end

end PsvEmmc
