/-
# `PsvEmmc.Driver.Log` — the two reference-counted logs

`driver/glog.c` and `driver/sdstor_log.c` have one text with two sets of
globals: a descriptor and a count of the brackets that are open.  The first
`open` of a log opens its file, the `close` that brings the count to zero
closes it, and the writes between go to the descriptor when it is valid.
Each function runs under the mutex of its log, so a call is one step and a
run of any number of threads is a list of calls.

The model keeps the thread of every bracket that is still open beside the
globals.  `refCtx` is their number, and a descriptor is open only while there
is one (`LogSt.Inv`); the descriptors that `ksceIoOpen` returned and the log
has not closed are a list of at most one, on which each call to the kernel
acts as an entry of a ledger.

The count is an `int` in the source and an integer here.  The two agree while
fewer than `2^31` brackets are open; each open one is in a frame on the stack of
some thread, and there is no memory for so many.
-/
import PsvEmmc.Lib.Ledger

namespace PsvEmmc

open Runs

/-! ## One log -/

inductive LogFile where
  | global
  | sdstorDevFs
  deriving DecidableEq, Repr

def LogFile.path : LogFile → String
  | .global => "ux0:dump/psvemmc_dump.bin"
  | .sdstorDevFs => "ux0:dump/sdstor_dev_fs.txt"

/-- What a log asks of the kernel; an open carries the answer. -/
inductive IoCall where
  | ksceIoOpen (path : String) (uid : Int32)
  | ksceIoWrite (fd : Int32) (msg : List UInt8)
  | ksceIoClose (fd : Int32)
  deriving DecidableEq, Repr

/-- `global_log_fd` and `global_ref_ctx`, or `sdstor_dev_fs_log_fd` and `sdstor_ref_ctx`. -/
structure Log where
  logFd : Int32 := -1
  refCtx : Int := 0
  deriving DecidableEq, Repr

/-- `FILE_GLOBAL_WRITE_LEN` and `FILE_SDSTOR_WRITE_LEN`. -/
def fileWriteLen (msg : List UInt8) (l : Log) : Option IoCall × Log :=
  if 0 ≤ l.logFd then (some (.ksceIoWrite l.logFd msg), l) else (none, l)

/-- `open_global_log` and `open_sdstor_dev_fs_log`; `uid` is what `ksceIoOpen` answers if it is
called. -/
def openLog (f : LogFile) (uid : Int32) (l : Log) : Option IoCall × Log :=
  if l.logFd = -1 ∧ l.refCtx = 0 then
    (some (.ksceIoOpen f.path uid), { logFd := uid, refCtx := l.refCtx + 1 })
  else (none, { l with refCtx := l.refCtx + 1 })

/-- `close_global_log` and `close_sdstor_dev_fs_log`. -/
def closeLog (l : Log) : Option IoCall × Log :=
  let l := { l with refCtx := l.refCtx - 1 }
  if 0 ≤ l.logFd ∧ l.refCtx = 0 then (some (.ksceIoClose l.logFd), { l with logFd := -1 })
  else (none, l)

def fileGlobalWriteLen := fileWriteLen
def openGlobalLog := openLog .global
def closeGlobalLog := closeLog

def fileSdstorWriteLen := fileWriteLen
def openSdstorDevFsLog := openLog .sdstorDevFs
def closeSdstorDevFsLog := closeLog

/-! ## Threads -/

/-- A call to the log by a thread. -/
inductive LogCall (τ : Type*) where
  | opens (t : τ) (uid : Int32)
  | writes (t : τ) (msg : List UInt8)
  | closes (t : τ)

/-- The log, and the thread of every bracket that is open. -/
structure LogSt (τ : Type*) where
  log : Log := {}
  brackets : List τ := []

variable {τ : Type*} [DecidableEq τ]

def LogSt.apply (f : LogFile) (s : LogSt τ) : LogCall τ → Option IoCall × LogSt τ
  | .opens t uid => ((openLog f uid s.log).1, ⟨(openLog f uid s.log).2, t :: s.brackets⟩)
  | .writes _ msg => ((fileWriteLen msg s.log).1, ⟨(fileWriteLen msg s.log).2, s.brackets⟩)
  | .closes t => ((closeLog s.log).1, ⟨(closeLog s.log).2, s.brackets.erase t⟩)

def LogSt.step (f : LogFile) (s : LogSt τ) (e : LogCall τ) : LogSt τ := (s.apply f e).2

/-- The kernel call that a call to the log makes. -/
def LogSt.ioCall (f : LogFile) (s : LogSt τ) (e : LogCall τ) : Option IoCall := (s.apply f e).1

/-- The kernel calls of a run. -/
def ioCalls (f : LogFile) (es : List (LogCall τ)) : List IoCall :=
  trace (LogSt.step f) (LogSt.ioCall f) {} es

/-- A thread closes a bracket that it opened. -/
def Matched (s : LogSt τ) : LogCall τ → Prop
  | .closes t => t ∈ s.brackets
  | _ => True

instance (s : LogSt τ) (e : LogCall τ) : Decidable (Matched s e) := by
  cases e <;> unfold Matched <;> infer_instance

/-- The kernel calls on the ledger of descriptors: an open that succeeds acquires one. -/
def IoCall.entry : IoCall → Option (Ledger.Entry Int32)
  | .ksceIoOpen _ uid => if 0 ≤ uid then some (.acquire uid) else none
  | .ksceIoWrite fd _ => some (.use fd)
  | .ksceIoClose fd => some (.release fd)

/-- What a run does to descriptors. -/
def descriptorUse (f : LogFile) (es : List (LogCall τ)) : List (Ledger.Entry Int32) :=
  (ioCalls f es).filterMap IoCall.entry

/-! ## The invariant -/

/-- The count is the number of open brackets, and a descriptor is held only within one. -/
structure LogSt.Inv (s : LogSt τ) : Prop where
  count : s.log.refCtx = s.brackets.length
  closed : s.brackets = [] → s.log.logFd < 0

omit [DecidableEq τ] in
theorem LogSt.Inv.refCtx_eq_zero {s : LogSt τ} (h : s.Inv) :
    s.log.refCtx = 0 ↔ s.brackets = [] := by
  rw [h.count]
  exact Int.natCast_eq_zero.trans List.length_eq_zero_iff

omit [DecidableEq τ] in
theorem LogSt.inv_boot : (({} : LogSt τ)).Inv := ⟨rfl, fun _ => (by decide : (-1 : Int32) < 0)⟩

/-- Taking a member out of a list makes it one shorter, counted in the integers. -/
theorem length_erase_int {l : List τ} {t : τ} (h : t ∈ l) :
    ((l.erase t).length : Int) = l.length - 1 := by
  rw [List.length_erase_of_mem h]
  have := List.length_pos_of_mem h
  omega

theorem LogSt.inv_step (f : LogFile) (s : LogSt τ) (e : LogCall τ) (h : s.Inv)
    (hm : Matched s e) : (s.step f e).Inv := by
  cases e with
  | opens t uid =>
      refine ⟨?_, fun hnil => absurd hnil (List.cons_ne_nil _ _)⟩
      have hcount : (openLog f uid s.log).2.refCtx = s.log.refCtx + 1 := by
        unfold openLog
        split <;> rfl
      simp only [step, apply, hcount, h.count, List.length_cons, Nat.cast_add, Nat.cast_one]
  | writes t msg =>
      have hlog : (fileWriteLen msg s.log).2 = s.log := by
        unfold fileWriteLen
        split <;> rfl
      simpa only [step, apply, hlog] using h
  | closes t =>
      have hcount : (closeLog s.log).2.refCtx = s.log.refCtx - 1 := by
        unfold closeLog
        dsimp only
        split <;> rfl
      refine ⟨?_, ?_⟩
      · simp only [step, apply, hcount, h.count, length_erase_int hm]
      · intro hnil
        have hlast : s.log.refCtx - 1 = 0 := by
          rw [h.count, ← length_erase_int hm]
          exact Int.natCast_eq_zero.mpr (List.length_eq_zero_iff.mpr hnil)
        simp only [step, apply, closeLog, hlast, and_true]
        split
        · exact (by decide : (-1 : Int32) < 0)
        · rename_i hfd
          exact Int32.not_le.mp hfd

/-! ## The descriptors -/

/-- The descriptors that are open, read off the globals. -/
def LogSt.descriptors (s : LogSt τ) : List Int32 :=
  if 0 ≤ s.log.logFd then [s.log.logFd] else []

omit [DecidableEq τ] in
theorem LogSt.descriptors_of_neg {s : LogSt τ} (h : s.log.logFd < 0) : s.descriptors = [] :=
  if_neg (Int32.not_le.mpr h)

/-- The ledger entry of a call to the log. -/
def LogSt.entry (f : LogFile) (s : LogSt τ) (e : LogCall τ) : Option (Ledger.Entry Int32) :=
  (s.ioCall f e).bind IoCall.entry

/-- Each call acts on the descriptors as its entry says, and the entry is legal. -/
theorem LogSt.descriptors_step (f : LogFile) (s : LogSt τ) (e : LogCall τ) :
    (s.step f e).descriptors = (s.entry f e).elim s.descriptors (Ledger.step s.descriptors) ∧
      ∀ a ∈ s.entry f e, Ledger.Legal s.descriptors a := by
  cases e with
  | opens t uid =>
      simp only [step, entry, ioCall, apply, openLog]
      split
      · rename_i hfirst
        have hnone : s.descriptors = [] := if_neg (by rw [hfirst.1]; decide)
        rw [hnone, Option.bind_some, IoCall.entry]
        by_cases huid : 0 ≤ uid
        · simp [descriptors, huid, Ledger.step, Ledger.Legal]
        · simp [descriptors, huid]
      · exact ⟨rfl, fun a ha => by cases ha⟩
  | writes t msg =>
      simp only [step, entry, ioCall, apply, fileWriteLen]
      split
      · rename_i hfd
        simp [descriptors, hfd, IoCall.entry, Ledger.step, Ledger.Legal]
      · exact ⟨rfl, fun a ha => by cases ha⟩
  | closes t =>
      simp only [step, entry, ioCall, apply, closeLog]
      split
      · rename_i hlast
        have hone : s.descriptors = [s.log.logFd] := if_pos hlast.1
        refine ⟨?_, ?_⟩
        · rw [hone]
          exact (if_neg (by decide : ¬ (0 : Int32) ≤ -1)).trans (List.erase_cons_head _ _).symm
        · intro a ha
          obtain rfl := Option.some.inj ha
          rw [hone]
          exact List.mem_singleton_self _
      · exact ⟨rfl, fun a ha => by cases ha⟩

/-- A descriptor is closed by the call that closes the last bracket. -/
def ClosesAtZero (f : LogFile) (s : LogSt τ) (e : LogCall τ) : Prop :=
  ∀ fd, s.ioCall f e = some (.ksceIoClose fd) →
    (∃ t, e = .closes t) ∧ (s.step f e).log.refCtx = 0

theorem closesAtZero (f : LogFile) (s : LogSt τ) (e : LogCall τ) : ClosesAtZero f s e := by
  intro fd hfd
  cases e with
  | opens t uid =>
      simp only [LogSt.ioCall, LogSt.apply, openLog] at hfd
      split at hfd <;> simp at hfd
  | writes t msg =>
      simp only [LogSt.ioCall, LogSt.apply, fileWriteLen] at hfd
      split at hfd <;> simp at hfd
  | closes t =>
      refine ⟨⟨t, rfl⟩, ?_⟩
      simp only [LogSt.ioCall, LogSt.apply, closeLog] at hfd
      simp only [LogSt.step, LogSt.apply, closeLog]
      split at hfd
      · rename_i hlast
        rw [if_pos hlast]
        exact hlast.2
      · simp at hfd

theorem descriptorUse_eq_trace (f : LogFile) (es : List (LogCall τ)) :
    descriptorUse f es = trace (LogSt.step f) (LogSt.entry f) {} es :=
  trace_filterMap _ _ _ _

/-- The ledger of a run has the descriptors that the globals say are open. -/
theorem run_descriptorUse (f : LogFile) {es : List (LogCall τ)}
    (hm : Along (LogSt.step f) Matched {} es) :
    run Ledger.step [] (descriptorUse f es) = (run (LogSt.step f) {} es).descriptors := by
  rw [descriptorUse_eq_trace, run_eq_foldl]
  exact (view_run (LogSt.inv_step f) (fun s e _ _ => (LogSt.descriptors_step f s e).1)
    LogSt.inv_boot hm).symm

theorem legal_descriptorUse (f : LogFile) {es : List (LogCall τ)}
    (hm : Along (LogSt.step f) Matched {} es) :
    Along Ledger.step Ledger.Legal [] (descriptorUse f es) := by
  rw [descriptorUse_eq_trace]
  exact along_trace (LogSt.inv_step f) (fun s e _ _ => (LogSt.descriptors_step f s e).1)
    (fun s e _ _ => (LogSt.descriptors_step f s e).2) LogSt.inv_boot hm

/-- **A log's descriptor lives within its brackets.**  In every run of either log with matched
brackets the count is the number of open brackets, at most one descriptor is open and none at
count zero, every write and close is of an open descriptor, the descriptors returned are those
closed and the one that is still open, and a close happens when the count reaches zero. -/
theorem log_descriptor_bracketed (f : LogFile) (es : List (LogCall τ))
    (hm : Along (LogSt.step f) Matched {} es) :
    (run (LogSt.step f) {} es).log.refCtx = (run (LogSt.step f) {} es).brackets.length ∧
    (run Ledger.step [] (descriptorUse f es)).length ≤ 1 ∧
    ((run (LogSt.step f) {} es).log.refCtx = 0 →
      run Ledger.step [] (descriptorUse f es) = []) ∧
    Along Ledger.step Ledger.Legal [] (descriptorUse f es) ∧
    ((descriptorUse f es).filterMap Ledger.Entry.acquired).Perm
      ((descriptorUse f es).filterMap Ledger.Entry.released ++
        run Ledger.step [] (descriptorUse f es)) ∧
    Along (LogSt.step f) (ClosesAtZero f) {} es := by
  have hinv : (run (LogSt.step f) {} es).Inv := inv_run (LogSt.inv_step f) LogSt.inv_boot hm
  have hlegal := legal_descriptorUse f hm
  refine ⟨hinv.count, ?_, ?_, hlegal, ?_, along_of_mem fun e _ s => closesAtZero f s e⟩
  · rw [run_descriptorUse f hm, LogSt.descriptors]
    split <;> simp
  · intro hzero
    rw [run_descriptorUse f hm]
    exact LogSt.descriptors_of_neg (hinv.closed (hinv.refCtx_eq_zero.mp hzero))
  · exact Ledger.balance hlegal

/-- Two threads whose brackets overlap, after one that could not open the file. -/
theorem log_descriptor_bracketed_overlap :
    (run (LogSt.step .global) {} [LogCall.opens 0 (-1), .closes 0, .opens 1 7, .opens 2 8,
        .closes 1, .writes 2 [72], .closes 2]).log.refCtx = 0 ∧
    descriptorUse .global [LogCall.opens 0 (-1), .closes 0, .opens 1 7, .opens 2 8,
        .closes 1, .writes 2 [72], .closes 2] = [.acquire 7, .use 7, .release 7] :=
  ⟨(log_descriptor_bracketed .global [LogCall.opens 0 (-1), .closes 0, .opens 1 7, .opens 2 8,
      .closes 1, .writes 2 [72], .closes 2] (by decide)).1,
    by decide⟩

/-! ## After a failed open -/

/-- `ksceIoOpen` answers a valid descriptor or `-1`, the value that stands for a closed log. -/
def IoCall.Answered : IoCall → Prop
  | .ksceIoOpen _ uid => 0 ≤ uid ∨ uid = -1
  | _ => True

instance (c : IoCall) : Decidable c.Answered := by
  cases c <;> unfold IoCall.Answered <;> infer_instance

/-- The log is as it was at the start: closed, with the next open asking the kernel again. -/
def Log.Recovered (f : LogFile) (l : Log) : Prop :=
  l.logFd = -1 ∧ ∀ uid, (openLog f uid l).1 = some (.ksceIoOpen f.path uid)

/-- The descriptor is a valid one or `-1`, and `-1` outside of brackets. -/
structure LogSt.Usable (s : LogSt τ) : Prop extends s.Inv where
  valid : 0 ≤ s.log.logFd ∨ s.log.logFd = -1

omit [DecidableEq τ] in
theorem LogSt.usable_boot : (({} : LogSt τ)).Usable := ⟨LogSt.inv_boot, Or.inr rfl⟩

/-- Every open that asks the kernel gets an answer that a close undoes. -/
def LogSt.AnswersUndone (f : LogFile) (s : LogSt τ) (e : LogCall τ) : Prop :=
  ∀ c ∈ s.ioCall f e, c.Answered

theorem LogSt.usable_step (f : LogFile) (s : LogSt τ) (e : LogCall τ) (h : s.Usable)
    (hg : Matched s e ∧ s.AnswersUndone f e) : (s.step f e).Usable := by
  refine ⟨LogSt.inv_step f s e h.toInv hg.1, ?_⟩
  cases e with
  | opens t uid =>
      have hanswer := hg.2
      simp only [AnswersUndone, ioCall, apply, openLog] at hanswer
      simp only [step, apply, openLog]
      split
      · rename_i hfirst
        rw [if_pos hfirst] at hanswer
        exact hanswer _ rfl
      · exact h.valid
  | writes t msg =>
      simp only [step, apply, fileWriteLen]
      split <;> exact h.valid
  | closes t =>
      simp only [step, apply, closeLog]
      split
      · exact Or.inr rfl
      · exact h.valid

/-- A descriptor that no bracket can undo stays, and no call asks the kernel for anything. -/
theorem LogSt.step_stuck (f : LogFile) {s : LogSt τ} (hneg : s.log.logFd < 0)
    (hne : s.log.logFd ≠ -1) (e : LogCall τ) :
    (s.step f e).log.logFd = s.log.logFd ∧ s.ioCall f e = none := by
  have hfd : ¬ 0 ≤ s.log.logFd := Int32.not_le.mpr hneg
  cases e with
  | opens t uid => simp [step, ioCall, apply, openLog, hne]
  | writes t msg => simp [step, ioCall, apply, fileWriteLen, hfd]
  | closes t => simp [step, ioCall, apply, closeLog, hfd]

theorem LogSt.run_stuck (f : LogFile) {s : LogSt τ} (hneg : s.log.logFd < 0)
    (hne : s.log.logFd ≠ -1) (es : List (LogCall τ)) :
    (run (step f) s es).log.logFd = s.log.logFd ∧ trace (step f) (ioCall f) s es = [] := by
  induction es generalizing s with
  | nil => exact ⟨rfl, rfl⟩
  | cons e es ih =>
      obtain ⟨hfd, hcall⟩ := step_stuck f hneg hne e
      obtain ⟨hrun, htrace⟩ := ih (hfd ▸ hneg) (hfd ▸ hne)
      exact ⟨hrun.trans hfd, by rw [trace, hcall, htrace]; rfl⟩

/-- The call that opens the file leaves its answer in the descriptor. -/
theorem LogSt.logFd_of_open (f : LogFile) {s : LogSt τ} {e : LogCall τ} {path : String}
    {uid : Int32} (h : s.ioCall f e = some (.ksceIoOpen path uid)) :
    (s.step f e).log.logFd = uid := by
  cases e with
  | opens t uid' =>
      simp only [ioCall, apply, openLog] at h
      simp only [step, apply, openLog]
      split at h
      · rename_i hfirst
        rw [if_pos hfirst]
        exact (IoCall.ksceIoOpen.inj (Option.some.inj h)).2
      · cases h
  | writes t msg =>
      simp only [ioCall, apply, fileWriteLen] at h
      split at h <;> simp at h
  | closes t =>
      simp only [ioCall, apply, closeLog] at h
      split at h <;> simp at h

/-- One answer that no close undoes is the descriptor at the end of the run. -/
theorem LogSt.run_unanswered (f : LogFile) {es : List (LogCall τ)} {s : LogSt τ} {c : IoCall}
    (hmem : c ∈ trace (step f) (ioCall f) s es) (hc : ¬ c.Answered) :
    (run (step f) s es).log.logFd ≠ -1 := by
  induction es generalizing s with
  | nil => cases hmem
  | cons e es ih =>
      rw [trace, List.mem_append, Option.mem_toList] at hmem
      rcases hmem with hnow | hlater
      · cases c with
        | ksceIoOpen path uid =>
            obtain ⟨hneg, hne⟩ := not_or.mp hc
            have hfd := logFd_of_open f hnow
            have hneg' : (s.step f e).log.logFd < 0 := hfd ▸ Int32.not_le.mp hneg
            have hne' : (s.step f e).log.logFd ≠ -1 := hfd ▸ hne
            rw [run_cons, (run_stuck f hneg' hne' es).1]
            exact hne'
        | ksceIoWrite fd msg => exact absurd trivial hc
        | ksceIoClose fd => exact absurd trivial hc
      · exact ih hlater

/-- **A log recovers from a failed open** exactly when no open of the run was answered with an
error other than `-1`: in every state of a run with matched brackets in which the count is
zero. -/
theorem log_recovers_iff (f : LogFile) (es : List (LogCall τ))
    (hm : Along (LogSt.step f) Matched {} es)
    (hzero : (run (LogSt.step f) {} es).log.refCtx = 0) :
    (run (LogSt.step f) {} es).log.Recovered f ↔ ∀ c ∈ ioCalls f es, c.Answered := by
  constructor
  · intro hrec c hmem
    by_contra hc
    exact LogSt.run_unanswered f hmem hc hrec.1
  · intro hall
    have hguard := hm.and (along_letters_iff.mpr hall)
    have husable := inv_run (LogSt.usable_step f) LogSt.usable_boot hguard
    have hneg := husable.closed (husable.refCtx_eq_zero.mp hzero)
    have hfd : (run (LogSt.step f) {} es).log.logFd = -1 :=
      husable.valid.resolve_left (Int32.not_le.mpr hneg)
    exact ⟨hfd, fun uid => by rw [openLog, if_pos ⟨hfd, hzero⟩]⟩

theorem log_recovers_once :
    (run (LogSt.step .global) {} [LogCall.opens 0 (-1), .closes 0]).log.Recovered .global :=
  (log_recovers_iff .global [LogCall.opens 0 (-1), .closes 0] (by decide) (by decide)).mpr
    (by decide)

/-- An open that the kernel refuses with `0x80010013`: after the close the descriptor is still
that code. -/
theorem log_stays_closed_after_error :
    ¬ ∀ (f : LogFile) (es : List (LogCall Nat)), Along (LogSt.step f) Matched {} es →
      (run (LogSt.step f) {} es).log.refCtx = 0 → (run (LogSt.step f) {} es).log.Recovered f := by
  intro h
  have hrec := h .global [.opens 0 (-2147418093), .closes 0] (by decide) (by decide)
  exact absurd hrec.1 (by decide)

end PsvEmmc
