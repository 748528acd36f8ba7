/-
# `PsvEmmc.Driver.LogBuffer` — messages through the shared `sprintfBuffer`

A hook logs a line in four steps: it opens the log, formats the line into
`sprintfBuffer`, writes the buffer and closes the log.  The buffer is one
global of the module, and the mutex of the log covers each step but not the
time between the second and the third, so what a thread writes is what the
last thread formatted.

The model keeps, beside the buffer and the file, the messages formatted so
far and those among them whose thread has not written yet.  As long as no
thread formats over another thread's message, every pending message is the
buffer and the file is the formatted messages without the pending ones
(`HookSt.Exact`).  The first format over a pending message loses that one
for good: however the writes come, the new message is written in its place.
-/
import PsvEmmc.Driver.Log

namespace PsvEmmc

open Runs
open scoped List

/-! ## Hooks that log -/

/-- What `snprintf(sprintfBuffer, 256, ...)` can leave in the buffer. -/
abbrev Message := {text : List UInt8 // text.length < 256 ∧ 0 ∉ text}

/-- A step of a hook that logs. -/
inductive HookStep (τ : Type*) where
  | opens (t : τ) (uid : Int32)
  | formats (t : τ) (m : Message)
  | writes (t : τ)
  | closes (t : τ)

/-- The log, the buffer, the messages in the file, the messages formatted so far, and those not
written yet with their threads. -/
structure HookSt (τ : Type*) where
  log : LogSt τ := {}
  sprintfBuffer : Message := ⟨[], by decide⟩
  file : List (List UInt8) := []
  formatted : List Message := []
  pending : List (τ × Message) := []

variable {τ : Type*} [DecidableEq τ]

def HookSt.step (f : LogFile) (s : HookSt τ) : HookStep τ → HookSt τ
  | .opens t uid => { s with log := s.log.step f (.opens t uid) }
  | .formats t m =>
      { s with sprintfBuffer := m, formatted := m :: s.formatted, pending := (t, m) :: s.pending }
  | .writes t =>
      { s with
        log := s.log.step f (.writes t s.sprintfBuffer.1)
        file :=
          match s.log.ioCall f (.writes t s.sprintfBuffer.1) with
          | some (.ksceIoWrite _ msg) => s.file ++ [msg]
          | _ => s.file
        pending := s.pending.eraseP (fun p => p.1 = t) }
  | .closes t => { s with log := s.log.step f (.closes t) }

/-- Every thread keeps to the order open, format, write, close, and the file opens. -/
def HookSt.Follows (s : HookSt τ) : HookStep τ → Prop
  | .opens t uid => t ∉ s.log.brackets ∧ 0 ≤ uid
  | .formats t _ => t ∈ s.log.brackets ∧ t ∉ s.pending.map Prod.fst
  | .writes t => t ∈ s.pending.map Prod.fst
  | .closes t => t ∈ s.log.brackets ∧ t ∉ s.pending.map Prod.fst

instance (s : HookSt τ) (e : HookStep τ) : Decidable (s.Follows e) := by
  cases e <;> unfold HookSt.Follows <;> infer_instance

/-- No thread formats while another message is waiting to be written. -/
def HookSt.NoOverwrite (s : HookSt τ) : HookStep τ → Prop
  | .formats _ m => ∀ p ∈ s.pending, p.2 = m
  | _ => True

instance (s : HookSt τ) (e : HookStep τ) : Decidable (s.NoOverwrite e) := by
  cases e <;> unfold HookSt.NoOverwrite <;> infer_instance

def HookStep.IsWrite : HookStep τ → Prop
  | .writes _ => True
  | _ => False

/-! ## The file is open within brackets -/

/-- The log is usable, its file is open within brackets, and who has formatted is in one. -/
structure HookSt.Open (s : HookSt τ) : Prop where
  usable : s.log.Usable
  fd : s.log.brackets ≠ [] → 0 ≤ s.log.log.logFd
  within : ∀ t ∈ s.pending.map Prod.fst, t ∈ s.log.brackets

omit [DecidableEq τ] in
theorem HookSt.open_boot : (({} : HookSt τ)).Open :=
  ⟨LogSt.usable_boot, fun h => absurd rfl h, fun t h => by cases h⟩

/-- A write leaves the log as it is. -/
@[simp] theorem LogSt.step_writes (f : LogFile) (s : LogSt τ) (t : τ) (msg : List UInt8) :
    s.step f (.writes t msg) = s := by
  simp only [step, apply, fileWriteLen]
  split <;> rfl

/-- With the file open, a thread that is due writes the buffer. -/
theorem HookSt.step_writes (f : LogFile) {s : HookSt τ} (t : τ) (hfd : 0 ≤ s.log.log.logFd) :
    s.step f (.writes t) =
      { s with
        file := s.file ++ [s.sprintfBuffer.1]
        pending := s.pending.eraseP (fun p => p.1 = t) } := by
  have hcall : s.log.ioCall f (.writes t s.sprintfBuffer.1) =
      some (.ksceIoWrite s.log.log.logFd s.sprintfBuffer.1) := by
    simp only [LogSt.ioCall, LogSt.apply, fileWriteLen, if_pos hfd]
  simp only [step, LogSt.step_writes, hcall]

omit [DecidableEq τ] in
/-- A thread that has formatted finds the file open. -/
theorem HookSt.Open.fd_of_pending {s : HookSt τ} (h : s.Open) {t : τ}
    (ht : t ∈ s.pending.map Prod.fst) : 0 ≤ s.log.log.logFd :=
  h.fd (List.ne_nil_of_mem (h.within t ht))

omit [DecidableEq τ] in
/-- What is left pending was pending. -/
theorem mem_map_fst_of_eraseP {l : List (τ × Message)} {q : τ × Message → Bool} {t : τ}
    (h : t ∈ (l.eraseP q).map Prod.fst) : t ∈ l.map Prod.fst := by
  obtain ⟨p, hp, rfl⟩ := List.mem_map.mp h
  exact List.mem_map_of_mem (List.mem_of_mem_eraseP hp)

theorem HookSt.open_step (f : LogFile) (s : HookSt τ) (e : HookStep τ) (h : s.Open)
    (hf : s.Follows e) : (s.step f e).Open := by
  cases e with
  | opens t uid =>
      have hanswers : s.log.AnswersUndone f (.opens t uid) := by
        intro c hc
        simp only [LogSt.ioCall, LogSt.apply, openLog] at hc
        split at hc
        · obtain rfl := Option.some.inj hc
          exact Or.inl hf.2
        · cases hc
      refine ⟨LogSt.usable_step f s.log _ h.usable ⟨trivial, hanswers⟩, fun _ => ?_,
        fun t' ht' => List.mem_cons_of_mem _ (h.within t' ht')⟩
      simp only [step, LogSt.step, LogSt.apply, openLog]
      split
      · exact hf.2
      · rename_i hfirst
        by_cases hnil : s.log.brackets = []
        · have hzero := h.usable.refCtx_eq_zero.mpr hnil
          exact h.usable.valid.resolve_right (fun hfd => hfirst ⟨hfd, hzero⟩)
        · exact h.fd hnil
  | formats t m =>
      refine ⟨h.usable, h.fd, fun t' ht' => ?_⟩
      rcases List.mem_cons.mp ht' with rfl | ht'
      · exact hf.1
      · exact h.within t' ht'
  | writes t =>
      rw [step_writes f t (h.fd_of_pending hf)]
      exact ⟨h.usable, h.fd, fun t' ht' => h.within t' (mem_map_fst_of_eraseP ht')⟩
  | closes t =>
      refine ⟨LogSt.usable_step f s.log _ h.usable ⟨hf.1, fun c hc => ?_⟩, fun hne => ?_,
        fun t' ht' => ?_⟩
      · simp only [LogSt.ioCall, LogSt.apply, closeLog] at hc
        split at hc
        · obtain rfl := Option.some.inj hc
          trivial
        · cases hc
      · have hcount : (s.log.step f (.closes t)).log.refCtx ≠ 0 := fun hzero =>
          hne ((LogSt.inv_step f s.log (.closes t) h.usable.toInv hf.1).refCtx_eq_zero.mp hzero)
        simp only [LogSt.step, LogSt.apply, closeLog] at hcount
        simp only [step, LogSt.step, LogSt.apply, closeLog]
        split
        · rename_i hlast
          rw [if_pos hlast] at hcount
          exact absurd hlast.2 hcount
        · exact h.fd (List.ne_nil_of_mem hf.1)
      · refine (List.mem_erase_of_ne ?_).mpr (h.within t' ht')
        rintro rfl
        exact hf.2 ht'

/-! ## Nothing is lost while nobody formats over a message -/

/-- Every pending message is the buffer, and the file has all the others once each. -/
structure HookSt.Exact (s : HookSt τ) : Prop extends s.Open where
  buffer : ∀ p ∈ s.pending, p.2 = s.sprintfBuffer
  file : s.file ++ s.pending.map (fun p => p.2.1) ~ s.formatted.map Subtype.val

omit [DecidableEq τ] in
theorem HookSt.exact_boot : (({} : HookSt τ)).Exact :=
  ⟨HookSt.open_boot, fun _ h => (List.not_mem_nil h).elim, List.Perm.nil⟩

theorem HookSt.exact_step (f : LogFile) (s : HookSt τ) (e : HookStep τ) (h : s.Exact)
    (hg : s.Follows e ∧ s.NoOverwrite e) : (s.step f e).Exact := by
  have hopen := HookSt.open_step f s e h.toOpen hg.1
  cases e with
  | opens t uid => exact ⟨hopen, h.buffer, h.file⟩
  | formats t m =>
      refine ⟨hopen, fun p hp => ?_, ?_⟩
      · rcases List.mem_cons.mp hp with rfl | hp
        · rfl
        · exact hg.2 p hp
      · exact List.perm_middle.trans (h.file.cons m.1)
  | writes t =>
      rw [step_writes f t (h.fd_of_pending hg.1)] at hopen ⊢
      obtain ⟨p, hp, rfl⟩ := List.mem_map.mp hg.1
      obtain ⟨q, l₁, l₂, _, hq, hl, herase⟩ :=
        List.exists_of_eraseP (p := fun x => decide (x.1 = p.1)) hp (decide_eq_true rfl)
      have hbuffer : q.2 = s.sprintfBuffer := h.buffer q (by rw [hl]; simp)
      refine ⟨hopen, fun x hx => h.buffer x (List.mem_of_mem_eraseP hx), ?_⟩
      have hfile := h.file
      rw [hl] at hfile
      simp only [herase]
      calc (s.file ++ [s.sprintfBuffer.1]) ++ (l₁ ++ l₂).map (fun x => x.2.1)
          ~ s.file ++ (l₁ ++ q :: l₂).map (fun x => x.2.1) := by
            rw [List.append_assoc, List.map_append, List.map_append, List.map_cons, ← hbuffer,
              List.singleton_append]
            exact List.perm_middle.symm.append_left s.file
        _ ~ s.formatted.map Subtype.val := hfile
  | closes t => exact ⟨hopen, h.buffer, h.file⟩

/-! ## What is written over is lost -/

/-- The pending threads write, one after the other. -/
def HookSt.flush (s : HookSt τ) : List (HookStep τ) := s.pending.map (fun p => .writes p.1)

omit [DecidableEq τ] in
theorem HookSt.isWrite_of_mem_flush {s : HookSt τ} : ∀ e ∈ s.flush, e.IsWrite := by
  intro e he
  obtain ⟨p, _, rfl⟩ := List.mem_map.mp he
  trivial

omit [DecidableEq τ] in
/-- Writes format nothing. -/
theorem HookSt.noOverwrite_of_isWrite (s : HookSt τ) (e : HookStep τ) (h : e.IsWrite) :
    s.NoOverwrite e := by
  cases e with
  | writes t => trivial
  | opens t uid => exact h.elim
  | formats t m => exact h.elim
  | closes t => exact h.elim

/-- Flushing writes the buffer once for each pending message, whatever these are. -/
theorem HookSt.run_flush (f : LogFile) {s : HookSt τ} (hfd : s.pending ≠ [] → 0 ≤ s.log.log.logFd) :
    Along (step f) Follows s s.flush ∧
      run (step f) s s.flush =
        { s with
          file := s.file ++ List.replicate s.pending.length s.sprintfBuffer.1, pending := [] } := by
  obtain ⟨log, buffer, file, formatted, pending⟩ := s
  induction pending generalizing file with
  | nil => exact ⟨trivial, by simp [flush, run]⟩
  | cons p ps ih =>
      have hfd : 0 ≤ log.log.logFd := hfd (List.cons_ne_nil p ps)
      obtain ⟨hfollows, hrun⟩ := ih (file ++ [buffer.1]) (fun _ => hfd)
      have hstep : step f ⟨log, buffer, file, formatted, p :: ps⟩ (.writes p.1) =
          ⟨log, buffer, file ++ [buffer.1], formatted, ps⟩ := by
        rw [step_writes f (s := ⟨log, buffer, file, formatted, p :: ps⟩) p.1 hfd]
        simp
      have hflush : flush ⟨log, buffer, file, formatted, p :: ps⟩ =
          .writes p.1 :: flush ⟨log, buffer, file ++ [buffer.1], formatted, ps⟩ := rfl
      rw [hflush]
      refine ⟨⟨List.mem_cons_self, ?_⟩, ?_⟩
      · rw [hstep]
        exact hfollows
      · rw [run_cons, hstep, hrun]
        simp [List.replicate_succ]

/-- The file after a run has every message that was formatted, once. -/
def HookSt.AllLogged (s : HookSt τ) : Prop := s.file ~ s.formatted.map Subtype.val

omit [DecidableEq τ] in
/-- With nothing pending the file has them all. -/
theorem HookSt.Exact.allLogged {s : HookSt τ} (h : s.Exact) (hdone : s.pending = []) :
    s.AllLogged := by
  have hfile := h.file
  rwa [hdone, List.map_nil, List.append_nil] at hfile

/-- A flush after a message was formatted over another one writes it in the other's place. -/
theorem HookSt.flush_overwritten {f : LogFile} {s : HookSt τ} (h : s.Exact) {t : τ} {m : Message}
    (hover : ¬ s.NoOverwrite (.formats t m)) :
    ¬ (run (step f) (s.step f (.formats t m)) (s.step f (.formats t m)).flush).AllLogged := by
  intro hlogged
  obtain ⟨q, hq, hne⟩ : ∃ q ∈ s.pending, q.2 ≠ m := by
    by_contra hall
    exact hover (fun p hp => by_contra fun hp' => hall ⟨p, hp, hp'⟩)
  have hbuffer : s.sprintfBuffer.1 ≠ m.1 := fun heq =>
    hne ((h.buffer q hq).trans (Subtype.ext heq))
  have hfd : 0 ≤ s.log.log.logFd := h.fd_of_pending (List.mem_map_of_mem hq)
  rw [(run_flush f (s := s.step f (.formats t m)) (fun _ => hfd)).2] at hlogged
  -- The old buffer is in the file as often as before the flush, and was to come once more.
  have hbefore := h.file.count_eq s.sprintfBuffer.1
  have hafter := hlogged.count_eq s.sprintfBuffer.1
  have hpending : 0 < (s.pending.map (fun p => p.2.1)).count s.sprintfBuffer.1 :=
    List.count_pos_iff.mpr (List.mem_map.mpr ⟨q, hq, congrArg Subtype.val (h.buffer q hq)⟩)
  have hflushed : (List.replicate (s.pending.length + 1) m.1).count s.sprintfBuffer.1 = 0 :=
    List.count_eq_zero.mpr (fun hmem => hbuffer (List.eq_of_mem_replicate hmem))
  have hformatted : ((m :: s.formatted).map Subtype.val).count s.sprintfBuffer.1 =
      (s.formatted.map Subtype.val).count s.sprintfBuffer.1 :=
    List.count_cons_of_ne hbuffer.symm
  rw [List.count_append] at hbefore
  have hafter : (s.file ++ List.replicate (s.pending.length + 1) m.1).count s.sprintfBuffer.1 =
      ((m :: s.formatted).map Subtype.val).count s.sprintfBuffer.1 := hafter
  rw [List.count_append, hflushed, hformatted] at hafter
  omega

/-- After a step over a waiting message the writes that are due lose it. -/
theorem HookSt.overwritten {f : LogFile} (s : HookSt τ) (e : HookStep τ) (h : s.Exact)
    (hf : s.Follows e) (hover : ¬ s.NoOverwrite e) :
    ∃ ws, (∀ w ∈ ws, w.IsWrite) ∧ Along (step f) Follows (s.step f e) ws ∧
      ¬ ((run (step f) (s.step f e) ws).pending = [] → (run (step f) (s.step f e) ws).AllLogged) := by
  cases e with
  | opens t uid => exact absurd trivial hover
  | writes t => exact absurd trivial hover
  | closes t => exact absurd trivial hover
  | formats t m =>
      have hnext := HookSt.open_step f s (.formats t m) h.toOpen hf
      obtain ⟨hfollows, hrun⟩ := HookSt.run_flush f (s := s.step f (.formats t m))
        (fun _ => hnext.fd_of_pending (t := t) List.mem_cons_self)
      refine ⟨_, isWrite_of_mem_flush, hfollows, fun hlogged => ?_⟩
      exact HookSt.flush_overwritten h hover (hlogged (by rw [hrun]))

/-- **Every message is logged exactly once**, in every way the beginnings of a run can be
completed by the writes that are due, if and only if no thread of the run formats over a message
that is waiting to be written. -/
theorem messages_logged_once_iff (f : LogFile) (es : List (HookStep τ))
    (hf : Along (HookSt.step f) HookSt.Follows {} es) :
    (∀ p ws, p <+: es → (∀ e ∈ ws, e.IsWrite) → Along (HookSt.step f) HookSt.Follows {} (p ++ ws) →
      (run (HookSt.step f) {} (p ++ ws)).pending = [] →
      (run (HookSt.step f) {} (p ++ ws)).AllLogged) ↔
    Along (HookSt.step f) HookSt.NoOverwrite {} es := by
  exact along_iff_completions (Q := fun s => s.pending = [] → s.AllLogged) (HookSt.exact_step f)
    (fun s h hdone => h.allLogged hdone) HookSt.noOverwrite_of_isWrite HookSt.overwritten
    HookSt.exact_boot hf

theorem messages_logged_in_turn :
    Along (HookSt.step .global) HookSt.NoOverwrite {}
      [.opens 1 7, .opens 2 8, .formats 1 ⟨[65], by decide⟩, .writes 1,
        .formats 2 ⟨[66], by decide⟩, .writes 2, .closes 1, .closes 2] ∧
    (run (HookSt.step .global) {} ([.opens 1 7, .opens 2 8, .formats 1 ⟨[65], by decide⟩] ++
      [.writes 1])).AllLogged :=
  ⟨by decide, (messages_logged_once_iff .global
    [.opens 1 7, .opens 2 8, .formats 1 ⟨[65], by decide⟩, .writes 1,
      .formats 2 ⟨[66], by decide⟩, .writes 2, .closes 1, .closes 2] (by decide)).mpr (by decide)
    _ _ ⟨[.writes 1, .formats 2 ⟨[66], by decide⟩, .writes 2, .closes 1, .closes 2], rfl⟩
    (by simp [HookStep.IsWrite]) (by decide) (by decide)⟩

/-- The second thread formats between the first one's format and its write: the file gets the
second message twice. -/
theorem message_overwritten :
    ¬ ∀ (f : LogFile) (es : List (HookStep Nat)), Along (HookSt.step f) HookSt.Follows {} es →
      (run (HookSt.step f) {} es).pending = [] → (run (HookSt.step f) {} es).AllLogged := by
  intro h
  have hlogged := h .global
    [.opens 1 7, .formats 1 ⟨[65], by decide⟩, .opens 2 8, .formats 2 ⟨[66], by decide⟩,
      .writes 1, .writes 2, .closes 1, .closes 2] (by decide) (by decide)
  have hcount := hlogged.count_eq [65]
  exact absurd hcount (by decide)

end PsvEmmc
