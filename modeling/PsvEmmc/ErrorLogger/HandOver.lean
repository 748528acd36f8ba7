/-
# `PsvEmmc.ErrorLogger.HandOver` — records between a hook and the listener

Invocations of a hook, in any threads, and the polls of the listener thread
take turns in any order.  The source says of it that "it would be better if
mutex is added to the listener thread to avoid corruption of data that is
logged if listener is not fast enough".

Two invocations can leave records that read the same, so a record is not
logged when its text is in the log: the line has to be its own.  The model
therefore keeps beside each global which invocation stored it last, and a
line keeps this of the globals it was formatted from.  It is the line of the
invocation that stored all it prints.

The listener formats the lines that are due and writes them, and its polls
lose none of them (`formatted_append_ahead_poll`).  A record is lost when its
invocation returns as the last one in progress and one of its lines was not
formatted and is not due with the record still in the globals, and only then
(`records_logged_iff`).

Invocations that do not overlap and set the flag when the listener has not
formatted yet hand their records over, if the hook sets its flag behind all
stores (`handsOver_of_takesTurns`).
-/
import PsvEmmc.ErrorLogger.Hooks
import PsvEmmc.Lib.Runs

namespace PsvEmmc.ErrorLogger

open Runs

/-! ## The machine -/

/-- An invocation of the hook, by its number, with the arguments and the result of its record. -/
structure Invocation where
  id : Nat
  record : Record

/-- A line with what its format printed, and the invocations that had stored the globals and set
the flag by then. -/
structure Line where
  format : Format
  text : List Char
  writers : Field → Option Invocation
  setter : Option Invocation

/-- The invocation stored all that the line prints; of a line that prints nothing, it set the
flag. -/
def Line.IsOf (line : Line) (v : Invocation) : Prop :=
  (∀ a ∈ line.format.args, line.writers a = some v) ∧
    (line.format.args = [] → line.setter = some v)

/-- Where the listener is: it waits, or has lines to format, or one to write. -/
inductive Listener where
  | idle
  | formats (todo : List Format)
  | writes (line : Line) (todo : List Format)

/-- The globals and the flag of a hook, with the invocations that stored them last; the
invocations in progress with what they still have to do; the listener and the log; the
invocation that finished last; and how many there were. -/
structure HandSt (τ : Type*) where
  globals : Record := {}
  writers : Field → Option Invocation := fun _ => none
  called : Int32 := 0
  setter : Option Invocation := none
  threads : τ → Option (Invocation × List Action) := fun _ => none
  listener : Listener := .idle
  log : List Line := []
  last : Option Invocation := none
  entered : Nat := 0

/-- A thread enters the hook with the arguments and the result of a record, or does its next step
there, or the listener does its next step. -/
inductive HandStep (τ : Type*) where
  | enters (t : τ) (r : Record)
  | acts (t : τ)
  | polls

variable {τ : Type*} [DecidableEq τ]

/-- What `sceClibSnprintf` makes of the globals. -/
def HandSt.print (s : HandSt τ) (f : Format) : Line where
  format := f
  text := f.print s.globals
  writers := s.writers
  setter := s.setter

/-- The listener sees the flag, formats and writes each line, and clears the flag. -/
def HandSt.poll (h : Hook) (s : HandSt τ) : HandSt τ :=
  match s.listener with
  | .idle => if s.called = 1 then { s with listener := .formats h.lines } else s
  | .formats (f :: todo) => { s with listener := .writes (s.print f) todo }
  | .writes line todo => { s with listener := .formats todo, log := s.log ++ [line] }
  | .formats [] => { s with listener := .idle, called := 0 }

/-- An invocation with nothing left to do returns. -/
def HandSt.act (s : HandSt τ) (t : τ) : HandSt τ :=
  match s.threads t with
  | none => s
  | some (v, []) => { s with threads := Function.update s.threads t none, last := some v }
  | some (v, .stores fields :: todo) =>
      { s with
        globals := s.globals.store v.record fields
        writers := fun a => if a ∈ fields then some v else s.writers a
        threads := Function.update s.threads t (some (v, todo)) }
  | some (v, .calls :: todo) =>
      { s with
        called := 1
        setter := some v
        threads := Function.update s.threads t (some (v, todo)) }

def HandSt.step (h : Hook) (s : HandSt τ) : HandStep τ → HandSt τ
  | .enters t r =>
      match s.threads t with
      | none =>
          { s with
            threads := Function.update s.threads t (some (⟨s.entered, r⟩, h.program))
            entered := s.entered + 1 }
      | some _ => s
  | .acts t => s.act t
  | .polls => s.poll h

/-! ## Lines that are formatted and lines that are due -/

/-- The lines that the listener has formatted. -/
def HandSt.formatted (s : HandSt τ) : List Line :=
  match s.listener with
  | .writes line _ => s.log ++ [line]
  | _ => s.log

/-- What the listener formats next when it is left alone. -/
def HandSt.due (h : Hook) (s : HandSt τ) : List Format :=
  match s.listener with
  | .idle => if s.called = 1 then h.lines else []
  | .formats todo => todo
  | .writes _ todo => todo

/-- The lines that this makes. -/
def HandSt.ahead (h : Hook) (s : HandSt τ) : List Line := (s.due h).map s.print

/-- The lines of the record fit in the buffer. -/
def Hook.Fits (h : Hook) (r : Record) : Prop := ∀ f ∈ h.lines, (f.text r).length ≤ 255

/-- Each line of the invocation was formatted, or is due while the globals still hold what it
prints; and it fits in the buffer. -/
def HandSt.Handed (h : Hook) (s : HandSt τ) (v : Invocation) : Prop :=
  h.Fits v.record ∧ ∀ f ∈ h.lines,
    (∃ line ∈ s.formatted, line.format = f ∧ line.IsOf v) ∨
      (f ∈ s.due h ∧ (s.print f).IsOf v)

/-- No invocation is in progress. -/
def HandSt.Quiet (s : HandSt τ) : Prop := ∀ t, s.threads t = none

/-- What should hold in every state: with the flag clear and no invocation in progress, the
invocation that finished last has each of its lines in the log, with its record. -/
def HandSt.Logged (h : Hook) (s : HandSt τ) : Prop :=
  s.called = 0 → s.Quiet → ∀ v ∈ s.last, ∀ f ∈ h.lines,
    ∃ line ∈ s.log, line.format = f ∧ line.IsOf v ∧ line.text = f.text v.record

/-- An invocation that returns as the last one in progress has handed its record over. -/
def HandsOver (h : Hook) (s : HandSt τ) : HandStep τ → Prop
  | .acts t =>
      ∀ v, s.threads t = some (v, []) → (∀ u, u ≠ t → s.threads u = none) → s.Handed h v
  | _ => True

omit [DecidableEq τ] in
/-- A poll formats what is due. -/
theorem formatted_append_ahead_poll (h : Hook) (s : HandSt τ) :
    (s.poll h).formatted ++ (s.poll h).ahead h = s.formatted ++ s.ahead h := by
  cases hl : s.listener with
  | idle =>
      by_cases hc : s.called = 1
      · simp only [HandSt.poll, HandSt.formatted, HandSt.ahead, HandSt.due, hl, hc, if_true]
        rfl
      · simp only [HandSt.poll, HandSt.formatted, HandSt.ahead, HandSt.due, hl, hc, if_false]
  | formats todo =>
      cases todo with
      | nil => simp [HandSt.poll, HandSt.formatted, HandSt.ahead, HandSt.due, hl]
      | cons f todo =>
          simp only [HandSt.poll, HandSt.formatted, HandSt.ahead, HandSt.due, hl, List.map_cons,
            List.append_assoc]
          rfl
  | writes line todo =>
      simp only [HandSt.poll, HandSt.formatted, HandSt.ahead, HandSt.due, hl]
      rfl

/-! ## Polls -/

section Polls

variable (h : Hook)

/-- The state after some polls. -/
def HandSt.pollTimes (n : Nat) (s : HandSt τ) : HandSt τ :=
  run (HandSt.step h) s (List.replicate n .polls)

omit [DecidableEq τ] in
/-- A poll leaves the hook and its globals alone. -/
theorem poll_frame (s : HandSt τ) :
    (s.poll h).threads = s.threads ∧ (s.poll h).last = s.last ∧
      (s.poll h).globals = s.globals ∧ (s.poll h).print = s.print := by
  unfold HandSt.poll
  split
  · split <;> exact ⟨rfl, rfl, rfl, rfl⟩
  · exact ⟨rfl, rfl, rfl, rfl⟩
  · exact ⟨rfl, rfl, rfl, rfl⟩
  · exact ⟨rfl, rfl, rfl, rfl⟩

theorem pollTimes_frame (n : Nat) (s : HandSt τ) :
    (s.pollTimes h n).formatted ++ (s.pollTimes h n).ahead h = s.formatted ++ s.ahead h ∧
    (s.pollTimes h n).threads = s.threads ∧ (s.pollTimes h n).last = s.last := by
  induction n generalizing s with
  | zero => exact ⟨rfl, rfl, rfl⟩
  | succ n ih =>
      obtain ⟨hlines, hthreads, hlast⟩ := ih (s.poll h)
      obtain ⟨hthreads', hlast', _⟩ := poll_frame h s
      exact ⟨hlines.trans (formatted_append_ahead_poll h s), hthreads.trans hthreads',
        hlast.trans hlast'⟩

/-- The flag is clear, and the listener waits. -/
def HandSt.Done (s : HandSt τ) : Prop := s.called = 0 ∧ s.listener = .idle

omit [DecidableEq τ] in
/-- Then all lines that were formatted are written, and none is due. -/
theorem lines_of_done {s : HandSt τ} (hs : s.Done) :
    s.formatted = s.log ∧ s.due h = [] := by
  rw [HandSt.formatted, HandSt.due, hs.2]
  exact ⟨rfl, if_neg (by rw [hs.1]; decide)⟩

theorem drains_formats (todo : List Format) {s : HandSt τ} (hs : s.listener = .formats todo) :
    ∃ n, (s.pollTimes h n).Done := by
  induction todo generalizing s with
  | nil =>
      refine ⟨1, ?_⟩
      show (s.poll h).Done
      rw [HandSt.poll, hs]
      exact ⟨rfl, rfl⟩
  | cons f todo ih =>
      have hnext : ((s.poll h).poll h).listener = .formats todo := by
        have hfirst : s.poll h = { s with listener := .writes (s.print f) todo } := by
          rw [HandSt.poll, hs]
        rw [hfirst]
        rfl
      obtain ⟨n, hn⟩ := ih hnext
      exact ⟨n + 2, hn⟩

/-- The listener comes to an end of its lines. -/
theorem drains {s : HandSt τ} (hs : s.called = 1 ∨ s.Done) : ∃ n, (s.pollTimes h n).Done := by
  cases hl : s.listener with
  | formats todo => exact drains_formats h todo hl
  | writes line todo =>
      have hnext : (s.poll h).listener = .formats todo := by
        rw [HandSt.poll, hl]
      obtain ⟨n, hn⟩ := drains_formats h todo hnext
      exact ⟨n + 1, hn⟩
  | idle =>
      rcases hs with hcalled | hdone
      · have hnext : (s.poll h).listener = .formats h.lines := by
          rw [HandSt.poll, hl]
          exact congrArg HandSt.listener (if_pos hcalled)
        obtain ⟨n, hn⟩ := drains_formats h h.lines hnext
        exact ⟨n + 1, hn⟩
      · exact ⟨0, hdone⟩

end Polls

/-! ## Every step -/

/-- A global holds what the invocation that stored it last has in its record. -/
def HandSt.Holds (s : HandSt τ) : Prop :=
  ∀ a v, s.writers a = some v →
    s.globals.word a = v.record.word a ∧ (a = .path → s.globals.path = v.record.path)

/-- A line prints the record of the invocation it is of, as far as the buffer goes. -/
def Line.Prints (line : Line) : Prop :=
  ∀ v, line.IsOf v → line.text = (line.format.text v.record).take 255

/-- What steps keep when records are handed over. -/
structure HandInv (h : Hook) (s : HandSt τ) : Prop where
  busy : s.called = 1 ∨ s.Done
  holds : s.Holds
  prints : ∀ line ∈ s.formatted, line.Prints
  handed : s.Quiet → ∀ v ∈ s.last, s.Handed h v

omit [DecidableEq τ] in
theorem HandSt.Holds.prints {s : HandSt τ} (hs : s.Holds) (f : Format) : (s.print f).Prints := by
  rintro v ⟨hwriters, _⟩
  have htext : f.text s.globals = f.text v.record :=
    Format.text_congr (fun a ha => (hs a v (hwriters a ha)).1)
      (fun hp => (hs .path v (hwriters .path hp)).2 rfl)
  show (f.text s.globals).take 255 = _
  rw [htext]
  rfl

omit [DecidableEq τ] in
theorem HandSt.Holds.stores {s s' : HandSt τ} (hs : s.Holds) {v : Invocation}
    {fields : List Field} (hglobals : s'.globals = s.globals.store v.record fields)
    (hwriters : s'.writers = fun a => if a ∈ fields then some v else s.writers a) : s'.Holds := by
  intro a u ha
  rw [hwriters] at ha
  rw [hglobals]
  by_cases hmem : a ∈ fields
  · obtain rfl : v = u := Option.some.inj ((if_pos hmem).symm.trans ha)
    refine ⟨if_pos hmem, ?_⟩
    rintro rfl
    exact if_pos hmem
  · obtain ⟨hword, hpath⟩ := hs a u ((if_neg hmem).symm.trans ha)
    refine ⟨(if_neg hmem).trans hword, ?_⟩
    rintro rfl
    exact (if_neg hmem).trans (hpath rfl)

omit [DecidableEq τ] in
/-- Handed over is handed over when the same lines are formatted or due. -/
theorem handed_iff {h : Hook} {s : HandSt τ} {v : Invocation} :
    s.Handed h v ↔ h.Fits v.record ∧ ∀ f ∈ h.lines,
      ∃ line ∈ s.formatted ++ s.ahead h, line.format = f ∧ line.IsOf v := by
  refine and_congr_right fun _ => forall₂_congr fun f _ => ?_
  constructor
  · rintro (⟨line, hline, hof⟩ | ⟨hdue, hof⟩)
    · exact ⟨line, List.mem_append_left _ hline, hof⟩
    · exact ⟨s.print f, List.mem_append_right _ (List.mem_map_of_mem hdue), rfl, hof⟩
  · rintro ⟨line, hline, hformat, hof⟩
    rcases List.mem_append.mp hline with hline | hline
    · exact Or.inl ⟨line, hline, hformat, hof⟩
    · obtain ⟨f', hdue, rfl⟩ := List.mem_map.mp hline
      obtain rfl : f' = f := hformat
      exact Or.inr ⟨hdue, hof⟩

theorem not_quiet_update {s : HandSt τ} {t : τ} {p : Invocation × List Action} :
    ¬ ∀ u, Function.update s.threads t (some p) u = none := by
  intro hquiet
  have := hquiet t
  rw [Function.update_self] at this
  cases this

omit [DecidableEq τ] in
theorem busy_poll {h : Hook} {s : HandSt τ} (hs : s.called = 1 ∨ s.Done) :
    (s.poll h).called = 1 ∨ (s.poll h).Done := by
  cases hl : s.listener with
  | idle =>
      by_cases hc : s.called = 1
      · simp only [HandSt.poll, hl, hc, if_true]
        exact Or.inl trivial
      · simp only [HandSt.poll, hl, hc, if_false]
        exact Or.inr (hs.resolve_left hc)
  | formats todo =>
      have hc : s.called = 1 := hs.resolve_right fun hdone => by
        rw [hdone.2] at hl
        cases hl
      cases todo with
      | nil =>
          simp only [HandSt.poll, hl]
          exact Or.inr ⟨rfl, rfl⟩
      | cons f todo =>
          simp only [HandSt.poll, hl]
          exact Or.inl hc
  | writes line todo =>
      have hc : s.called = 1 := hs.resolve_right fun hdone => by
        rw [hdone.2] at hl
        cases hl
      simp only [HandSt.poll, hl]
      exact Or.inl hc

omit [DecidableEq τ] in
/-- A poll formats at most what the globals hold. -/
theorem HandInv.polls {h : Hook} {s : HandSt τ} (hI : HandInv h s) : HandInv h (s.poll h) := by
  obtain ⟨hthreads, hlast, hglobals, hprint⟩ := poll_frame h s
  have hwriters : (s.poll h).writers = s.writers :=
    congrArg (fun p => Line.writers (p ⟨"", []⟩)) hprint
  refine ⟨busy_poll hI.busy, ?_, ?_, ?_⟩
  · intro a v ha
    rw [hglobals]
    exact hI.holds a v (hwriters ▸ ha)
  · intro line hline
    have hmem : line ∈ s.formatted ++ s.ahead h := by
      rw [← formatted_append_ahead_poll]
      exact List.mem_append_left _ hline
    rcases List.mem_append.mp hmem with hmem | hmem
    · exact hI.prints line hmem
    · obtain ⟨f, _, rfl⟩ := List.mem_map.mp hmem
      exact hI.holds.prints f
  · intro hquiet v hv
    rw [handed_iff, formatted_append_ahead_poll, ← handed_iff]
    exact hI.handed (fun t => hthreads ▸ hquiet t) v (hlast ▸ hv)

/-- An invocation starts, or does its next step. -/
theorem HandInv.step {h : Hook} {s : HandSt τ} (hI : HandInv h s) {e : HandStep τ}
    (he : HandsOver h s e) : HandInv h (s.step h e) := by
  obtain ⟨hbusy, hholds, hprints, hhanded⟩ := hI
  cases e with
  | enters t r =>
      cases ht : s.threads t with
      | none =>
          simp only [HandSt.step, ht]
          exact ⟨hbusy, hholds, hprints, fun hquiet => absurd hquiet not_quiet_update⟩
      | some p =>
          simp only [HandSt.step, ht]
          exact ⟨hbusy, hholds, hprints, hhanded⟩
  | acts t =>
      rw [HandSt.step, HandSt.act]
      split
      · exact ⟨hbusy, hholds, hprints, hhanded⟩
      · next v ht =>
          refine ⟨hbusy, hholds, hprints, fun hquiet v' hv' => ?_⟩
          obtain rfl := Option.some.inj hv'
          exact he v ht fun u hu => (Function.update_of_ne hu ..).symm.trans (hquiet u)
      · next v fields todo ht =>
          exact ⟨hbusy, hholds.stores rfl rfl, hprints,
            fun hquiet => absurd hquiet not_quiet_update⟩
      · exact ⟨Or.inl rfl, hholds, hprints, fun hquiet => absurd hquiet not_quiet_update⟩
  | polls => exact HandInv.polls ⟨hbusy, hholds, hprints, hhanded⟩

omit [DecidableEq τ] in
theorem HandInv.logged {h : Hook} {s : HandSt τ} (hI : HandInv h s) : s.Logged h := by
  intro hcalled hquiet v hv f hf
  have hdone : s.Done := hI.busy.resolve_left fun hc => by
    rw [hcalled] at hc
    exact absurd hc (by decide)
  obtain ⟨hformatted, hdue⟩ := lines_of_done h hdone
  obtain ⟨hfits, hlines⟩ := hI.handed hquiet v hv
  rcases hlines f hf with ⟨line, hline, rfl, hof⟩ | ⟨hmem, _⟩
  · refine ⟨line, hformatted ▸ hline, rfl, hof, ?_⟩
    rw [hI.prints line hline v hof, List.take_of_length_le (hfits _ hf)]
  · rw [hdue] at hmem
    exact absurd hmem List.not_mem_nil

/-- A record that is not handed over is not in the log when the listener is done. -/
theorem record_lost {h : Hook} {s : HandSt τ} (hI : HandInv h s) {e : HandStep τ}
    (he : ¬ HandsOver h s e) :
    ∃ n, ¬ ((s.step h e).pollTimes h n).Logged h := by
  cases e with
  | enters t r => exact absurd trivial he
  | polls => exact absurd trivial he
  | acts t =>
      simp only [HandsOver, not_forall] at he
      obtain ⟨v, ht, halone, hnot⟩ := he
      have hstep : s.step h (.acts t) =
          { s with threads := Function.update s.threads t none, last := some v } := by
        rw [HandSt.step, HandSt.act, ht]
      rw [hstep]
      set s' : HandSt τ := { s with threads := Function.update s.threads t none, last := some v }
      obtain ⟨n, hdone⟩ := drains h (s := s') hI.busy
      obtain ⟨hlines, hthreads, hlast⟩ := pollTimes_frame h n s'
      refine ⟨n, fun hlogged => hnot (handed_iff.mpr ?_)⟩
      have hquiet : (s'.pollTimes h n).Quiet := by
        intro u
        rw [hthreads]
        rcases eq_or_ne u t with rfl | hne
        · exact Function.update_self ..
        · exact (Function.update_of_ne hne ..).trans (halone u hne)
      have hlogged := hlogged hdone.1 hquiet v (by rw [hlast]; rfl)
      have hlog : (s'.pollTimes h n).log = s.formatted ++ s.ahead h := by
        obtain ⟨hformatted, hdue⟩ := lines_of_done h hdone
        rw [hformatted, HandSt.ahead, hdue, List.map_nil, List.append_nil] at hlines
        exact hlines
      rw [hlog] at hlogged
      refine ⟨fun f hf => ?_, fun f hf => ?_⟩
      · obtain ⟨line, hline, rfl, hof, htext⟩ := hlogged f hf
        have hprints : line.Prints := by
          rcases List.mem_append.mp hline with hline | hline
          · exact hI.prints line hline
          · obtain ⟨f', _, rfl⟩ := List.mem_map.mp hline
            exact hI.holds.prints f'
        rw [← htext, hprints v hof]
        exact List.length_take_le 255 _
      · obtain ⟨line, hline, hformat, hof, _⟩ := hlogged f hf
        exact ⟨line, hline, hformat, hof⟩

/-- **Are the records logged?**  Take the beginnings of a run and let the listener poll on.  In
every state reached, with the flag clear and no invocation in progress, the invocation that
finished last has its own lines in the log, exactly when every invocation of the run that returns
as the last one in progress has handed its record over. -/
theorem records_logged_iff (h : Hook) (es : List (HandStep τ)) :
    (∀ p ws, p <+: es → (∀ w ∈ ws, w = .polls) →
      (run (HandSt.step h) {} (p ++ ws)).Logged h) ↔
    Along (HandSt.step h) (HandsOver h) {} es := by
  have hfree : ∀ (s : HandSt τ) (e : HandStep τ), e = .polls → HandsOver h s e := by
    rintro s _ rfl
    trivial
  have hall : ∀ es' : List (HandStep τ),
      Along (HandSt.step h) (fun _ _ => True) ({} : HandSt τ) es' :=
    fun _ => along_of_mem fun _ _ _ => trivial
  have hstart : HandInv h ({} : HandSt τ) :=
    ⟨Or.inr ⟨rfl, rfl⟩, fun a v ha => (by cases ha),
      fun line hline => absurd hline List.not_mem_nil, fun _ v hv => (by cases hv)⟩
  have hiff := along_iff_completions (fun s e hI he => HandInv.step hI he.2)
    (fun s hI => HandInv.logged hI) hfree
    (fun s e hI _ he => by
      obtain ⟨n, hn⟩ := record_lost hI he
      exact ⟨List.replicate n .polls, fun w hw => List.eq_of_mem_replicate hw,
        along_of_mem fun _ _ _ => trivial, hn⟩) hstart (hall es)
  refine Iff.trans ?_ hiff
  exact ⟨fun hlogged p ws hp hws _ => hlogged p ws hp hws,
    fun hlogged p ws hp hws => hlogged p ws hp hws (hall _)⟩

/-! ## Invocations that take turns -/

/-- An invocation starts when no other is in progress, with a record that fits, and sets the flag
when the listener has not formatted a line yet. -/
def TakesTurns (h : Hook) (s : HandSt τ) : HandStep τ → Prop
  | .enters t r => s.threads t = none → h.Fits r ∧ s.Quiet
  | .acts t =>
      ∀ v todo, s.threads t = some (v, .calls :: todo) →
        s.listener = .idle ∨ s.listener = .formats h.lines
  | .polls => True

theorem storedFields_append (as bs : List Action) :
    storedFields (as ++ bs) = storedFields as ++ storedFields bs :=
  List.flatMap_append

/-- What is known of an invocation with these steps still to do. -/
structure Underway (h : Hook) (s : HandSt τ) (v : Invocation) (todo : List Action) : Prop where
  fits : h.Fits v.record
  stored : ∃ done, h.program = done ++ todo ∧ ∀ a ∈ storedFields done, s.writers a = some v
  handed : todo = [] → s.Handed h v

/-- What steps keep when invocations take turns. -/
structure TurnInv (h : Hook) (s : HandSt τ) : Prop where
  alone : ∀ t u, s.threads t ≠ none → s.threads u ≠ none → t = u
  underway : ∀ t v todo, s.threads t = some (v, todo) → Underway h s v todo

/-- The only invocation in progress moves on. -/
theorem TurnInv.update {h : Hook} {s s' : HandSt τ} {t : τ} {p : Invocation × List Action}
    (hI : TurnInv h s) (ht : s.threads t ≠ none ∨ s.Quiet)
    (hthreads : s'.threads = Function.update s.threads t (some p))
    (hp : Underway h s' p.1 p.2) : TurnInv h s' := by
  have hother : ∀ u, u ≠ t → s'.threads u = none := by
    intro u hu
    rw [hthreads, Function.update_of_ne hu]
    by_contra hsome
    rcases ht with ht | hquiet
    · exact hu (hI.alone u t hsome ht)
    · exact hsome (hquiet u)
  have honly : ∀ u, s'.threads u ≠ none → u = t := fun u hu => by
    by_contra hne
    exact hu (hother u hne)
  refine ⟨fun u v hu hv => (honly u hu).trans (honly v hv).symm, fun u v todo hu => ?_⟩
  obtain rfl := honly u (by rw [hu]; exact Option.some_ne_none _)
  rw [hthreads, Function.update_self] at hu
  obtain rfl := Option.some.inj hu
  exact hp

/-- An invocation starts with nothing stored. -/
theorem TurnInv.enters {h : Hook} (hlast : h.program.getLast? = some .calls) {s : HandSt τ}
    (hI : TurnInv h s) {t : τ} {r : Record} (he : TakesTurns h s (.enters t r)) :
    TurnInv h (s.step h (.enters t r)) := by
  cases ht : s.threads t with
  | none =>
      obtain ⟨hfits, hquiet⟩ := he ht
      rw [HandSt.step, ht]
      refine hI.update (Or.inr hquiet) rfl ⟨hfits, ⟨[], rfl, ?_⟩, fun hnil => ?_⟩
      · exact fun a ha => absurd ha List.not_mem_nil
      · have hprogram : h.program = [] := hnil
        rw [hprogram] at hlast
        cases hlast
  | some p =>
      rw [HandSt.step, ht]
      exact hI

/-- It returns, and none is in progress. -/
theorem TurnInv.returns {h : Hook} {s : HandSt τ} (hI : TurnInv h s) {t : τ} {v : Invocation}
    (ht : s.threads t = some (v, [])) : TurnInv h (s.step h (.acts t)) := by
  rw [HandSt.step, HandSt.act, ht]
  have hnone : ∀ u, Function.update s.threads t none u = none := by
    intro u
    rcases eq_or_ne u t with rfl | hne
    · exact Function.update_self ..
    · rw [Function.update_of_ne hne]
      by_contra hsome
      exact hne (hI.alone u t hsome (by rw [ht]; exact Option.some_ne_none _))
  exact ⟨fun u _ hu _ => absurd (hnone u) hu, fun u v todo hu => by
    cases (hnone u).symm.trans hu⟩

/-- It stores, and the flag is still to be set. -/
theorem TurnInv.stores {h : Hook} (hlast : h.program.getLast? = some .calls) {s : HandSt τ}
    (hI : TurnInv h s) {t : τ} {v : Invocation} {fields : List Field} {todo : List Action}
    (ht : s.threads t = some (v, .stores fields :: todo)) : TurnInv h (s.step h (.acts t)) := by
  obtain ⟨hfits, ⟨done, hdone, hstored⟩, _⟩ := hI.underway t v _ ht
  rw [HandSt.step, HandSt.act, ht]
  refine hI.update (Or.inl (by rw [ht]; exact Option.some_ne_none _)) rfl
    ⟨hfits, ⟨done ++ [.stores fields], ?_, ?_⟩, fun hnil => ?_⟩
  · rw [hdone, List.append_assoc]
    rfl
  · intro a ha
    have hfields : storedFields [.stores fields] = fields := List.append_nil fields
    rw [storedFields_append, hfields] at ha
    by_cases hmem : a ∈ fields
    · exact if_pos hmem
    · exact (if_neg hmem).trans (hstored a ((List.mem_append.mp ha).resolve_right hmem))
  · -- The last step is the flag.
    have hnil' : todo = [] := hnil
    rw [hdone, hnil', List.getLast?_append] at hlast
    cases hlast

/-- It sets the flag when it has stored all that its lines print, and hands its record over. -/
theorem TurnInv.sets {h : Hook} (hfirst : .calls ∉ h.program.dropLast) (hprints : h.PrintsStored)
    {s : HandSt τ} (hI : TurnInv h s) {t : τ} (he : TakesTurns h s (.acts t)) {v : Invocation}
    {todo : List Action} (ht : s.threads t = some (v, .calls :: todo)) :
    TurnInv h (s.step h (.acts t)) := by
  obtain ⟨hfits, ⟨done, hdone, hstored⟩, _⟩ := hI.underway t v _ ht
  have hnil : todo = [] := by
    by_contra hne
    refine hfirst ?_
    rw [hdone, List.dropLast_append_of_ne_nil (List.cons_ne_nil _ _),
      List.dropLast_cons_of_ne_nil hne]
    exact List.mem_append_right _ List.mem_cons_self
  have hall : storedFields h.program = storedFields done := by
    rw [hdone, hnil, storedFields_append]
    exact List.append_nil _
  rw [HandSt.step, HandSt.act, ht]
  refine hI.update (Or.inl (by rw [ht]; exact Option.some_ne_none _)) rfl
    ⟨hfits, ⟨done ++ [.calls], ?_, ?_⟩, fun _ => ⟨hfits, fun f hf => Or.inr ⟨?_, ?_, ?_⟩⟩⟩
  · rw [hdone, List.append_assoc]
    rfl
  · rw [storedFields_append]
    exact (List.append_nil (storedFields done)).symm ▸ hstored
  · show f ∈ match s.listener with
      | .idle => if (1 : Int32) = 1 then h.lines else []
      | .formats todo => todo
      | .writes _ todo => todo
    rcases he v todo ht with hl | hl
    · rw [hl]
      exact hf
    · rw [hl]
      exact hf
  · exact fun a ha => hstored a (hall ▸ hprints f hf a ha)
  · exact fun _ => rfl

theorem TurnInv.acts {h : Hook} (hcalls : h.CallsLast) (hprints : h.PrintsStored)
    {s : HandSt τ} (hI : TurnInv h s) {t : τ} (he : TakesTurns h s (.acts t)) :
    TurnInv h (s.step h (.acts t)) := by
  obtain ⟨hlast, hfirst⟩ := hcalls
  cases ht : s.threads t with
  | none =>
      rw [HandSt.step, HandSt.act, ht]
      exact hI
  | some p =>
      obtain ⟨v, todo⟩ := p
      cases todo with
      | nil => exact hI.returns ht
      | cons a todo =>
          cases a with
          | stores fields => exact hI.stores hlast ht
          | calls => exact hI.sets hfirst hprints he ht

/-- The listener leaves the globals alone and what is handed over. -/
theorem TurnInv.polls {h : Hook} {s : HandSt τ} (hI : TurnInv h s) :
    TurnInv h (s.step h .polls) := by
  obtain ⟨halone, hunderway⟩ := hI
  obtain ⟨hthreads, _, _, hprint⟩ := poll_frame h s
  have hwriters : (s.poll h).writers = s.writers :=
    congrArg (fun p => Line.writers (p ⟨"", []⟩)) hprint
  refine ⟨fun t u ht hu => ?_, fun t v todo ht => ?_⟩
  · rw [HandSt.step, hthreads] at ht hu
    exact halone t u ht hu
  · rw [HandSt.step, hthreads] at ht
    obtain ⟨hfits, ⟨done, hdone, hstored⟩, hhanded⟩ := hunderway t v todo ht
    refine ⟨hfits, ⟨done, hdone, ?_⟩, fun hnil => ?_⟩
    · intro a ha
      rw [HandSt.step, hwriters]
      exact hstored a ha
    · rw [HandSt.step, handed_iff, formatted_append_ahead_poll, ← handed_iff]
      exact hhanded hnil

theorem TurnInv.step {h : Hook} (hcalls : h.CallsLast) (hprints : h.PrintsStored)
    {s : HandSt τ} (hI : TurnInv h s) {e : HandStep τ} (he : TakesTurns h s e) :
    TurnInv h (s.step h e) := by
  cases e with
  | enters t r => exact hI.enters hcalls.1 he
  | acts t => exact hI.acts hcalls hprints he
  | polls => exact hI.polls

/-- Invocations of a hook that sets its flag behind all stores hand their records over when they
take turns. -/
theorem handsOver_of_takesTurns {h : Hook} (hh : h ∈ hooks)
    (hlast : h ∉ [proc83F27424Hook, proc83F20D36Hook]) {es : List (HandStep τ)}
    (hturns : Along (HandSt.step h) (TakesTurns h) {} es) :
    Along (HandSt.step h) (HandsOver h) {} es := by
  have hcalls : h.CallsLast := (hooks_callsLast_iff h hh).mpr hlast
  refine along_of_inv (fun _ _ hI he => TurnInv.step hcalls (hooks_printsStored h hh) hI he)
    (fun s e hI _ => ?_)
    ⟨fun t _ ht _ => absurd rfl ht, fun t v todo ht => by cases ht⟩ hturns
  cases e with
  | acts t => exact fun v ht _ => (hI.underway t v [] ht).handed rfl
  | enters t r | polls => trivial

/-! ## A record that is lost -/

/-- Two records of `proc_83F258F8_hook`. -/
def firstRecord : Record := {}

def secondRecord : Record where
  word f := if f = .arg0 then 1 else 0

/-- While the listener has formatted the first record, the second one comes. -/
def lateListener : List (HandStep Nat) :=
  [.enters 0 firstRecord, .acts 0, .acts 0, .acts 0, .acts 0, .polls, .polls,
    .enters 1 secondRecord, .acts 1, .acts 1, .acts 1, .acts 1, .polls, .polls]

theorem second_record_lost :
    ¬ (run (HandSt.step proc83F258F8Hook) {} lateListener).Logged proc83F258F8Hook := by
  intro hlogged
  have hquiet : (run (HandSt.step proc83F258F8Hook) {} lateListener).Quiet := by
    intro t
    match t with
    | 0 | 1 | _ + 2 => rfl
  obtain ⟨line, hline, _, ⟨hwriters, _⟩, _⟩ :=
    hlogged rfl hquiet ⟨1, secondRecord⟩ rfl _ List.mem_cons_self
  obtain rfl := List.mem_singleton.mp hline
  have hwriter := hwriters .res (by decide)
  exact absurd (congrArg Invocation.id (Option.some.inj hwriter)) (by decide)

end PsvEmmc.ErrorLogger
