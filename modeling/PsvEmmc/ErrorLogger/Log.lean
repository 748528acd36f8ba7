/-
# `PsvEmmc.ErrorLogger.Log` — one descriptor for all threads

The log of the error_logger has no count and no mutex.  `open_global_log`
puts whatever `sceIoOpen` returns into `global_log_fd`, and `close_global_log`
closes what is there and leaves it there.  The listener thread logs, and so do
two hooks in threads of their own.

When a thread opens the log within the bracket of another, one of the two
descriptors is lost, or one is closed twice; only two opens that fail do no
harm.  So the descriptors balance exactly when brackets overlap in no other
way (`descriptors_balance_iff`).  The driver's log has a count and a mutex,
and balances always.
-/
import PsvEmmc.ErrorLogger.Hooks
import PsvEmmc.Lib.Ledger

namespace PsvEmmc.ErrorLogger

open Runs Ledger

/-! ## The log -/

/-- A step of a thread that logs: `open_global_log`, where `uid` is what `sceIoOpen` returns,
`FILE_WRITE` or `FILE_WRITE_LEN`, and `close_global_log`. -/
inductive GlogStep (τ : Type*) where
  | opens (t : τ) (uid : Int32)
  | writes (t : τ) (msg : List Char)
  | closes (t : τ)

/-- The global, the threads within a bracket, and what was done with descriptors. -/
structure GlogSt (τ : Type*) where
  globalLogFd : Int32 := 0
  brackets : List τ := []
  uses : List (Entry Int32) := []

variable {τ : Type*}

def openGlobalLog (uid : Int32) (s : GlogSt τ) : GlogSt τ :=
  { s with
    globalLogFd := uid
    uses := if 0 ≤ uid then s.uses ++ [.acquire uid] else s.uses }

def fileWrite (s : GlogSt τ) : GlogSt τ :=
  if 0 ≤ s.globalLogFd then { s with uses := s.uses ++ [.use s.globalLogFd] } else s

def closeGlobalLog (s : GlogSt τ) : GlogSt τ :=
  if 0 ≤ s.globalLogFd then { s with uses := s.uses ++ [.release s.globalLogFd] } else s

variable [DecidableEq τ]

def GlogSt.step (s : GlogSt τ) : GlogStep τ → GlogSt τ
  | .opens t uid => { openGlobalLog uid s with brackets := t :: s.brackets }
  | .writes _ _ => fileWrite s
  | .closes t => { closeGlobalLog s with brackets := s.brackets.erase t }

/-- The bracket of a thread with one line, as the listener runs it for a hook. -/
def logsLine (t : τ) (uid : Int32) (f : Format) (r : Record) : List (GlogStep τ) :=
  [.opens t uid, .writes t (f.print r), .closes t]

def procGcParamSfo83F6B554Hook (t : τ) (uid : Int32) (r : Record) : List (GlogStep τ) :=
  logsLine t uid
    ⟨"called proc_gc_param_sfo_83F6B554_hook:\narg: %08x res: %08x\n", [.unk, .res]⟩ r

def procGcParamSfo83F74B30Hook (t : τ) (uid : Int32) (r : Record) : List (GlogStep τ) :=
  logsLine t uid
    ⟨"called proc_gc_param_sfo_83F74B30_hook:\narg: %08x res: %08x\n", [.unk, .res]⟩ r

/-- The descriptors that are open. -/
def GlogSt.live (s : GlogSt τ) : List Int32 := run Ledger.step [] s.uses

/-- A thread opens a bracket when it has none, and writes and closes within one; the kernel does
not give out a descriptor that is open. -/
def Follows (s : GlogSt τ) : GlogStep τ → Prop
  | .opens t uid => t ∉ s.brackets ∧ (0 ≤ uid → uid ∉ s.live)
  | .writes t _ => t ∈ s.brackets
  | .closes t => t ∈ s.brackets

/-- A bracket is opened outside all others, or fails to open the file as the last one did. -/
def KeepsOut (s : GlogSt τ) : GlogStep τ → Prop
  | .opens _ uid => s.brackets = [] ∨ (s.globalLogFd < 0 ∧ uid < 0)
  | _ => True

instance (s : GlogSt τ) (e : GlogStep τ) : Decidable (Follows s e) := by
  cases e <;> unfold Follows <;> infer_instance

instance (s : GlogSt τ) (e : GlogStep τ) : Decidable (KeepsOut s e) := by
  cases e <;> unfold KeepsOut <;> infer_instance

/-! ## Brackets that keep out of each other -/

/-- What such brackets keep: outside all brackets no descriptor is open, and within one the open
descriptor is the one in the global. -/
inductive GlogInv (s : GlogSt τ) : Prop
  | outside (hbrackets : s.brackets = []) (huses : Leads [] s.uses [])
  | holding (t : τ) (hbrackets : s.brackets = [t]) (hfd : 0 ≤ s.globalLogFd)
      (huses : Leads [] s.uses [s.globalLogFd])
  | failed (hfd : s.globalLogFd < 0) (huses : Leads [] s.uses [])

/-- A close or a write in a bracket whose open failed does nothing. -/
theorem step_of_failed {s : GlogSt τ} (hfd : s.globalLogFd < 0) :
    (∀ t msg, s.step (.writes t msg) = s) ∧
    ∀ t, s.step (.closes t) = { s with brackets := s.brackets.erase t } := by
  have hnot : ¬ 0 ≤ s.globalLogFd := Int32.not_le.mpr hfd
  constructor
  · intro t msg
    rw [GlogSt.step, fileWrite, if_neg hnot]
  · intro t
    rw [GlogSt.step, closeGlobalLog, if_neg hnot]

theorem GlogInv.step {s : GlogSt τ} (hI : GlogInv s) {e : GlogStep τ}
    (he : Follows s e ∧ KeepsOut s e) : GlogInv (s.step e) := by
  cases e with
  | opens t uid =>
      have hfree : Leads [] s.uses [] ∧ (s.brackets = [] ∨ uid < 0) := by
        rcases he.2 with hnil | ⟨hfd, huid⟩
        · refine ⟨?_, Or.inl hnil⟩
          cases hI with
          | outside _ huses => exact huses
          | holding u hbrackets _ _ => cases hnil.symm.trans hbrackets
          | failed _ huses => exact huses
        · refine ⟨?_, Or.inr huid⟩
          cases hI with
          | outside _ huses => exact huses
          | holding u _ hfd' _ => exact absurd hfd (Int32.not_lt.mpr hfd')
          | failed _ huses => exact huses
      by_cases huid : 0 ≤ uid
      · have hnil : s.brackets = [] := hfree.2.resolve_right (Int32.not_lt.mpr huid)
        refine .holding t (congrArg (List.cons t) hnil) huid ?_
        show Leads [] (if 0 ≤ uid then s.uses ++ [.acquire uid] else s.uses) [uid]
        rw [if_pos huid]
        exact hfree.1.append ⟨⟨trivial, trivial⟩, rfl⟩
      · refine .failed (Int32.not_le.mp huid) ?_
        show Leads [] (if 0 ≤ uid then s.uses ++ [.acquire uid] else s.uses) []
        rw [if_neg huid]
        exact hfree.1
  | writes t msg =>
      cases hI with
      | outside hbrackets _ =>
          have hmem : t ∈ s.brackets := he.1
          rw [hbrackets] at hmem
          exact absurd hmem List.not_mem_nil
      | holding u hbrackets hfd huses =>
          rw [GlogSt.step, fileWrite, if_pos hfd]
          exact .holding u hbrackets hfd (huses.append ⟨⟨List.mem_singleton_self _, trivial⟩, rfl⟩)
      | failed hfd huses =>
          rw [(step_of_failed hfd).1]
          exact .failed hfd huses
  | closes t =>
      have hmem : t ∈ s.brackets := he.1
      cases hI with
      | outside hbrackets _ =>
          rw [hbrackets] at hmem
          exact absurd hmem List.not_mem_nil
      | holding u hbrackets hfd huses =>
          rw [hbrackets] at hmem
          obtain rfl := List.mem_singleton.mp hmem
          rw [GlogSt.step, closeGlobalLog, if_pos hfd]
          refine .outside ?_ (huses.append ⟨⟨List.mem_singleton_self _, trivial⟩, ?_⟩)
          · show s.brackets.erase t = []
            rw [hbrackets, List.erase_cons_head]
          · show [s.globalLogFd].erase s.globalLogFd = []
            rw [List.erase_cons_head]
      | failed hfd huses =>
          rw [(step_of_failed hfd).2]
          exact .failed hfd huses

omit [DecidableEq τ] in
/-- Outside all brackets the descriptors balance. -/
theorem GlogInv.balanced {s : GlogSt τ} (hI : GlogInv s) (hdone : s.brackets = []) :
    Balanced s.uses := by
  cases hI with
  | outside _ huses => exact ⟨huses.1, huses.2⟩
  | holding t hbrackets _ _ => cases hdone.symm.trans hbrackets
  | failed _ huses => exact ⟨huses.1, huses.2⟩

/-! ## Brackets that overlap -/

/-- All open brackets close, the last one first. -/
def closeAll (s : GlogSt τ) : List (GlogStep τ) := s.brackets.map .closes

/-- Every one of them closes what is in the global. -/
theorem run_closeAll (s : GlogSt τ) :
    Along GlogSt.step Follows s (closeAll s) ∧
    (run GlogSt.step s (closeAll s)).brackets = [] ∧
    (run GlogSt.step s (closeAll s)).uses =
      if 0 ≤ s.globalLogFd then
        s.uses ++ List.replicate s.brackets.length (Entry.release s.globalLogFd)
      else s.uses := by
  generalize hbs : s.brackets = bs
  induction bs generalizing s with
  | nil =>
      rw [closeAll, hbs]
      refine ⟨trivial, hbs, ?_⟩
      split
      · exact (List.append_nil _).symm
      · rfl
  | cons b bs ih =>
      have hbrackets : (s.step (.closes b)).brackets = bs := by
        show s.brackets.erase b = bs
        rw [hbs, List.erase_cons_head]
      have hall : closeAll s = .closes b :: closeAll (s.step (.closes b)) := by
        rw [closeAll, hbs, closeAll, hbrackets, List.map_cons]
      have hmem : b ∈ s.brackets := by
        rw [hbs]
        exact List.mem_cons_self
      obtain ⟨hfollows, hdone, huses⟩ := ih (s.step (.closes b)) hbrackets
      rw [hall]
      refine ⟨⟨hmem, hfollows⟩, hdone, huses.trans ?_⟩
      by_cases hfd : 0 ≤ s.globalLogFd
      · have hstep : s.step (.closes b) = { s with
            brackets := s.brackets.erase b
            uses := s.uses ++ [.release s.globalLogFd] } := by
          rw [GlogSt.step, closeGlobalLog, if_pos hfd]
        rw [hstep, if_pos hfd, if_pos hfd, List.append_assoc]
        rfl
      · have hstep := (step_of_failed (Int32.not_le.mp hfd)).2 b
        rw [hstep, if_neg hfd, if_neg hfd]

/-- A descriptor that was opened once is closed once, whoever closes it. -/
theorem not_legal_of_two_closes {uses : List (Entry Int32)} {live : List Int32} {uid : Int32}
    (huses : Leads [] uses live) (huid : uid ∉ live) (n : Nat) :
    ¬ Along Ledger.step Legal []
      ((uses ++ [Entry.acquire uid]) ++ List.replicate (n + 2) (Entry.release uid)) := by
  have hopen : Leads [] (uses ++ [Entry.acquire uid]) (uid :: live) :=
    huses.append ⟨⟨trivial, trivial⟩, rfl⟩
  rw [hopen.legal_append_iff]
  rintro ⟨_, hsecond, _⟩
  have hmem : uid ∈ (uid :: live).erase uid := hsecond
  rw [List.erase_cons_head] at hmem
  exact huid hmem

/-- When a bracket opens within another, the descriptors do not balance in the end, unless both
opens failed. -/
theorem overlap_unbalanced {s : GlogSt τ} (hI : GlogInv s) {e : GlogStep τ}
    (hF : Follows s e) (he : ¬ KeepsOut s e) :
    ∃ ws, (∀ w ∈ ws, ∃ t, w = .closes t) ∧ Along GlogSt.step Follows (s.step e) ws ∧
      ¬ ((run GlogSt.step (s.step e) ws).brackets = [] →
        Balanced (run GlogSt.step (s.step e) ws).uses) := by
  cases e with
  | writes t msg => exact absurd trivial he
  | closes t => exact absurd trivial he
  | opens t uid =>
      obtain ⟨hfollows, hdone, huses⟩ := run_closeAll (s.step (.opens t uid))
      refine ⟨closeAll _, fun w hw => ?_, hfollows, fun hbalanced => ?_⟩
      · obtain ⟨u, _, rfl⟩ := List.mem_map.mp hw
        exact ⟨u, rfl⟩
      have hbal := hbalanced hdone
      obtain ⟨hbrackets, hfd⟩ := not_or.mp he
      obtain ⟨u, us, hus⟩ := List.exists_cons_of_ne_nil hbrackets
      obtain ⟨live, hleads, hlive⟩ : ∃ live, Leads [] s.uses live ∧
          (0 ≤ s.globalLogFd → live = [s.globalLogFd]) := by
        cases hI with
        | outside hnil _ => exact absurd hnil hbrackets
        | holding v _ _ hleads => exact ⟨_, hleads, fun _ => rfl⟩
        | failed hneg hleads => exact ⟨_, hleads, fun h => absurd hneg (Int32.not_lt.mpr h)⟩
      rw [huses] at hbal
      by_cases huid : 0 ≤ uid
      · -- Every open bracket closes the new descriptor.
        have hstep : s.step (.opens t uid) = { s with
            globalLogFd := uid
            brackets := t :: s.brackets
            uses := s.uses ++ [.acquire uid] } := by
          rw [GlogSt.step, openGlobalLog, if_pos huid]
        rw [hstep, if_pos huid, hus] at hbal
        have hnot : uid ∉ live := by
          have hfresh := hF.2 huid
          rwa [GlogSt.live, hleads.2] at hfresh
        exact not_legal_of_two_closes hleads hnot us.length hbal.legal
      · -- Nobody closes the old one.
        have hold : 0 ≤ s.globalLogFd :=
          Int32.not_lt.mp fun hneg => hfd ⟨hneg, Int32.not_le.mp huid⟩
        have hstep : s.step (.opens t uid) = { s with
            globalLogFd := uid
            brackets := t :: s.brackets } := by
          rw [GlogSt.step, openGlobalLog, if_neg huid]
        rw [hstep, if_neg huid] at hbal
        have hclosed : live = [] := hleads.2.symm.trans hbal.closed
        cases (hlive hold).symm.trans hclosed

/-- **Do the descriptors balance?**  Take the beginnings of a run and close the brackets that are
open.  Every descriptor that was opened has been closed once, and none was written to or closed
when it was closed already, exactly when in the run a bracket is opened outside all others, or
fails to open the file as the last one did. -/
theorem descriptors_balance_iff (es : List (GlogStep τ))
    (hF : Along GlogSt.step Follows {} es) :
    (∀ p ws, p <+: es → (∀ w ∈ ws, ∃ t, w = .closes t) →
      Along GlogSt.step Follows {} (p ++ ws) → (run GlogSt.step {} (p ++ ws)).brackets = [] →
      Balanced (run GlogSt.step {} (p ++ ws)).uses) ↔
    Along GlogSt.step KeepsOut {} es := by
  have hfree : ∀ (s : GlogSt τ) (e : GlogStep τ), (∃ t, e = .closes t) → KeepsOut s e := by
    rintro s _ ⟨t, rfl⟩
    trivial
  have hstart : GlogInv ({} : GlogSt τ) := .outside rfl ⟨trivial, rfl⟩
  exact along_iff_completions
    (Q := fun s => s.brackets = [] → Balanced s.uses) (fun s e hI he => hI.step he)
    (fun s hI => hI.balanced) hfree (fun s e hI hF he => overlap_unbalanced hI hF he)
    hstart hF

/-- The listener's bracket and then that of a hook. -/
def inTurn : List (GlogStep Nat) :=
  logsLine 0 5 ⟨"called Shell proc_83F23D5C_hook:\n", []⟩ {} ++ procGcParamSfo83F6B554Hook 1 5 {}

theorem brackets_in_turn : Balanced (run GlogSt.step {} (inTurn ++ [])).uses :=
  (descriptors_balance_iff inTurn (by decide)).mpr (by decide) inTurn [] List.prefix_rfl
    (fun _ h => absurd h List.not_mem_nil) (by decide) rfl

/-- A hook opens the log while the listener has it open, writes when the listener has closed its
descriptor, and closes that again; the listener's is never closed. -/
def overlappingBrackets : List (GlogStep Nat) :=
  [.opens 0 5, .opens 1 6, .writes 0 [], .closes 0, .writes 1 [], .closes 1]

theorem descriptor_closed_twice :
    (run GlogSt.step {} overlappingBrackets).uses =
      [.acquire 5, .acquire 6, .use 6, .release 6, .use 6, .release 6] ∧
    Along GlogSt.step Follows {} overlappingBrackets ∧
    ¬ Balanced (run GlogSt.step {} overlappingBrackets).uses := by
  refine ⟨rfl, by decide, fun hbal => ?_⟩
  exact absurd hbal.closed (by decide)

end PsvEmmc.ErrorLogger
