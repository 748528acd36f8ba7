/-
# `PsvEmmc.SegmentTable.Rebuild` — calls in a row on one table

The flag of a table is set before the table is filled, and it is not taken
back when the kernel refuses the list or the information on a module.  So the
first call decides: if the kernel answers all it asks, every later call finds
the table complete; if not, later calls return `0` without a look at what is
there, and what the first call left is searched (`calls_iff`).

A run is a list of calls, each with what the kernel answers in it, and a
table that was never filled.
-/
import PsvEmmc.SegmentTable.Contents
import PsvEmmc.Lib.Runs

namespace PsvEmmc

open Filling Runs

/-- The kernel gives the list and the information on all its modules. -/
def ModuleAnswers.Complete {modlistLen : Nat} (k : ModuleAnswers modlistLen) : Prop :=
  ∃ modlist, k.getModuleList = .ok modlist ∧ AllKnown k.getModuleInfo modlist

/-- What a call should leave, where `seen` are the answers of the kernel up to this call: if it
returns `0` the segments of all modules of a list, and if it fails a table that a later call fills
and that is not searched. -/
structure Construction.Sound {modlistLen : Nat} (segListLen : Nat)
    (seen : List (ModuleAnswers modlistLen)) (c : Construction) : Prop where
  complete : c.ret = 0 → ∃ k ∈ seen, ∃ modlist, k.getModuleList = .ok modlist ∧
    AllKnown k.getModuleInfo modlist ∧
    c.table.Lists segListLen (presentSegments k.getModuleInfo modlist)
  again : c.ret ≠ 0 → c.table.moduleConstructured = 0 ∧
    ∀ item, findInSegments segListLen c.table item = -1

/-! ## One call -/

/-- The kernel answers all, and the table lists the segments. -/
theorem constructTable_of_complete {modlistLen : Nat} {k : ModuleAnswers modlistLen}
    {modlist : ModuleList modlistLen} {t : SegmentTable} (hflag : ¬ 0 < t.moduleConstructured)
    (hlist : k.getModuleList = .ok modlist) (hall : AllKnown k.getModuleInfo modlist) :
    (constructTable k (modlistLen * 4) t).ret = 0 ∧
    (constructTable k (modlistLen * 4) t).table.moduleConstructured = 1 ∧
    (constructTable k (modlistLen * 4) t).table.Lists (modlistLen * 4)
      (presentSegments k.getModuleInfo modlist) := by
  have hroom := (length_presentSegments k.getModuleInfo modlist).1
  have hlen := modlist.2
  have hret : (constructTable k (modlistLen * 4) t).ret = 0 := by
    rcases constructTable_cases k (modlistLen * 4) t with
      ⟨hflag', _⟩ | ⟨_, ⟨ret, herr, _⟩ | ⟨modlist', hlist', ⟨_, hcall⟩ |
        ⟨done, m, rest, ret, hsplit, herr, _⟩⟩⟩
    · exact absurd hflag' hflag
    · cases hlist.symm.trans herr
    · rw [hcall]
      rfl
    · cases hlist.symm.trans hlist'
      obtain ⟨minfo, hinfo⟩ := hall m (by
        rw [hsplit]
        exact List.mem_append_right _ List.mem_cons_self)
      cases herr.symm.trans hinfo
  exact ⟨hret, constructTable_lists hflag hlist hret (by omega)⟩

/-- The kernel refuses something, and the flag is set all the same. -/
theorem constructTable_of_not_complete {modlistLen : Nat} {k : ModuleAnswers modlistLen}
    (segListLen : Nat) {t : SegmentTable} (hflag : ¬ 0 < t.moduleConstructured)
    (hk : ¬ k.Complete) :
    (constructTable k segListLen t).ret ≠ 0 ∧
    (constructTable k segListLen t).table.moduleConstructured = 1 := by
  rcases constructTable_cases k segListLen t with
    ⟨hflag', _⟩ | ⟨_, ⟨ret, _, hcall⟩ | ⟨modlist, hlist, ⟨hall, _⟩ |
      ⟨done, m, rest, ret, _, _, hcall⟩⟩⟩
  · exact absurd hflag' hflag
  · rw [hcall]
    exact ⟨ErrorCode.ne_zero ret, rfl⟩
  · exact absurd ⟨modlist, hlist, hall⟩ hk
  · rw [hcall]
    exact ⟨ErrorCode.ne_zero ret, rfl⟩

/-- A call that finds the flag set changes nothing. -/
theorem constructTable_of_constructed {modlistLen : Nat} (k : ModuleAnswers modlistLen)
    (segListLen : Nat) {t : SegmentTable} (hflag : 0 < t.moduleConstructured) :
    constructTable k segListLen t = ⟨0, t, []⟩ :=
  if_pos hflag

/-! ## Calls in a row -/

section Calls

variable {γ : Type} {modlistLen : Nat} (answers : γ → ModuleAnswers modlistLen)

/-- The table after a call. -/
def afterCall (segListLen : Nat) (t : SegmentTable) (c : γ) : SegmentTable :=
  (constructTable (answers c) segListLen t).table

/-- Every call of the run leaves what it should. -/
def CallsSound (segListLen : Nat) (t : SegmentTable) (calls : List γ) : Prop :=
  ∀ p c, p ++ [c] <+: calls → Construction.Sound segListLen ((p ++ [c]).map answers)
    (constructTable (answers c) segListLen (run (afterCall answers segListLen) t p))

/-- A call keeps a table that is constructed. -/
theorem afterCall_of_constructed (segListLen : Nat) {t : SegmentTable}
    (hflag : 0 < t.moduleConstructured) (c : γ) : afterCall answers segListLen t c = t := by
  rw [afterCall, constructTable_of_constructed (answers c) segListLen hflag]

/-- So do all calls behind the first. -/
theorem run_of_constructed (segListLen : Nat) {t : SegmentTable}
    (hflag : 0 < t.moduleConstructured) (calls : List γ) :
    run (afterCall answers segListLen) t calls = t := by
  induction calls with
  | nil => rfl
  | cons c cs ih => rw [run_cons, afterCall_of_constructed answers segListLen hflag, ih]

/-- The first call decides about all. -/
theorem callsSound_iff {t : SegmentTable} (hflag : t.moduleConstructured = 0) (calls : List γ) :
    CallsSound answers (modlistLen * 4) t calls ↔ ∀ c ∈ calls.head?, (answers c).Complete := by
  have hnot : ¬ 0 < t.moduleConstructured := by
    rw [hflag]
    exact Int32.lt_irrefl
  cases calls with
  | nil =>
      refine iff_of_true (fun p c hp => ?_) (fun c hc => absurd hc (by simp))
      exact absurd (List.prefix_nil.mp hp) (by simp)
  | cons c cs =>
      simp only [List.head?_cons, Option.mem_def, Option.some.injEq, forall_eq']
      constructor
      · intro hsound
        by_contra hk
        obtain ⟨hret, hset⟩ := constructTable_of_not_complete (modlistLen * 4) hnot hk
        have hclear := ((hsound [] c (by simp)).again hret).1
        exact absurd (hset.symm.trans hclear) (by decide)
      · rintro ⟨modlist, hlist, hall⟩ p c' hp
        obtain ⟨hret, hset, hlists⟩ := constructTable_of_complete hnot hlist hall
        have hmem : answers c ∈ ((p ++ [c']).map answers) := by
          obtain ⟨rest, hrest⟩ := hp
          cases p with
          | nil =>
              obtain ⟨rfl, _⟩ := List.cons.inj hrest
              exact List.mem_cons_self
          | cons b p =>
              obtain ⟨rfl, _⟩ := List.cons.inj hrest
              exact List.mem_cons_self
        have hsound : ∀ r : Construction, r.ret = 0 → r.table.Lists (modlistLen * 4)
            (presentSegments (answers c).getModuleInfo modlist) →
            r.Sound (modlistLen * 4) ((p ++ [c']).map answers) := fun r hret hlists =>
          ⟨fun _ => ⟨answers c, hmem, modlist, hlist, hall, hlists⟩, fun h => absurd hret h⟩
        cases p with
        | nil =>
            obtain ⟨rest, hrest⟩ := hp
            obtain ⟨rfl, _⟩ := List.cons.inj hrest
            exact hsound _ hret hlists
        | cons b p =>
            -- The table is the one the first call left.
            obtain ⟨rest, hrest⟩ := hp
            obtain ⟨rfl, _⟩ := List.cons.inj hrest
            have hflag' : 0 < (afterCall answers (modlistLen * 4) t b).moduleConstructured := by
              rw [afterCall, hset]
              decide
            rw [run_cons, run_of_constructed answers (modlistLen * 4) hflag',
              constructTable_of_constructed _ _ hflag']
            exact hsound _ rfl hlists

end Calls

/-! ## The two programs -/

/-- A call of the driver's function: what the kernel answers in it, and the arguments. -/
structure TableCall where
  kernel : ModuleKernel
  pid : Int32
  flags1 : Int32
  flags2 : Int32

def TableCall.answers (c : TableCall) : ModuleAnswers modListSize :=
  c.kernel.answers c.pid c.flags1 c.flags2 modListSize

/-- **Calls in a row.**  In both programs every call on a table that was not filled before leaves
what it should exactly when in the first of them the kernel gives the list and the information on
all modules. -/
theorem calls_iff (segList : Nat → SegmentInfo) :
    (∀ calls : List TableCall,
      CallsSound TableCall.answers segListSize ⟨segList, 0⟩ calls ↔
        ∀ c ∈ calls.head?, c.answers.Complete) ∧
    ∀ calls : List ErrorLogger.UserKernel,
      CallsSound ErrorLogger.UserKernel.answers segListSize ⟨segList, 0⟩ calls ↔
        ∀ k ∈ calls.head?, k.answers.Complete :=
  ⟨callsSound_iff TableCall.answers rfl, callsSound_iff ErrorLogger.UserKernel.answers rfl⟩

/-- A kernel that lists a module and has no information on it. -/
def forgetfulKernel : ErrorLogger.UserKernel where
  getModuleList flags modlistLen := relocatingKernel.getModuleList 1 flags 1 modlistLen
  getModuleInfo _ := .error ⟨-1, by decide⟩

/-- The first call fails and the second returns `0`, whatever the kernel could say by then. -/
theorem second_call_finds_nothing :
    (ErrorLogger.constructModuleRangeTable forgetfulKernel
      ⟨fun _ => SegmentInfo.filler, 0⟩).ret = -1 ∧
    (∀ k, (ErrorLogger.constructModuleRangeTable k
      (ErrorLogger.constructModuleRangeTable forgetfulKernel
        ⟨fun _ => SegmentInfo.filler, 0⟩).table).ret = 0) ∧
    ¬ CallsSound ErrorLogger.UserKernel.answers segListSize ⟨fun _ => SegmentInfo.filler, 0⟩
      [forgetfulKernel, forgetfulKernel] := by
  refine ⟨rfl, fun k => ?_, ?_⟩
  · exact congrArg Construction.ret
      (constructTable_of_constructed k.answers segListSize (by decide))
  · rw [segListSize, callsSound_iff ErrorLogger.UserKernel.answers rfl]
    intro h
    obtain ⟨modlist, hlist, hall⟩ := h forgetfulKernel rfl
    cases hlist
    obtain ⟨minfo, hinfo⟩ := hall 7 (by decide)
    cases hinfo

end PsvEmmc
