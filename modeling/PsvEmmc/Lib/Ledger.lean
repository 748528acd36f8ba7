/-
# `Ledger` — what is acquired, used and released

A program that holds resources spells a word of three letters: it acquires a
resource, uses it or releases it.  The live resources are a list, because one
name may be acquired twice and is then to be released twice.  A word is legal
when what it uses and what it releases is live at that moment.

In a legal word nothing is released twice and nothing is released that was
not acquired, and the account balances: what was live before together with
what was acquired is what was released together with what is still live
(`balance`).  A legal word that leaves nothing live has therefore released
everything it acquired, each as often as it was acquired.
-/
import PsvEmmc.Lib.Runs

namespace Ledger

open Runs
open scoped List

variable {ρ : Type*}

inductive Entry (ρ : Type*) where
  | acquire (r : ρ)
  | use (r : ρ)
  | release (r : ρ)
  deriving DecidableEq

/-- The resource that an entry acquires. -/
def Entry.acquired : Entry ρ → Option ρ
  | .acquire r => some r
  | _ => none

/-- The resource that an entry releases. -/
def Entry.released : Entry ρ → Option ρ
  | .release r => some r
  | _ => none

/-- The resource, if it was granted. -/
def heldIf (c : Prop) [Decidable c] (r : ρ) : List ρ := if c then [r] else []

/-- The entry for a resource that was asked for. -/
def grantedIf (c : Prop) [Decidable c] (r : ρ) : List (Entry ρ) := (heldIf c r).map .acquire

theorem mem_heldIf {c : Prop} [Decidable c] {r r' : ρ} : r' ∈ heldIf c r ↔ c ∧ r' = r := by
  rw [heldIf]
  split
  next hc => rw [List.mem_singleton, and_iff_right hc]
  next hc => exact iff_of_false List.not_mem_nil fun h => hc h.1

variable [DecidableEq ρ]

/-- The live resources after an entry. -/
def step (live : List ρ) : Entry ρ → List ρ
  | .acquire r => r :: live
  | .use _ => live
  | .release r => live.erase r

/-- What is used or released is live. -/
def Legal (live : List ρ) : Entry ρ → Prop
  | .acquire _ => True
  | .use r => r ∈ live
  | .release r => r ∈ live

instance (live : List ρ) (e : Entry ρ) : Decidable (Legal live e) := by
  cases e <;> unfold Legal <;> infer_instance

/-- One legal entry balances. -/
theorem balance_step {live : List ρ} {e : Entry ρ} (h : Legal live e) :
    (live ++ e.acquired.toList).Perm (e.released.toList ++ step live e) := by
  cases e with
  | acquire r => exact List.perm_append_singleton r live
  | use r => exact List.Perm.of_eq (List.append_nil live)
  | release r =>
      calc live ++ [] = live := List.append_nil live
        _ ~ r :: live.erase r := List.perm_cons_erase h

/-- **The account balances**: live before and acquired is released and still live. -/
theorem balance {live : List ρ} {es : List (Entry ρ)} (h : Along step Legal live es) :
    (live ++ es.filterMap Entry.acquired).Perm
      (es.filterMap Entry.released ++ run step live es) := by
  induction es generalizing live with
  | nil => exact List.Perm.of_eq (List.append_nil live)
  | cons e es ih =>
      have hstep := balance_step h.1
      have hrest := ih h.2
      have hacq : (e :: es).filterMap Entry.acquired =
          e.acquired.toList ++ es.filterMap Entry.acquired := by
        cases e <;> rfl
      have hrel : (e :: es).filterMap Entry.released =
          e.released.toList ++ es.filterMap Entry.released := by
        cases e <;> rfl
      rw [hacq, hrel, run_cons, ← List.append_assoc, List.append_assoc e.released.toList]
      calc (live ++ e.acquired.toList) ++ es.filterMap Entry.acquired
          ~ (e.released.toList ++ step live e) ++ es.filterMap Entry.acquired :=
            hstep.append_right _
        _ = e.released.toList ++ (step live e ++ es.filterMap Entry.acquired) :=
            List.append_assoc _ _ _
        _ ~ e.released.toList ++ (es.filterMap Entry.released ++ run step (step live e) es) :=
            hrest.append_left _

/-- A legal word that starts and ends with nothing live. -/
structure Balanced (es : List (Entry ρ)) : Prop where
  legal : Along step Legal [] es
  closed : run step [] es = []

/-- It releases what it acquires, each as often. -/
theorem Balanced.released_perm_acquired {es : List (Entry ρ)} (h : Balanced es) :
    (es.filterMap Entry.released).Perm (es.filterMap Entry.acquired) := by
  have hbalance := balance h.legal
  rw [h.closed, List.append_nil, List.nil_append] at hbalance
  exact hbalance.symm

/-- Each resource is released as often as it is acquired. -/
theorem Balanced.count_release {es : List (Entry ρ)} (h : Balanced es) (r : ρ) :
    es.count (.release r) = es.count (.acquire r) := by
  have hreleased : (es.filterMap Entry.released).count r = es.count (.release r) := by
    rw [List.count_filterMap, List.count_eq_countP]
    refine List.countP_congr fun e _ => ?_
    cases e <;> simp [Entry.released]
  have hacquired : (es.filterMap Entry.acquired).count r = es.count (.acquire r) := by
    rw [List.count_filterMap, List.count_eq_countP]
    refine List.countP_congr fun e _ => ?_
    cases e <;> simp [Entry.acquired]
  rw [← hreleased, ← hacquired]
  exact h.released_perm_acquired.count_eq r

/-- What is released was acquired, and the other way round. -/
theorem Balanced.release_mem_iff {es : List (Entry ρ)} (h : Balanced es) (r : ρ) :
    .release r ∈ es ↔ .acquire r ∈ es := by
  rw [← List.count_pos_iff, h.count_release r, List.count_pos_iff]

/-- Where nothing is live, a word that acquires nothing is illegal from its first letter on. -/
theorem not_legal_of_no_acquire {es : List (Entry ρ)} (hne : es ≠ [])
    (hacq : ∀ e ∈ es, e.acquired = none) : ¬ Along step Legal [] es := by
  cases es with
  | nil => exact absurd rfl hne
  | cons e es =>
      intro h
      cases e with
      | acquire r => cases hacq _ List.mem_cons_self
      | use r => exact List.not_mem_nil h.1
      | release r => exact List.not_mem_nil h.1

/-- `es` is legal where `live` is, and leaves `live'`. -/
def Leads (live : List ρ) (es : List (Entry ρ)) (live' : List ρ) : Prop :=
  Along step Legal live es ∧ run step live es = live'

theorem Leads.append {live live' live'' : List ρ} {es es' : List (Entry ρ)}
    (h : Leads live es live') (h' : Leads live' es' live'') : Leads live (es ++ es') live'' := by
  obtain ⟨hlegal, rfl⟩ := h
  obtain ⟨hlegal', rfl⟩ := h'
  exact ⟨along_append.mpr ⟨hlegal, hlegal'⟩, run_append live es es'⟩

/-- After a legal beginning only the rest counts. -/
theorem Leads.legal_append_iff {live live' : List ρ} {es es' : List (Entry ρ)}
    (h : Leads live es live') :
    Along step Legal live (es ++ es') ↔ Along step Legal live' es' := by
  obtain ⟨hlegal, rfl⟩ := h
  rw [along_append, and_iff_right hlegal]

/-- Uses of what is live change nothing. -/
theorem leads_of_uses {live : List ρ} {es : List (Entry ρ)}
    (h : ∀ e ∈ es, ∃ r ∈ live, e = .use r) : Leads live es live := by
  induction es with
  | nil => exact ⟨trivial, rfl⟩
  | cons e es ih =>
      obtain ⟨r, hr, rfl⟩ := h e List.mem_cons_self
      obtain ⟨hlegal, hrun⟩ := ih (fun e he => h e (List.mem_cons_of_mem _ he))
      exact ⟨⟨hr, hlegal⟩, hrun⟩

theorem leads_of_acquires {live rs : List ρ} :
    Leads live (rs.map .acquire) (rs.reverse ++ live) := by
  induction rs generalizing live with
  | nil => exact ⟨trivial, rfl⟩
  | cons r rs ih =>
      obtain ⟨hlegal, hrun⟩ := @ih (r :: live)
      refine ⟨⟨trivial, hlegal⟩, hrun.trans ?_⟩
      rw [List.reverse_cons, List.append_assoc]
      rfl

theorem leads_grantedIf {live : List ρ} (c : Prop) [Decidable c] (r : ρ) :
    Leads live (grantedIf c r) (heldIf c r ++ live) := by
  have hreverse : (heldIf c r).reverse = heldIf c r := by
    rw [heldIf]
    split <;> rfl
  rw [← hreverse]
  exact leads_of_acquires

/-- What is live can be released in any order, and leaves the rest. -/
theorem leads_of_releases {live rs rest : List ρ} (h : live ~ rs ++ rest) :
    ∃ live', Leads live (rs.map .release) live' ∧ live' ~ rest := by
  induction rs generalizing live with
  | nil => exact ⟨live, ⟨trivial, rfl⟩, h⟩
  | cons r rs ih =>
      have hlive : r ∈ live := h.mem_iff.mpr List.mem_cons_self
      have herase : live.erase r ~ rs ++ rest :=
        List.cons_perm_iff_perm_erase.mp h.symm |>.2.symm
      obtain ⟨live', ⟨hlegal, hrun⟩, hrest⟩ := ih herase
      exact ⟨live', ⟨⟨hlive, hlegal⟩, hrun⟩, hrest⟩

/-- A legal beginning followed by releases balances exactly when what it left live is released. -/
theorem Leads.balanced_append_releases_iff {es : List (Entry ρ)} {live rs : List ρ}
    (h : Leads [] es live) : Balanced (es ++ rs.map .release) ↔ live ~ rs := by
  constructor
  · intro hbalanced
    have hall := hbalanced.released_perm_acquired
    have hpart := balance h.1
    have hnone : (rs.map Entry.release).filterMap Entry.acquired = [] := by
      rw [List.filterMap_map]
      exact List.filterMap_eq_nil_iff.mpr fun _ _ => rfl
    have hreleased : (rs.map Entry.release).filterMap Entry.released = rs := by
      rw [List.filterMap_map]
      exact List.filterMap_some
    rw [List.filterMap_append, List.filterMap_append, hnone, hreleased, List.append_nil] at hall
    rw [h.2, List.nil_append] at hpart
    exact ((List.perm_append_left_iff _).mp (hall.trans hpart)).symm
  · intro hperm
    obtain ⟨live', hrest, hnil⟩ :=
      leads_of_releases (hperm.trans (List.Perm.of_eq (List.append_nil rs).symm))
    obtain ⟨hlegal, hclosed⟩ := h.append hrest
    exact ⟨hlegal, hclosed.trans (List.perm_nil.mp hnil)⟩

end Ledger
