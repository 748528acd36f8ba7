/-
# `PsvEmmc.Driver.SendCommand` — the sector numbers of game card commands

`send_command_hook` stands before the routine that sends a command to a
storage device.  On the game card's context it adds `ADDRESS_OFFSET` to the
argument of a `cmd_input` whose command is 17 or 18, in place, in the object
that the caller owns, and lets the routine go on.  The second `cmd_input` of
a call is passed on as it is.

Behind the routine the card is an array of sectors, on which 17 and 18 read
and 24 and 25 write.  The model keeps, beside the objects and the card, the
argument that the caller filled into each object, how often the hook has
translated it since, and the card as the caller should see it, whose sector
`n` is the card's sector `n + ADDRESS_OFFSET`.  An object's argument is the
filled one with the offset added once for each translation
(`HookedCard.Inv`), so a command reaches the right sector exactly when there
was one translation: never for a write, and for a read only the first time.
-/
import PsvEmmc.Lib.Runs

namespace PsvEmmc

open Runs

/-! ## The hook -/

/-- The two fields of a `cmd_input` that the hook looks at. -/
structure CmdInput where
  command : UInt32
  argument : UInt32
  deriving DecidableEq, Repr

/-- `ADDRESS_OFFSET`. -/
def addressOffset : UInt32 := 0x8000

/-- `argument = argument + ADDRESS_OFFSET`. -/
def CmdInput.fixup (c : CmdInput) : CmdInput := { c with argument := c.argument + addressOffset }

/-- `send_command_hook` up to `TAI_CONTINUE`: the objects as the original routine finds them.
`isGameCard` is `ksceSdifGetSdContextGlobal(SCE_SDIF_DEV_GAME_CARD) == ctx`. -/
def sendCommandHook (isGameCard : Bool) (cmdData1 : Nat) (objects : Nat → CmdInput) :
    Nat → CmdInput :=
  if isGameCard then
    if (objects cmdData1).command = 17 ∨ (objects cmdData1).command = 18 then
      Function.update objects cmdData1 (objects cmdData1).fixup
    else objects
  else objects

/-! ## The card -/

/-- A single or a multiple read. -/
def CmdInput.IsRead (c : CmdInput) : Prop := c.command = 17 ∨ c.command = 18

/-- A single or a multiple write. -/
def CmdInput.IsWrite (c : CmdInput) : Prop := c.command = 24 ∨ c.command = 25

instance (c : CmdInput) : Decidable c.IsRead := by unfold CmdInput.IsRead; infer_instance

instance (c : CmdInput) : Decidable c.IsWrite := by unfold CmdInput.IsWrite; infer_instance

variable {α : Type*}

/-- The sectors of a card, `α` for the contents of one. -/
abbrev Card (α : Type*) := UInt32 → α

/-- What a call moves: so many sectors from the card, or these to the card. -/
structure Transfer (α : Type*) where
  count : Nat
  data : List α

def Card.read (card : Card α) (start : UInt32) (n : Nat) : List α :=
  (List.range n).map (fun i => card (start + UInt32.ofNat i))

def Card.write (card : Card α) (start : UInt32) (data : List α) : Card α :=
  fun x => data.getD (x - start).toNat (card x)

/-- The original routine on one command: what it reads, and the card afterwards. -/
def Card.execute (card : Card α) (c : CmdInput) (x : Transfer α) : List α × Card α :=
  if c.IsRead then (card.read c.argument x.count, card)
  else if c.IsWrite then ([], card.write c.argument x.data)
  else ([], card)

/-- The card from `ADDRESS_OFFSET` on. -/
def Card.shifted (card : Card α) : Card α := fun x => card (x + addressOffset)

theorem Card.read_shifted (card : Card α) (start : UInt32) (n : Nat) :
    card.shifted.read start n = card.read (start + addressOffset) n := by
  refine List.map_congr_left fun i _ => congrArg card ?_
  rw [UInt32.add_assoc, UInt32.add_comm (UInt32.ofNat i), ← UInt32.add_assoc]

theorem Card.write_shifted (card : Card α) (start : UInt32) (data : List α) :
    card.shifted.write start data = (card.write (start + addressOffset) data).shifted := by
  funext x
  have hindex : x + addressOffset - (start + addressOffset) = x - start := by
    grind
  simp only [Card.write, Card.shifted, hindex]

theorem CmdInput.command_fixup (c : CmdInput) : c.fixup.command = c.command := by
  simp only [fixup]

@[simp] theorem CmdInput.isRead_fixup (c : CmdInput) : c.fixup.IsRead ↔ c.IsRead := by
  rw [IsRead, IsRead, command_fixup]

@[simp] theorem CmdInput.isWrite_fixup (c : CmdInput) : c.fixup.IsWrite ↔ c.IsWrite := by
  rw [IsWrite, IsWrite, command_fixup]

/-- A command with the offset added does to the card what the command without it does to the
shifted card. -/
theorem Card.execute_shifted (card : Card α) (c : CmdInput) (x : Transfer α) :
    card.shifted.execute c x = ((card.execute c.fixup x).1, (card.execute c.fixup x).2.shifted) := by
  simp only [Card.execute, CmdInput.isRead_fixup, CmdInput.isWrite_fixup]
  split
  · exact congrArg (fun bs => (bs, card.shifted)) (Card.read_shifted card c.argument x.count)
  · split
    · exact congrArg (Prod.mk []) (Card.write_shifted card c.argument x.data)
    · rfl

/-! ## Sequences of calls -/

/-- What the caller does: fill an object, or send one or two objects to the game card. -/
inductive CardCall (α : Type*) where
  | fill (o : Nat) (c : CmdInput)
  | send (cmdData1 : Nat) (cmdData2 : Option Nat) (x : Transfer α)

/-- The objects and the card; the argument each object was filled with and how often it was
translated since; the card the caller should see; each data command as it reached the card,
the sector meant beside the sector addressed; each read, the sectors got beside the sectors due. -/
structure HookedCard (α : Type*) where
  objects : Nat → CmdInput
  card : Card α
  filled : Nat → UInt32
  translations : Nat → Nat
  meant : Card α
  reached : List (UInt32 × UInt32) := []
  reads : List (List α × List α) := []

/-- Any objects, none of them translated, and any card. -/
def HookedCard.start (objects : Nat → CmdInput) (card : Card α) : HookedCard α where
  objects := objects
  card := card
  filled := fun o => (objects o).argument
  translations := fun _ => 0
  meant := card.shifted

/-- The hook on the first object of a call. -/
def HookedCard.hook (s : HookedCard α) (o : Nat) : HookedCard α :=
  { s with
    objects := sendCommandHook true o s.objects
    translations :=
      if (s.objects o).IsRead then Function.update s.translations o (s.translations o + 1)
      else s.translations }

/-- The original routine on one object of a call. -/
def HookedCard.execute (s : HookedCard α) (o : Nat) (x : Transfer α) : HookedCard α :=
  let c := s.objects o
  let due := s.meant.execute { c with argument := s.filled o } x
  let got := s.card.execute c x
  { s with
    card := got.2
    meant := due.2
    reached :=
      if c.IsRead ∨ c.IsWrite then (s.filled o, c.argument) :: s.reached else s.reached
    reads := if c.IsRead then (got.1, due.1) :: s.reads else s.reads }

def HookedCard.step (s : HookedCard α) : CardCall α → HookedCard α
  | .fill o c =>
      { s with
        objects := Function.update s.objects o c
        filled := Function.update s.filled o c.argument
        translations := Function.update s.translations o 0 }
  | .send o none x => (s.hook o).execute o x
  | .send o (some o') x => ((s.hook o).execute o x).execute o' x

/-- Every data command reached the sector meant with the offset added once, and every read got
the sectors due. -/
def HookedCard.Faithful (s : HookedCard α) : Prop :=
  (∀ r ∈ s.reached, r.2 = r.1 + addressOffset) ∧ ∀ r ∈ s.reads, r.1 = r.2

/-- An object with a data command has a read, translated once since it was filled, up to the
`2 ^ 17` times after which the offsets add up to zero. -/
def HookedCard.TranslatedOnce (s : HookedCard α) (o : Nat) : Prop :=
  (s.objects o).IsRead ∨ (s.objects o).IsWrite →
    (s.objects o).IsRead ∧ s.translations o % 2 ^ 17 = 1

/-- Every object of a call is translated once when the routine comes to it. -/
def HookedCard.SendsTranslated (s : HookedCard α) : CardCall α → Prop
  | .fill _ _ => True
  | .send o none _ => (s.hook o).TranslatedOnce o
  | .send o (some o') _ => (s.hook o).TranslatedOnce o ∧ (s.hook o).TranslatedOnce o'

/-! ## The arguments of the objects -/

/-- An object's argument is the filled one with the offset added for each translation, and
only reads were translated. -/
structure HookedCard.Inv (s : HookedCard α) : Prop where
  argument : ∀ o, (s.objects o).argument =
    s.filled o + UInt32.ofNat (s.translations o) * addressOffset
  untouched : ∀ o, ¬ (s.objects o).IsRead → s.translations o = 0

theorem HookedCard.inv_start (objects : Nat → CmdInput) (card : Card α) :
    (HookedCard.start objects card).Inv :=
  ⟨fun o => by simp [start], fun _ _ => rfl⟩

/-- The hook translates an object with a read, and leaves any other as it is. -/
theorem HookedCard.hook_cases (s : HookedCard α) (o : Nat) :
    ((s.objects o).IsRead ∧ s.hook o =
      { s with
        objects := Function.update s.objects o (s.objects o).fixup
        translations := Function.update s.translations o (s.translations o + 1) }) ∨
    (¬ (s.objects o).IsRead ∧ s.hook o = s) := by
  unfold hook sendCommandHook
  rw [if_pos rfl]
  by_cases hread : (s.objects o).command = 17 ∨ (s.objects o).command = 18
  · have hread' : (s.objects o).IsRead := hread
    rw [if_pos hread, if_pos hread']
    exact Or.inl ⟨hread, rfl⟩
  · have hread' : ¬ (s.objects o).IsRead := hread
    rw [if_neg hread, if_neg hread']
    exact Or.inr ⟨hread, rfl⟩

theorem HookedCard.inv_hook {s : HookedCard α} (h : s.Inv) (o : Nat) : (s.hook o).Inv := by
  rcases s.hook_cases o with ⟨hread, hhook⟩ | ⟨_, hhook⟩
  · rw [hhook]
    refine ⟨fun o' => ?_, fun o' hnot => ?_⟩
    · rcases eq_or_ne o' o with rfl | hne
      · simp only [Function.update_self, CmdInput.fixup, h.argument, UInt32.ofNat_add]
        grind
      · simp only [Function.update_of_ne hne, h.argument]
    · rcases eq_or_ne o' o with rfl | hne
      · simp only [Function.update_self, CmdInput.isRead_fixup] at hnot
        exact absurd hread hnot
      · simp only [Function.update_of_ne hne] at hnot ⊢
        exact h.untouched o' hnot
  · rw [hhook]
    exact h

theorem HookedCard.inv_execute {s : HookedCard α} (h : s.Inv) (o : Nat) (x : Transfer α) :
    (s.execute o x).Inv :=
  ⟨h.argument, h.untouched⟩

theorem HookedCard.inv_step (s : HookedCard α) (e : CardCall α) (h : s.Inv) : (s.step e).Inv := by
  cases e with
  | fill o c =>
      refine ⟨fun o' => ?_, fun o' hnot => ?_⟩
      · rcases eq_or_ne o' o with rfl | hne
        · simp [step]
        · simp only [step, Function.update_of_ne hne, h.argument]
      · rcases eq_or_ne o' o with rfl | hne
        · simp [step]
        · simp only [step, Function.update_of_ne hne] at hnot ⊢
          exact h.untouched o' hnot
  | send o o' x =>
      cases o' with
      | none => exact HookedCard.inv_execute (HookedCard.inv_hook h o) o x
      | some o' =>
          exact HookedCard.inv_execute
            (HookedCard.inv_execute (HookedCard.inv_hook h o) o x) o' x

/-! ## What reaches the card -/

/-- The offset added `n` times is the offset added once. -/
theorem offset_times_eq_iff (n : Nat) :
    UInt32.ofNat n * addressOffset = addressOffset ↔ n % 2 ^ 17 = 1 := by
  rw [← UInt32.toNat_inj, UInt32.toNat_mul, UInt32.toNat_ofNat',
    show addressOffset.toNat = 0x8000 from rfl]
  omega

/-- The commands that have reached the card were all translated once. -/
def HookedCard.ReachedTranslated (s : HookedCard α) : Prop :=
  ∀ r ∈ s.reached, r.2 = r.1 + addressOffset

/-- The argument of an object is right exactly when it was translated once. -/
theorem HookedCard.Inv.argument_eq_iff {s : HookedCard α} (h : s.Inv) (o : Nat) :
    (s.objects o).argument = s.filled o + addressOffset ↔ s.translations o % 2 ^ 17 = 1 := by
  rw [h.argument, UInt32.add_right_inj, offset_times_eq_iff]

theorem HookedCard.reached_execute {s : HookedCard α} (h : s.Inv) (o : Nat) (x : Transfer α) :
    (s.execute o x).ReachedTranslated ↔ s.ReachedTranslated ∧ s.TranslatedOnce o := by
  by_cases hdata : (s.objects o).IsRead ∨ (s.objects o).IsWrite
  · have hexec : (s.execute o x).reached = (s.filled o, (s.objects o).argument) :: s.reached :=
      if_pos hdata
    have honce : s.TranslatedOnce o ↔ s.translations o % 2 ^ 17 = 1 := by
      refine ⟨fun hn => (hn hdata).2, fun hn _ => ⟨?_, hn⟩⟩
      by_contra hread
      rw [h.untouched o hread] at hn
      exact absurd hn (by decide)
    rw [ReachedTranslated, hexec, List.forall_mem_cons, h.argument_eq_iff, honce]
    exact and_comm
  · have hexec : (s.execute o x).reached = s.reached := if_neg hdata
    rw [ReachedTranslated, hexec]
    exact (and_iff_left (fun hd => absurd hd hdata)).symm

theorem HookedCard.reached_hook (s : HookedCard α) (o : Nat) :
    (s.hook o).ReachedTranslated ↔ s.ReachedTranslated := Iff.rfl

theorem HookedCard.reached_step {s : HookedCard α} (h : s.Inv) (e : CardCall α) :
    (s.step e).ReachedTranslated ↔ s.ReachedTranslated ∧ s.SendsTranslated e := by
  cases e with
  | fill o c => exact (and_iff_left trivial).symm
  | send o o' x =>
      have hhook := HookedCard.inv_hook h o
      have hfirst := (HookedCard.reached_execute hhook o x).trans
        (and_congr_left' (s.reached_hook o))
      cases o' with
      | none => exact hfirst
      | some o' =>
          exact ((HookedCard.reached_execute (HookedCard.inv_execute hhook o x) o' x).trans
            (and_congr_left' hfirst)).trans and_assoc

theorem HookedCard.reached_run {s : HookedCard α} (h : s.Inv) (es : List (CardCall α)) :
    (run step s es).ReachedTranslated ↔ s.ReachedTranslated ∧ Along step SendsTranslated s es := by
  induction es generalizing s with
  | nil => exact (and_iff_left trivial).symm
  | cons e es ih =>
      exact ((ih (HookedCard.inv_step s e h)).trans
        (and_congr_left' (HookedCard.reached_step h e))).trans and_assoc

/-! ## The card the caller sees -/

/-- The card seen through the offset is the one the caller should see, and so far every read
got the sectors due. -/
structure HookedCard.Refines (s : HookedCard α) : Prop where
  card : s.card.shifted = s.meant
  reads : ∀ r ∈ s.reads, r.1 = r.2

theorem HookedCard.refines_execute {s : HookedCard α} (h : s.Inv) (hs : s.Refines) {o : Nat}
    (honce : s.TranslatedOnce o) (x : Transfer α) : (s.execute o x).Refines := by
  by_cases hdata : (s.objects o).IsRead ∨ (s.objects o).IsWrite
  · have hargument := (h.argument_eq_iff o).mpr (honce hdata).2
    have hfixup : CmdInput.fixup { s.objects o with argument := s.filled o } = s.objects o := by
      rw [CmdInput.fixup, ← hargument]
    have hdue := Card.execute_shifted s.card { s.objects o with argument := s.filled o } x
    rw [hs.card, hfixup] at hdue
    refine ⟨?_, fun r hr => ?_⟩
    · simp only [execute, hdue]
    · simp only [execute, hdue] at hr
      split at hr
      · rcases List.mem_cons.mp hr with rfl | hr
        · rfl
        · exact hs.reads r hr
      · exact hs.reads r hr
  · obtain ⟨hread, hwrite⟩ := not_or.mp hdata
    have hread' : ¬ CmdInput.IsRead { s.objects o with argument := s.filled o } := hread
    have hwrite' : ¬ CmdInput.IsWrite { s.objects o with argument := s.filled o } := hwrite
    refine ⟨?_, fun r hr => ?_⟩
    · simp only [execute, Card.execute, if_neg hread, if_neg hwrite, if_neg hread',
        if_neg hwrite', hs.card]
    · simp only [execute, if_neg hread] at hr
      exact hs.reads r hr

theorem HookedCard.refines_step (s : HookedCard α) (e : CardCall α) (h : s.Inv ∧ s.Refines)
    (hsend : s.SendsTranslated e) : (s.step e).Inv ∧ (s.step e).Refines := by
  refine ⟨HookedCard.inv_step s e h.1, ?_⟩
  cases e with
  | fill o c => exact ⟨h.2.card, h.2.reads⟩
  | send o o' x =>
      have hhook := HookedCard.inv_hook h.1 o
      have hrefines : (s.hook o).Refines := ⟨h.2.card, h.2.reads⟩
      cases o' with
      | none => exact HookedCard.refines_execute hhook hrefines hsend x
      | some o' =>
          exact HookedCard.refines_execute (HookedCard.inv_execute hhook o x)
            (HookedCard.refines_execute hhook hrefines hsend.1 x) hsend.2 x

/-- **Every data command reaches its sector**, the offset added once, and every read gets what
was last written there, if and only if every object that is sent with a data command has a read
and is sent for the first time since it was filled (up to `2 ^ 17` times). -/
theorem card_commands_faithful_iff (objects : Nat → CmdInput) (card : Card α)
    (es : List (CardCall α)) :
    (run HookedCard.step (HookedCard.start objects card) es).Faithful ↔
      Along HookedCard.step HookedCard.SendsTranslated (HookedCard.start objects card) es := by
  have hinv := HookedCard.inv_start objects card
  have hnone : (HookedCard.start objects card).ReachedTranslated := fun _ hr =>
    (List.not_mem_nil hr).elim
  constructor
  · intro h
    exact ((HookedCard.reached_run hinv es).mp h.1).2
  · intro h
    have hrefines : (HookedCard.start objects card).Refines :=
      ⟨rfl, fun _ hr => (List.not_mem_nil hr).elim⟩
    exact ⟨(HookedCard.reached_run hinv es).mpr ⟨hnone, h⟩,
      (inv_run HookedCard.refines_step ⟨hinv, hrefines⟩ h).2.reads⟩

/-- A sector is written and read back, with a fresh object each time: the write goes to the
sector itself, the read looks `ADDRESS_OFFSET` sectors further on. -/
theorem written_sector_not_read_back :
    ¬ ∀ (objects : Nat → CmdInput) (card : Card Nat) (es : List (CardCall Nat)),
      (run HookedCard.step (HookedCard.start objects card) es).Faithful := by
  intro h
  have hfaithful := h (fun _ => ⟨0, 0⟩) (fun _ => 0)
    [.fill 0 ⟨24, 5⟩, .send 0 none ⟨1, [7]⟩, .fill 0 ⟨17, 5⟩, .send 0 none ⟨1, []⟩]
  exact absurd (hfaithful.2 ([0], [7]) (by decide +kernel)) (by decide)

end PsvEmmc
