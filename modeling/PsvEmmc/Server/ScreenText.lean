/-
# `PsvEmmc.Server.ScreenText` — texts that the screen can show

A text without escape sequences is shown character by character.  An escape
sequence is read from the third character of the text on, so only one at the
very start is read where it stands.  And the walk goes on behind the character
that the reading stopped at: when that is the end of the text, the walk goes
on in the memory behind it (`tokens_of_escape`).

A run of the server shows any number of texts on one screen.  As long as every
text is one that the walk stays in, the run never draws off the screen, and the
screen shows what the texts do to the grid, one after the other
(`screen_shows`).
-/
import PsvEmmc.Server.Screen

namespace PsvEmmc.DebugScreen

open Loops Relation

/-! ## The walk over a text -/

/-- The walk goes from a position to the next. -/
def Next (text : List UInt8) (c c' : Nat) : Prop :=
  ∃ token, tokenAt text c = some (some (token, c'))

/-- The walk gets behind the end of the text. -/
def Leaves (text : List UInt8) : Prop :=
  ∃ c, ReflTransGen (Next text) 0 c ∧ text.length < c

theorem tokenAt_lt {text : List UInt8} {c c' : Nat} {token : Token}
    (h : tokenAt text c = some (some (token, c'))) : c < c' := by
  rw [tokenAt, Option.bind_eq_some_iff] at h
  obtain ⟨ch, _, h⟩ := h
  split_ifs at h
  · cases h
  · cases h
    exact Nat.lt_succ_self c
  · cases h
    exact Nat.lt_succ_self c
  · obtain ⟨e, _, he⟩ := Option.map_eq_some_iff.mp h
    cases he
    omega
  · cases h
    exact Nat.lt_succ_self c

/-- With rounds enough for the text, there are no tokens exactly when the walk gets behind it. -/
theorem tokensFrom_eq_none_iff (text : CString) {bound c : Nat}
    (hbound : text.1.length < bound + c) :
    tokensFrom text.1 bound c = none ↔
      ∃ c', ReflTransGen (Next text.1) c c' ∧ text.1.length < c' := by
  induction bound generalizing c with
  | zero => exact iff_of_true rfl ⟨c, .refl, by omega⟩
  | succ bound ih =>
      rw [tokensFrom]
      cases htoken : tokenAt text.1 c with
      | none => exact iff_of_true rfl ⟨c, .refl, (tokenAt_eq_none_iff text c).mp htoken⟩
      | some found =>
          have hinside : ¬ text.1.length < c := fun h => by
            rw [(tokenAt_eq_none_iff text c).mpr h] at htoken
            cases htoken
          cases found with
          | none =>
              refine iff_of_false (fun h => by cases h) ?_
              rintro ⟨c', hwalk, hbehind⟩
              rcases hwalk.cases_head with rfl | ⟨c'', ⟨token, hnext⟩, _⟩
              · exact hinside hbehind
              · rw [htoken] at hnext
                cases hnext
          | some next =>
              obtain ⟨token, c''⟩ := next
              have hprogress := tokenAt_lt htoken
              dsimp only
              rw [Option.map_eq_none_iff, ih (by omega)]
              constructor
              · rintro ⟨c', hwalk, hbehind⟩
                exact ⟨c', hwalk.head ⟨token, htoken⟩, hbehind⟩
              · rintro ⟨c', hwalk, hbehind⟩
                rcases hwalk.cases_head with rfl | ⟨d, ⟨token', hnext⟩, hrest⟩
                · exact absurd hbehind hinside
                · rw [htoken] at hnext
                  cases hnext
                  exact ⟨c', hrest, hbehind⟩

theorem tokens_eq_none_iff (text : CString) : tokens text.1 = none ↔ Leaves text.1 :=
  tokensFrom_eq_none_iff text (by omega)

/-! ## Texts without escape sequences -/

/-- A character that begins no escape sequence. -/
def plain (ch : UInt8) : Token :=
  if ch = 0x0A then .newline else if ch = 0x0D then .carriageReturn else .glyph ch

theorem charAt_append (a b : List UInt8) (k : Nat) :
    charAt (a ++ b) (a.length + k) = charAt b k := by
  rw [charAt, charAt, List.append_assoc, List.getElem?_append_right (Nat.le_add_right _ _),
    Nat.add_sub_cancel_left]

/-- A character that is none of an escape sequence is its token. -/
theorem tokenAt_plain (a b : List UInt8) {ch : UInt8} (hch : ch ≠ 0) (hesc : ch ≠ 0x1B) :
    tokenAt (a ++ ch :: b) a.length = some (some (plain ch, a.length + 1)) := by
  have hread : charAt (a ++ ch :: b) a.length = some ch := charAt_append a (ch :: b) 0
  rw [tokenAt, hread, Option.bind_some, if_neg hch, plain]
  by_cases h1 : ch = 0x0A
  · rw [if_pos h1, if_pos h1]
  · rw [if_neg h1, if_neg h1]
    by_cases h2 : ch = 0x0D
    · rw [if_pos h2, if_pos h2]
    · rw [if_neg h2, if_neg h2, if_neg fun h => hesc h.1]

/-- The walk over a part without escape sequences. -/
theorem tokensFrom_plain (a b d : List UInt8) (hb : ∀ ch ∈ b, ch ≠ 0 ∧ ch ≠ 0x1B) (bound : Nat) :
    tokensFrom (a ++ b ++ d) (b.length + bound) a.length =
      (tokensFrom (a ++ b ++ d) bound (a ++ b).length).map (b.map plain ++ ·) := by
  induction b generalizing a with
  | nil =>
      rw [List.append_nil, List.length_nil, Nat.zero_add, List.map_nil]
      cases tokensFrom (a ++ d) bound a.length <;> rfl
  | cons ch b ih =>
      obtain ⟨⟨hch, hesc⟩, hb⟩ := List.forall_mem_cons.mp hb
      have hrest := ih (a ++ [ch]) hb
      have htext : a ++ [ch] ++ b ++ d = a ++ (ch :: b) ++ d := by simp
      have hpos : (a ++ [ch] ++ b).length = (a ++ (ch :: b)).length := by simp
      have hfirst : tokenAt (a ++ (ch :: b) ++ d) a.length =
          some (some (plain ch, a.length + 1)) := by
        rw [List.append_assoc, List.cons_append]
        exact tokenAt_plain a (b ++ d) hch hesc
      rw [htext, hpos, List.length_append, List.length_singleton] at hrest
      rw [List.length_cons, Nat.add_right_comm, tokensFrom, hfirst]
      dsimp only
      rw [hrest]
      cases tokensFrom (a ++ (ch :: b) ++ d) bound (a ++ (ch :: b)).length <;> rfl

/-- The walk ends with the text. -/
theorem tokensFrom_end (text : List UInt8) (bound : Nat) :
    tokensFrom text (bound + 1) text.length = some [] := by
  have hread : charAt text text.length = some 0 := by
    rw [charAt, List.getElem?_append_right (le_refl _), Nat.sub_self]
    rfl
  rw [tokensFrom, tokenAt, hread, Option.bind_some, if_pos rfl]

/-- A text without escape sequences. -/
theorem tokens_plain {text : List UInt8} (htext : ∀ ch ∈ text, ch ≠ 0 ∧ ch ≠ 0x1B) :
    tokens text = some (text.map plain) := by
  have hwalk := tokensFrom_plain [] text [] htext 1
  rw [List.nil_append, List.append_nil, tokensFrom_end text 0] at hwalk
  rw [tokens]
  exact hwalk.trans (by simp)

/-! ## Escape sequences -/

/-- **A text with one escape sequence.**  It is read from the third character of the text on, and
as many characters are stepped over from where it stands.  When that is more than there are, the
walk leaves the text. -/
theorem tokens_of_escape {pre rest : List UInt8} (hpre : ∀ ch ∈ pre, ch ≠ 0 ∧ ch ≠ 0x1B)
    (hrest : ∀ ch ∈ rest, ch ≠ 0 ∧ ch ≠ 0x1B) :
    let text := pre ++ 0x1B :: 0x5B :: rest
    let n := escapeLength (text.drop 2)
    (n < rest.length → ∃ e, escape ((text ++ [0]).drop 2) = some (n, e) ∧
      tokens text = some (pre.map plain ++ .escape e :: (rest.drop (n + 1)).map plain)) ∧
    (rest.length ≤ n → tokens text = none) := by
  intro text n
  have htext : ∀ ch ∈ text, ch ≠ 0 := by
    intro ch hch
    rcases List.mem_append.mp hch with h | h
    · exact (hpre ch h).1
    · rcases List.mem_cons.mp h with rfl | h
      · decide
      · rcases List.mem_cons.mp h with rfl | h
        · decide
        · exact (hrest ch h).1
  have hlength : text.length = pre.length + (rest.length + 2) := List.length_append
  obtain ⟨e, he, _⟩ := escape_of_text ⟨text, htext⟩ (by
    show 2 ≤ text.length
    omega)
  -- The token of the sequence, and where the walk is behind it.
  have htoken : tokenAt text pre.length = some (some (.escape e, pre.length + (n + 2) + 1)) := by
    have hfirst : charAt text pre.length = some 0x1B := charAt_append pre _ 0
    have hsecond : charAt text (pre.length + 1) = some 0x5B := charAt_append pre _ 1
    rw [tokenAt, hfirst, Option.bind_some, if_neg (by decide), if_neg (by decide),
      if_neg (by decide), if_pos ⟨rfl, hsecond⟩, he]
    rfl
  have hwalk : tokens text =
      ((tokensFrom text (rest.length + 2) (pre.length + (n + 2) + 1)).map (.escape e :: ·)).map
        (pre.map plain ++ ·) := by
    have h := tokensFrom_plain [] pre (0x1B :: 0x5B :: rest) hpre (rest.length + 2 + 1)
    rw [List.nil_append, List.length_nil, tokensFrom, htoken] at h
    rw [tokens, hlength]
    exact h
  constructor
  · intro hn
    refine ⟨e, he, ?_⟩
    have hsplit : text = (pre ++ 0x1B :: 0x5B :: rest.take (n + 1)) ++ rest.drop (n + 1) ++ [] := by
      rw [List.append_nil, List.append_assoc, List.cons_append, List.cons_append,
        List.take_append_drop]
    have hpos : (pre ++ 0x1B :: 0x5B :: rest.take (n + 1)).length = pre.length + (n + 2) + 1 := by
      simp only [List.length_append, List.length_cons, List.length_take]
      omega
    have hdrop : (rest.drop (n + 1)).length + (n + 2 + 1) = rest.length + 2 := by
      rw [List.length_drop]
      omega
    have h := tokensFrom_plain (pre ++ 0x1B :: 0x5B :: rest.take (n + 1)) (rest.drop (n + 1)) []
      (fun ch hch => hrest ch (List.mem_of_mem_drop hch)) (n + 2 + 1)
    rw [← hsplit, hdrop, hpos] at h
    have hend : (pre ++ 0x1B :: 0x5B :: rest.take (n + 1) ++ rest.drop (n + 1)).length =
        text.length := by
      rw [hsplit, List.append_nil]
    rw [hend, tokensFrom_end] at h
    rw [hwalk, h]
    simp
  · intro hn
    have hbehind : tokenAt text (pre.length + (n + 2) + 1) = none :=
      (tokenAt_eq_none_iff ⟨text, htext⟩ _).mpr (by
        show text.length < pre.length + (n + 2) + 1
        omega)
    rw [hwalk, tokensFrom, hbehind]
    rfl

/-! ## Texts on the screen -/

/-- The screen at the start, with anything in the frame buffer. -/
def start (frame : Nat → UInt32) : Screen := ⟨0, 0, colorDefaultFg, colorDefaultBg, frame⟩

theorem start_aligned (frame : Nat → UInt32) : Aligned (start frame) := by
  have hsmall : (0 : UInt32).toNat < 8 * 10 ^ 8 := by decide
  exact ⟨zero_spec.1, zero_spec.1, hsmall, hsmall⟩

/-- A text on the screen: it is shown token by token, or the walk leaves it. -/
theorem puts_spec (font : Font) (text : CString) {s : Screen} (hs : Aligned s) :
    (tokens text.1 = none ∧ puts font text.1 s = none) ∨
    ∃ ts w, tokens text.1 = some ts ∧ puts font text.1 s = some w ∧ Aligned w.screen ∧
      SameBehind s w.screen ∧ w.screen.terminal = ts.foldl (Terminal.act font) s.terminal :=
  putsLoop_spec font text (text.1.length + 1) 0 hs

/-- A sequence that is read where it stands is understood, or longer than what is read. -/
theorem escapeLength_lt_iff (rest : List UInt8) :
    escapeLength rest < rest.length ↔
      (∃ ch ∈ rest.take 8, isFinal ch = true) ∨ 8 < rest.length := by
  have htake : (rest.take 8).length = min 8 rest.length := List.length_take
  rw [escapeLength, ← List.findIdx_lt_length, htake]
  have hle : (rest.take 8).findIdx isFinal ≤ min 8 rest.length :=
    htake ▸ List.findIdx_le_length
  omega

/-- **One escape sequence.**  A text with one is shown without leaving it exactly when more
characters follow than are read of what stands third in the text; and one at the very start
exactly when it is understood or more than eight characters follow. -/
theorem puts_escape_iff (font : Font) {s : Screen} (hs : Aligned s) {pre rest : List UInt8}
    (hpre : ∀ ch ∈ pre, ch ≠ 0 ∧ ch ≠ 0x1B) (hrest : ∀ ch ∈ rest, ch ≠ 0 ∧ ch ≠ 0x1B) :
    let text := pre ++ 0x1B :: 0x5B :: rest
    (puts font text s ≠ none ↔ escapeLength (text.drop 2) < rest.length) ∧
    (pre = [] → (puts font text s ≠ none ↔
      (∃ ch ∈ rest.take 8, isFinal ch = true) ∨ 8 < rest.length)) := by
  intro text
  have htext : ∀ ch ∈ text, ch ≠ 0 := by
    intro ch hch
    rcases List.mem_append.mp hch with h | h
    · exact (hpre ch h).1
    · rcases List.mem_cons.mp h with rfl | h
      · decide
      · rcases List.mem_cons.mp h with rfl | h
        · decide
        · exact (hrest ch h).1
  obtain ⟨hstays, hleaves⟩ := tokens_of_escape hpre hrest
  have hiff : puts font text s ≠ none ↔ escapeLength (text.drop 2) < rest.length := by
    rcases puts_spec font ⟨text, htext⟩ hs with ⟨htokens, hputs⟩ | ⟨ts, w, htokens, hputs, _⟩
    · refine iff_of_false (fun h => h hputs) fun hlt => ?_
      obtain ⟨e, _, hshown⟩ := hstays hlt
      exact absurd (htokens.symm.trans hshown) (by simp)
    · refine iff_of_true (fun h => ?_) (not_le.mp fun hle => ?_)
      · cases hputs.symm.trans h
      · cases htokens.symm.trans (hleaves hle)
  refine ⟨hiff, ?_⟩
  rintro rfl
  rw [hiff]
  exact escapeLength_lt_iff rest

/-- A sequence at the start of a text. -/
theorem puts_escape_first :
    puts (Vector.replicate 2048 0) [0x1B, 0x5B, 0x33, 0x31, 0x6D, 0x6F, 0x6B]
      (start fun _ => 0) ≠ none :=
  ((puts_escape_iff (Vector.replicate 2048 0) (start_aligned fun _ => 0) (List.forall_mem_nil _)
    (by simp)).2 rfl).mpr (Or.inl ⟨0x6D, by simp, rfl⟩)

/-! ## Runs of the server -/

/-- The calls that change the screen; what is printed is the formatted text. -/
inductive Call where
  | puts (text : CString)
  | printf (text : CString)
  | clear (bgColor : UInt32)
  | setFgColor (color : UInt32)
  | setBgColor (color : UInt32)

/-- What fits in the buffer of a `printf`. -/
def CString.buffer (text : CString) : CString :=
  ⟨text.1.take 511, fun ch hch => text.2 ch (List.mem_of_mem_take hch)⟩

/-- The text that a call shows. -/
def Call.text : Call → Option CString
  | .puts text => some text
  | .printf text => some text.buffer
  | _ => none

def perform (font : Font) (s : Screen) : Call → Option Screen
  | .puts text => (puts font text.1 s).map Walk.screen
  | .printf text => (printf font text.1 s).map Walk.screen
  | .clear bgColor => some (DebugScreen.clear bgColor s)
  | .setFgColor color => some { s with colorFg := color }
  | .setBgColor color => some { s with colorBg := color }

/-- What a call does to the grid; nothing is known when its text is left. -/
def Call.act (font : Font) (t : Terminal) : Call → Option Terminal
  | .puts text => (tokens text.1).map fun ts => ts.foldl (Terminal.act font) t
  | .printf text => (tokens text.buffer.1).map fun ts => ts.foldl (Terminal.act font) t
  | .clear bgColor => some { t with row := 0, col := 0, cells := fun _ _ _ _ => bgColor }
  | .setFgColor color => some { t with fg := color }
  | .setBgColor color => some { t with bg := color }

/-- A call goes wrong when the walk leaves its text, and else does to the pixels what it does to
the grid. -/
theorem perform_spec (font : Font) {s : Screen} (hs : Aligned s) (call : Call) :
    ((∃ text ∈ call.text, Leaves text.1) ∧ call.act font s.terminal = none ∧
      perform font s call = none) ∨
    ((∀ text ∈ call.text, ¬ Leaves text.1) ∧
      ∃ s', perform font s call = some s' ∧ Aligned s' ∧ SameBehind s s' ∧
        call.act font s.terminal = some s'.terminal) := by
  -- A text, of `puts` or of `printf`.
  have hshow : ∀ text : CString,
      (Leaves text.1 ∧ tokens text.1 = none ∧ puts font text.1 s = none) ∨
      (¬ Leaves text.1 ∧ ∃ ts w, tokens text.1 = some ts ∧ puts font text.1 s = some w ∧
        Aligned w.screen ∧ SameBehind s w.screen ∧
        w.screen.terminal = ts.foldl (Terminal.act font) s.terminal) := by
    intro text
    rw [← tokens_eq_none_iff]
    rcases puts_spec font text hs with ⟨htokens, hputs⟩ | ⟨ts, w, htokens, hrest⟩
    · exact Or.inl ⟨htokens, htokens, hputs⟩
    · refine Or.inr ⟨fun h => ?_, ts, w, htokens, hrest⟩
      cases htokens.symm.trans h
  cases call with
  | puts text =>
      rcases hshow text with ⟨hleaves, htokens, hputs⟩ |
        ⟨hstays, ts, w, htokens, hputs, haligned, hbehind, hterminal⟩
      · refine Or.inl ⟨⟨text, rfl, hleaves⟩, ?_, ?_⟩
        · rw [Call.act, htokens]
          rfl
        · rw [perform, hputs]
          rfl
      · refine Or.inr ⟨fun _ h => Option.some.inj h ▸ hstays, w.screen, ?_, haligned, hbehind, ?_⟩
        · rw [perform, hputs]
          rfl
        · rw [Call.act, htokens, hterminal]
          rfl
  | printf text =>
      rcases hshow text.buffer with ⟨hleaves, htokens, hputs⟩ |
        ⟨hstays, ts, w, htokens, hputs, haligned, hbehind, hterminal⟩
      · refine Or.inl ⟨⟨text.buffer, rfl, hleaves⟩, ?_, ?_⟩
        · rw [Call.act, htokens]
          rfl
        · rw [perform, printf]
          exact congrArg (Option.map Walk.screen) hputs
      · refine Or.inr ⟨fun _ h => Option.some.inj h ▸ hstays, w.screen, ?_, haligned, hbehind, ?_⟩
        · rw [perform, printf]
          exact congrArg (Option.map Walk.screen) hputs
        · rw [Call.act, htokens, hterminal]
          rfl
  | clear bgColor =>
      obtain ⟨hin, hbehind, hterminal⟩ := clear_spec s bgColor
      exact Or.inr ⟨(fun _ h => nomatch h), _, rfl, hin.aligned, hbehind, by rw [hterminal]; rfl⟩
  | setFgColor color =>
      exact Or.inr ⟨(fun _ h => nomatch h), _, rfl, ⟨hs.1, hs.2, hs.3, hs.4⟩, fun _ _ => rfl, rfl⟩
  | setBgColor color =>
      exact Or.inr ⟨(fun _ h => nomatch h), _, rfl, ⟨hs.1, hs.2, hs.3, hs.4⟩, fun _ _ => rfl, rfl⟩

/-- A run, from any screen with its cursor in place. -/
theorem performs_spec (font : Font) (calls : List Call) {s : Screen} (hs : Aligned s) :
    (calls.foldlM (perform font) s = none ↔ ∃ call ∈ calls, ∃ text ∈ call.text, Leaves text.1) ∧
    ∀ s', calls.foldlM (perform font) s = some s' → SameBehind s s' ∧
      calls.foldlM (Call.act font) s.terminal = some s'.terminal := by
  induction calls generalizing s with
  | nil =>
      refine ⟨iff_of_false (fun h => by cases h) (fun ⟨_, h, _⟩ => absurd h List.not_mem_nil), ?_⟩
      rintro s' ⟨⟩
      exact ⟨fun _ _ => rfl, rfl⟩
  | cons call calls ih =>
      rw [List.foldlM_cons, List.foldlM_cons, List.exists_mem_cons_iff]
      rcases perform_spec font hs call with ⟨hleaves, _, hperform⟩ |
        ⟨hstays, s₁, hperform, haligned, hbehind, hact⟩
      · rw [hperform]
        exact ⟨iff_of_true rfl (Or.inl hleaves), fun s' h => by cases h⟩
      · obtain ⟨hnone, hsome⟩ := ih haligned
        rw [hperform, hact]
        simp only [Option.bind_eq_bind, Option.bind_some]
        refine ⟨hnone.trans ?_, fun s' hs' => ?_⟩
        · exact (or_iff_right fun ⟨text, htext, h⟩ => hstays text htext h).symm
        · obtain ⟨hbehind', hterminal⟩ := hsome s' hs'
          exact ⟨fun k hk => (hbehind' k hk).trans (hbehind k hk), hterminal⟩

/-- **The screen.**  A run of calls goes wrong exactly when the walk over some text leaves it.
Else every pixel that was drawn was on the screen, and the screen shows the grid that the calls
make of the one at the start. -/
theorem screen_shows (font : Font) (frame : Nat → UInt32) (calls : List Call) :
    (calls.foldlM (perform font) (start frame) = none ↔
      ∃ call ∈ calls, ∃ text ∈ call.text, Leaves text.1) ∧
    ∀ s, calls.foldlM (perform font) (start frame) = some s →
      (∀ k, screenWidth * screenHeight ≤ k → s.frame k = frame k) ∧
      calls.foldlM (Call.act font) (start frame).terminal = some s.terminal :=
  performs_spec font calls (start_aligned frame)

end PsvEmmc.DebugScreen
