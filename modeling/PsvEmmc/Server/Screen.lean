/-
# `PsvEmmc.Server.Screen` — the text that the server shows

`debugScreen.h` draws the messages of the server: a text is walked character
by character, a character is a glyph of 8 × 8 pixels at the cursor, and an
escape sequence moves the cursor or sets the colours.  The cursor is kept in
pixels.  It is moved to the next line, or the screen is cleared, before the
next character is drawn, not when it leaves the screen, and an escape sequence
can put it anywhere.

Above it stands what a screen is for: a grid of 68 × 120 cells, and a text is
a list of tokens that act on the grid.  A call that stays in its text does to
the pixels what its tokens do to the cells, and never draws off the screen
(`puts_refines`).

The walk reads an escape sequence from the third character of the text on,
wherever in the text it stands, and it steps over the character that the
reading stopped at, which may be the end of the text.  What follows from that
is in `PsvEmmc.Server.ScreenText`.
-/
import PsvEmmc.Lib.Loops

namespace PsvEmmc.DebugScreen

open Loops

/-! ## The screen -/

def screenWidth : Nat := 960
def screenHeight : Nat := 544
def glyphW : Nat := 8
def glyphH : Nat := 8

/-- `COLOR_WHITE` and `COLOR_BLACK`. -/
def colorDefaultFg : UInt32 := 0xFFFFFFFF
def colorDefaultBg : UInt32 := 0xFF000000

/-- The variables of the file; `frame` is the frame buffer from its first pixel on. -/
structure Screen where
  coordX : UInt32
  coordY : UInt32
  colorFg : UInt32
  colorBg : UInt32
  frame : Nat → UInt32

/-- `psvDebugScreenFont`, with the zero that ends it. -/
abbrev Font := Vector UInt8 2048

/-- A store to the frame buffer, of the pixels of the screen only. -/
def plot (frame : Nat → UInt32) (k : Nat) (color : UInt32) : Option (Nat → UInt32) :=
  if k < screenWidth * screenHeight then some (Function.update frame k color) else none

/-- The byte of the glyph for a row. -/
def Font.row (font : Font) (ch : UInt8) (i : Fin 8) : UInt8 :=
  font.get ⟨ch.toNat * 8 + i, by have := ch.toNat_lt; omega⟩

/-- `*font & (128 >> j)`. -/
def lit (row : UInt8) (j : Fin 8) : Bool := row &&& (128 >>> UInt8.ofNat j) ≠ 0

/-- The loops that draw a glyph at `vram`. -/
def drawGlyph (font : Font) (ch : UInt8) (s : Screen) : Option (Nat → UInt32) :=
  let vram := s.coordX.toNat + (s.coordY * UInt32.ofNat screenWidth).toNat
  (List.product (List.finRange 8) (List.finRange 8)).foldlM (fun frame ij =>
    plot frame (vram + ij.1 * screenWidth + ij.2)
      (if lit (font.row ch ij.1) ij.2 then s.colorFg else s.colorBg)) s.frame

/-- `psvDebugScreenClear`. -/
def clear (bgColor : UInt32) (s : Screen) : Screen :=
  { s with
    coordX := 0
    coordY := 0
    frame := fun k => if k < screenWidth * screenHeight then bgColor else s.frame k }

/-! ## Escape sequences -/

/-- What an escape sequence does. -/
inductive Effect where
  | none
  | position (x y : Nat)
  | colors (params : List Nat)
  deriving DecidableEq

/-- `BIT2BYTE`. -/
def bit2byte (bit : Nat) : UInt32 :=
  (if bit.testBit 2 then 0x800000 else 0) ||| (if bit.testBit 1 then 0x8000 else 0) |||
    (if bit.testBit 0 then 0x80 else 0)

/-- The `switch` over a parameter of `m`, on the two colours. -/
def setColor (colors : UInt32 × UInt32) (param : Nat) : UInt32 × UInt32 :=
  match param / 10 with
  | 0 => (colorDefaultFg, colorDefaultBg)
  | 3 => (bit2byte (param % 10), colors.2)
  | 9 => (bit2byte (param % 10) ||| 0x7F7F7F7F, colors.2)
  | 4 => (colors.1, bit2byte (param % 10))
  | 10 => (colors.1, bit2byte (param % 10) ||| 0x7F7F7F7F)
  | _ => colors

/-- The loop of `psvDebugScreenEscape` with `left` rounds to go, at the rest of the string: the
index it returns, and what it does to the screen just before. -/
def escapeFrom : (left p : Nat) → Vector Nat 8 → List UInt8 → Option (Nat × Effect)
  | 0, _, _, _ => some (8, .none)
  | _ + 1, _, _, [] => none
  | left + 1, p, params, ch :: str =>
      let i := 7 - left
      if ch = 0 then some (i, .none)
      else if 0x30 ≤ ch ∧ ch ≤ 0x39 then
        if h : p < 8 then
          escapeFrom left p (params.set p (params[p] * 10 + (ch - 0x30).toNat)) str
        else none
      else if ch = 0x3B then escapeFrom left (p + 1) params str
      else if ch = 0x66 ∨ ch = 0x48 then some (i, .position params[0] params[1])
      else if ch = 0x6D then
        if p < 8 then some (i, .colors (params.toList.take (p + 1))) else none
      else escapeFrom left p params str

/-- `psvDebugScreenEscape`. -/
def escape (str : List UInt8) : Option (Nat × Effect) :=
  escapeFrom 8 0 (Vector.replicate 8 0) str

def Effect.apply : Effect → Screen → Screen
  | .none, s => s
  | .position x y, s =>
      { s with coordX := UInt32.ofNat (x * glyphW), coordY := UInt32.ofNat (y * glyphH) }
  | .colors params, s =>
      { s with
        colorFg := (params.foldl setColor (s.colorFg, s.colorBg)).1
        colorBg := (params.foldl setColor (s.colorFg, s.colorBg)).2 }

/-! ## Texts -/

/-- A character of the text, or the zero that ends it. -/
def charAt (text : List UInt8) (c : Nat) : Option UInt8 := (text ++ [0])[c]?

/-- The cursor before a character: on the next line when it is too far right, and on a cleared
screen when it is too far down. -/
def settle (s : Screen) : Screen :=
  let s := if screenWidth < (s.coordX + 8).toNat then
      { s with coordY := s.coordY + UInt32.ofNat glyphH, coordX := 0 }
    else s
  if screenHeight < (s.coordY + 8).toNat then clear s.colorBg s else s

/-- The position in the text, and the screen. -/
structure Walk where
  c : Nat
  screen : Screen

/-- A round of the loop over the text. -/
def putsRound (font : Font) (text : List UInt8) (w : Walk) : Option (ForInStep Walk) :=
  (charAt text w.c).bind fun ch =>
    if ch = 0 then some (.done w)
    else
      let s := settle w.screen
      if ch = 0x0A then
        some (.yield ⟨w.c + 1, { s with coordX := 0, coordY := s.coordY + UInt32.ofNat glyphH }⟩)
      else if ch = 0x0D then some (.yield ⟨w.c + 1, { s with coordX := 0 }⟩)
      else if ch = 0x1B ∧ charAt text (w.c + 1) = some 0x5B then
        -- `text+2`, not `text+c+2`; the `c++` of the loop steps over the character at the index.
        (escape ((text ++ [0]).drop 2)).map fun e =>
          .yield ⟨w.c + (e.1 + 2) + 1, e.2.apply s⟩
      else
        (drawGlyph font ch s).map fun frame =>
          .yield ⟨w.c + 1, { s with frame := frame, coordX := s.coordX + UInt32.ofNat glyphW }⟩

/-- `psvDebugScreenPuts`: the count that it returns, and the screen. -/
def puts (font : Font) (text : List UInt8) (s : Screen) : Option Walk :=
  repeatUntil (putsRound font text) (text.length + 1) ⟨0, s⟩

/-- `psvDebugScreenPrintf` of a text that was formatted; the buffer has 512 bytes. -/
def printf (font : Font) (text : List UInt8) (s : Screen) : Option Walk :=
  puts font (text.take 511) s

/-! ## The grid -/

/-- What a cell shows. -/
abbrev Cell := Fin 8 → Fin 8 → UInt32

/-- A cursor, which need not be in the grid, two colours and the cells. -/
structure Terminal where
  row : Nat
  col : Nat
  fg : UInt32
  bg : UInt32
  cells : Fin 68 → Fin 120 → Cell

/-- What a text consists of. -/
inductive Token where
  | glyph (ch : UInt8)
  | newline
  | carriageReturn
  | escape (e : Effect)
  deriving DecidableEq

def picture (font : Font) (ch : UInt8) (fg bg : UInt32) : Cell := fun i j =>
  if lit (font.row ch i) j then fg else bg

namespace Terminal

def settle (t : Terminal) : Terminal :=
  let t := if 120 ≤ t.col then { t with row := t.row + 1, col := 0 } else t
  if 68 ≤ t.row then { t with row := 0, col := 0, cells := fun _ _ _ _ => t.bg } else t

def put (font : Font) (ch : UInt8) (t : Terminal) : Terminal :=
  { t with
    col := t.col + 1
    cells := fun r c =>
      if r.val = t.row ∧ c.val = t.col then picture font ch t.fg t.bg else t.cells r c }

def escape (t : Terminal) : Effect → Terminal
  | .none => t
  | .position x y => { t with col := x, row := y }
  | .colors params =>
      { t with
        fg := (params.foldl setColor (t.fg, t.bg)).1
        bg := (params.foldl setColor (t.fg, t.bg)).2 }

def act (font : Font) (t : Terminal) : Token → Terminal
  | .glyph ch => t.settle.put font ch
  | .newline => { t.settle with row := t.settle.row + 1, col := 0 }
  | .carriageReturn => { t.settle with col := 0 }
  | .escape e => t.settle.escape e

end Terminal

/-- The token at a position, if the text has not ended there, and the position behind it. -/
def tokenAt (text : List UInt8) (c : Nat) : Option (Option (Token × Nat)) :=
  (charAt text c).bind fun ch =>
    if ch = 0 then some none
    else if ch = 0x0A then some (some (.newline, c + 1))
    else if ch = 0x0D then some (some (.carriageReturn, c + 1))
    else if ch = 0x1B ∧ charAt text (c + 1) = some 0x5B then
      (escape ((text ++ [0]).drop 2)).map fun e => some (.escape e.2, c + (e.1 + 2) + 1)
    else some (some (.glyph ch, c + 1))

/-- The tokens from a position on. -/
def tokensFrom (text : List UInt8) : (bound c : Nat) → Option (List Token)
  | 0, _ => none
  | bound + 1, c =>
      match tokenAt text c with
      | none => none
      | some none => some []
      | some (some (token, c')) => (tokensFrom text bound c').map (token :: ·)

/-- The tokens of a text; there are none when the walk leaves the text. -/
def tokens (text : List UInt8) : Option (List Token) := tokensFrom text (text.length + 1) 0

/-- The grid that a screen shows. -/
def Screen.terminal (s : Screen) : Terminal where
  row := s.coordY.toNat / 8
  col := s.coordX.toNat / 8
  fg := s.colorFg
  bg := s.colorBg
  cells r c i j := s.frame ((r * 8 + i) * 960 + c * 8 + j)

/-! ## Escape sequences are short -/

/-- What ends an escape sequence that is understood. -/
def isFinal (ch : UInt8) : Bool := ch = 0x66 ∨ ch = 0x48 ∨ ch = 0x6D

/-- The index that the reading stops at: the final character, or where the string ends, or `8`. -/
def escapeLength (str : List UInt8) : Nat := (str.take 8).findIdx isFinal

/-- No parameter has more digits than characters were read. -/
def Small (params : Vector Nat 8) (left : Nat) : Prop :=
  left ≤ 8 ∧ ∀ q (hq : q < 8), params[q] < 10 ^ (8 - left)

theorem Small.mono {params : Vector Nat 8} {left : Nat} (h : Small params (left + 1)) :
    Small params left :=
  ⟨Nat.le_of_succ_le h.1, fun q hq =>
    (h.2 q hq).trans_le (Nat.pow_le_pow_right (by decide) (by omega))⟩

theorem Small.digit {params : Vector Nat 8} {left p : Nat} (h : Small params (left + 1))
    (hp : p < 8) {ch : UInt8} (hch : ch ≤ 0x39) (hch' : 0x30 ≤ ch) :
    Small (params.set p (params[p] * 10 + (ch - 0x30).toNat)) left := by
  refine ⟨h.mono.1, fun q hq => ?_⟩
  rcases eq_or_ne p q with rfl | hne
  · have hdigit : (ch - 0x30).toNat < 10 := by
      rw [UInt8.toNat_sub_of_le _ _ hch']
      have := UInt8.le_iff_toNat_le.mp hch
      have h57 : (0x39 : UInt8).toNat = 57 := rfl
      have h48 : (0x30 : UInt8).toNat = 48 := rfl
      omega
    have hvalue := h.2 p hq
    have hpow : 10 ^ (8 - left) = 10 ^ (8 - (left + 1)) * 10 := by
      rw [← Nat.pow_succ]
      congr 1
      have := h.1
      omega
    rw [Vector.getElem_set_self, hpow]
    omega
  · rw [Vector.getElem_set_ne _ _ hne]
    exact h.mono.2 q hq

/-- A string that does not end too soon is read, and what it says is small. -/
theorem escapeFrom_spec {left p : Nat} {params : Vector Nat 8} {str : List UInt8}
    (hparams : Small params left) (hp : p ≤ 8 - left) (hstr : ∀ ch ∈ str, ch ≠ 0) :
    ∃ e, escapeFrom left p params (str ++ [0]) =
        some (8 - left + (str.take left).findIdx isFinal, e) ∧
      ∀ x y, e = .position x y → x < 10 ^ 8 ∧ y < 10 ^ 8 := by
  induction left generalizing p params str with
  | zero => exact ⟨.none, rfl, fun x y h => by cases h⟩
  | succ left ih =>
      have hleft := hparams.1
      cases str with
      | nil =>
          refine ⟨.none, ?_, fun x y h => by cases h⟩
          rw [List.nil_append, escapeFrom, if_pos rfl, List.take_nil, List.findIdx_nil]
          congr 2
          omega
      | cons ch str =>
          obtain ⟨hch, hstr⟩ := List.forall_mem_cons.mp hstr
          -- The loop goes on with what it has read.
          have hnext : isFinal ch = false → ∀ p' params', Small params' left → p' ≤ 8 - left →
              ∃ e, escapeFrom left p' params' (str ++ [0]) =
                  some (8 - (left + 1) + ((ch :: str).take (left + 1)).findIdx isFinal, e) ∧
                ∀ x y, e = .position x y → x < 10 ^ 8 ∧ y < 10 ^ 8 := by
            intro hnot p' params' hsmall hp'
            obtain ⟨e, he, hposition⟩ := ih hsmall hp' hstr
            refine ⟨e, ?_, hposition⟩
            rw [he, List.take_succ_cons, List.findIdx_cons, hnot]
            congr 2
            simp only [cond_false]
            omega
          have hstop : isFinal ch = true →
              7 - left = 8 - (left + 1) + ((ch :: str).take (left + 1)).findIdx isFinal := by
            intro hfinal
            rw [List.take_succ_cons, List.findIdx_cons, hfinal]
            simp only [cond_true]
            omega
          have hmore : p ≤ 8 - left := by omega
          have hroom : p < 8 := by omega
          rw [List.cons_append, escapeFrom, if_neg hch]
          by_cases hdigit : 0x30 ≤ ch ∧ ch ≤ 0x39
          · rw [if_pos hdigit, dif_pos hroom]
            refine hnext ?_ p _ (hparams.digit hroom hdigit.2 hdigit.1) hmore
            refine decide_eq_false ?_
            rintro (rfl | rfl | rfl) <;> exact absurd hdigit.2 (by decide)
          · rw [if_neg hdigit]
            by_cases hsemi : ch = 0x3B
            · rw [if_pos hsemi]
              exact hnext (by rw [hsemi]; rfl) (p + 1) params hparams.mono (by omega)
            · rw [if_neg hsemi]
              by_cases hmove : ch = 0x66 ∨ ch = 0x48
              · have hfinal : isFinal ch = true := by
                  rcases hmove with rfl | rfl <;> rfl
                rw [if_pos hmove, hstop hfinal]
                refine ⟨_, rfl, fun x y hxy => ?_⟩
                rw [Effect.position.injEq] at hxy
                obtain ⟨rfl, rfl⟩ := hxy
                have hall : 10 ^ (8 - (left + 1)) ≤ 10 ^ 8 :=
                  Nat.pow_le_pow_right (by decide) (Nat.sub_le 8 _)
                exact ⟨(hparams.2 0 (by decide)).trans_le hall,
                  (hparams.2 1 (by decide)).trans_le hall⟩
              · rw [if_neg hmove]
                by_cases hcolor : ch = 0x6D
                · rw [if_pos hcolor, if_pos hroom, hstop (by rw [hcolor]; rfl)]
                  exact ⟨_, rfl, fun x y h => by cases h⟩
                · rw [if_neg hcolor]
                  refine hnext ?_ p params hparams.mono hmore
                  refine decide_eq_false ?_
                  rintro (h | h | h)
                  · exact hmove (Or.inl h)
                  · exact hmove (Or.inr h)
                  · exact hcolor h

/-- Any escape sequence: it is read up to its end, and does something small. -/
theorem escape_spec {str : List UInt8} (hstr : ∀ ch ∈ str, ch ≠ 0) :
    ∃ e, escape (str ++ [0]) = some (escapeLength str, e) ∧
      ∀ x y, e = .position x y → x < 10 ^ 8 ∧ y < 10 ^ 8 := by
  have hstart : Small (Vector.replicate 8 0) 8 := by
    refine ⟨le_refl 8, fun q hq => ?_⟩
    rw [Vector.getElem_replicate]
    decide
  obtain ⟨e, he, hposition⟩ := escapeFrom_spec hstart (Nat.zero_le 0) hstr
  refine ⟨e, ?_, hposition⟩
  rw [escape, he, escapeLength]
  simp

/-! ## From the pixels to the grid -/

/-- The cursor is at a multiple of a glyph, and not too far out to count with. -/
structure Aligned (s : Screen) : Prop where
  x_dvd : 8 ∣ s.coordX.toNat
  y_dvd : 8 ∣ s.coordY.toNat
  x_lt : s.coordX.toNat < 8 * 10 ^ 8
  y_lt : s.coordY.toNat < 8 * 10 ^ 8

/-- The cursor is in the screen, with its glyph. -/
structure InScreen (s : Screen) : Prop where
  x_dvd : 8 ∣ s.coordX.toNat
  y_dvd : 8 ∣ s.coordY.toNat
  x_le : s.coordX.toNat + 8 ≤ 960
  y_le : s.coordY.toNat + 8 ≤ 544

theorem InScreen.aligned {s : Screen} (h : InScreen s) : Aligned s :=
  ⟨h.x_dvd, h.y_dvd, by have := h.x_le; omega, by have := h.y_le; omega⟩

theorem toNat_add_eight {x : UInt32} (hx : x.toNat < 8 * 10 ^ 8) :
    (x + 8).toNat = x.toNat + 8 := by
  rw [UInt32.toNat_add]
  exact Nat.mod_eq_of_lt (by show x.toNat + 8 < 2 ^ 32; omega)

/-- The memory behind the screen is not touched. -/
def SameBehind (s s' : Screen) : Prop :=
  ∀ k, screenWidth * screenHeight ≤ k → s'.frame k = s.frame k

/-- A cursor at the left, or at the top. -/
theorem zero_spec : 8 ∣ (0 : UInt32).toNat ∧ (0 : UInt32).toNat + 8 ≤ 544 ∧
    (0 : UInt32).toNat / 8 = 0 := by
  decide

theorem clear_spec (s : Screen) (bgColor : UInt32) :
    InScreen (clear bgColor s) ∧ SameBehind s (clear bgColor s) ∧
    (clear bgColor s).terminal =
      { s.terminal with row := 0, col := 0, cells := fun _ _ _ _ => bgColor } := by
  obtain ⟨hdvd, hle, hdiv⟩ := zero_spec
  refine ⟨⟨hdvd, hdvd, hle.trans (by decide), hle⟩, fun k hk => if_neg (not_lt.mpr hk), ?_⟩
  rw [Screen.terminal, Screen.terminal, Terminal.mk.injEq]
  refine ⟨hdiv, hdiv, rfl, rfl, ?_⟩
  funext r c i j
  exact if_pos (by show (r.val * 8 + i.val) * 960 + c.val * 8 + j.val < 960 * 544; omega)

/-- The cursor moved to the next line. -/
def wrap (s : Screen) : Screen :=
  if screenWidth < (s.coordX + 8).toNat then
    { s with coordY := s.coordY + UInt32.ofNat glyphH, coordX := 0 }
  else s

theorem settle_eq (s : Screen) :
    settle s =
      if screenHeight < ((wrap s).coordY + 8).toNat then clear (wrap s).colorBg (wrap s)
      else wrap s :=
  rfl

theorem wrap_spec {s : Screen} (hs : Aligned s) :
    8 ∣ (wrap s).coordX.toNat ∧ 8 ∣ (wrap s).coordY.toNat ∧ (wrap s).coordX.toNat + 8 ≤ 960 ∧
    ((wrap s).coordY + 8).toNat = (wrap s).coordY.toNat + 8 ∧
    (wrap s).terminal =
      if 120 ≤ s.terminal.col then { s.terminal with row := s.terminal.row + 1, col := 0 }
      else s.terminal := by
  obtain ⟨hx, hy, hxl, hyl⟩ := hs
  have hxs := toNat_add_eight hxl
  have hys := toNat_add_eight hyl
  have hcol : screenWidth < (s.coordX + 8).toNat ↔ 120 ≤ s.terminal.col := by
    rw [hxs]
    show 960 < s.coordX.toNat + 8 ↔ 120 ≤ s.coordX.toNat / 8
    omega
  rw [wrap]
  by_cases hfar : screenWidth < (s.coordX + 8).toNat
  · rw [if_pos hfar, if_pos (hcol.mp hfar)]
    have hys' : (s.coordY + UInt32.ofNat glyphH).toNat = s.coordY.toNat + 8 := hys
    have hrow : (s.coordY.toNat + 8) / 8 = s.coordY.toNat / 8 + 1 := Nat.add_div_right _ (by decide)
    refine ⟨zero_spec.1, ?_, zero_spec.2.1.trans (by decide), ?_, ?_⟩
    · rw [hys']
      exact (Nat.dvd_add_self_right).mpr hy
    · show (s.coordY + UInt32.ofNat glyphH + 8).toNat = (s.coordY + UInt32.ofNat glyphH).toNat + 8
      rw [UInt32.toNat_add, hys']
      exact Nat.mod_eq_of_lt (by show s.coordY.toNat + 8 + 8 < 2 ^ 32; omega)
    · simp only [Screen.terminal, hys', hrow, zero_spec.2.2]
  · rw [if_neg hfar, if_neg fun h => hfar (hcol.mpr h)]
    rw [hxs] at hfar
    exact ⟨hx, hy, not_lt.mp hfar, hys, rfl⟩

theorem settle_spec {s : Screen} (hs : Aligned s) :
    InScreen (settle s) ∧ SameBehind s (settle s) ∧
    (settle s).terminal = s.terminal.settle := by
  obtain ⟨hx, hy, hxl, hys, hterminal⟩ := wrap_spec hs
  have hsame : (wrap s).frame = s.frame := by
    rw [wrap]
    split_ifs <;> rfl
  have hrow : screenHeight < ((wrap s).coordY + 8).toNat ↔ 68 ≤ (wrap s).terminal.row := by
    rw [hys]
    show 544 < (wrap s).coordY.toNat + 8 ↔ 68 ≤ (wrap s).coordY.toNat / 8
    omega
  rw [settle_eq, Terminal.settle, ← hterminal]
  by_cases hlow : screenHeight < ((wrap s).coordY + 8).toNat
  · obtain ⟨hin, hbehind, hcleared⟩ := clear_spec (wrap s) (wrap s).colorBg
    rw [if_pos hlow, if_pos (hrow.mp hlow), hcleared]
    refine ⟨hin, fun k hk => ?_, rfl⟩
    rw [hbehind k hk, hsame]
  · rw [if_neg hlow, if_neg fun h => hlow (hrow.mpr h)]
    rw [hys] at hlow
    exact ⟨⟨hx, hy, hxl, not_lt.mp hlow⟩, fun k _ => congrFun hsame k, rfl⟩

/-- A glyph is drawn on its cell. -/
theorem drawGlyph_spec (font : Font) (ch : UInt8) {s : Screen} (hs : InScreen s) :
    ∃ frame, drawGlyph font ch s = some frame ∧
      (∀ k, screenWidth * screenHeight ≤ k → frame k = s.frame k) ∧
      ∀ (r : Fin 68) (c : Fin 120) (i j : Fin 8),
        frame ((r * 8 + i) * 960 + c * 8 + j) =
          if r.val = s.terminal.row ∧ c.val = s.terminal.col then
            picture font ch s.colorFg s.colorBg i j
          else s.frame ((r * 8 + i) * 960 + c * 8 + j) := by
  obtain ⟨⟨col, hcol⟩, ⟨row, hrow⟩, hx, hy⟩ := hs
  have hproduct : (s.coordY * UInt32.ofNat screenWidth).toNat = 8 * row * 960 := by
    rw [UInt32.toNat_mul, hrow]
    exact Nat.mod_eq_of_lt (by show 8 * row * 960 < 2 ^ 32; omega)
  let place : Fin 8 × Fin 8 → Nat := fun ij => 8 * col + 8 * row * 960 + ij.1 * 960 + ij.2
  have hplace : Function.Injective place := by
    rintro ⟨i, j⟩ ⟨i', j'⟩ h
    have h' : 8 * col + 8 * row * 960 + i.val * 960 + j.val =
        8 * col + 8 * row * 960 + i'.val * 960 + j'.val := h
    exact Prod.ext (Fin.ext (by show i.val = i'.val; omega))
      (Fin.ext (by show j.val = j'.val; omega))
  have hinside : ∀ ij, place ij < screenWidth * screenHeight := by
    rintro ⟨i, j⟩
    show 8 * col + 8 * row * 960 + i.val * 960 + j.val < 960 * 544
    omega
  let value : Fin 8 × Fin 8 → UInt32 := fun ij => picture font ch s.colorFg s.colorBg ij.1 ij.2
  refine ⟨(List.product (List.finRange 8) (List.finRange 8)).foldl
    (fun frame ij => Function.update frame (place ij) (value ij)) s.frame, ?_, fun k hk => ?_,
    fun r c i j => ?_⟩
  · rw [drawGlyph, hproduct, hcol]
    exact foldlM_some (fun ij _ frame => if_pos (hinside ij)) s.frame
  · exact foldl_update_other value (fun ij _ h => absurd (hinside ij) (by omega)) s.frame
  · have hrow' : s.terminal.row = row := by
      show s.coordY.toNat / 8 = row
      omega
    have hcol' : s.terminal.col = col := by
      show s.coordX.toNat / 8 = col
      omega
    rw [hrow', hcol']
    by_cases hcell : r.val = row ∧ c.val = col
    · rw [if_pos hcell]
      have hpixel : (r.val * 8 + i.val) * 960 + c.val * 8 + j.val = place (i, j) := by
        show _ = 8 * col + 8 * row * 960 + i.val * 960 + j.val
        omega
      rw [hpixel]
      exact foldl_update_place hplace value
        (List.mem_product.mpr ⟨List.mem_finRange i, List.mem_finRange j⟩) s.frame
    · rw [if_neg hcell]
      refine foldl_update_other value (fun ij _ h => hcell ?_) s.frame
      have h' : 8 * col + 8 * row * 960 + ij.1.val * 960 + ij.2.val =
          (r.val * 8 + i.val) * 960 + c.val * 8 + j.val := h
      omega

/-! ## A text on the screen -/

/-- What a token does to the pixels of a screen and to its grid. -/
structure Acts (font : Font) (token : Token) (s s' : Screen) : Prop where
  aligned : Aligned s'
  behind : SameBehind s s'
  terminal : s'.terminal = s.terminal.act font token

theorem acts_newline (font : Font) {s : Screen} (hs : Aligned s) :
    Acts font .newline s
      { settle s with coordX := 0, coordY := (settle s).coordY + UInt32.ofNat glyphH } := by
  obtain ⟨hin, hbehind, hterminal⟩ := settle_spec hs
  generalize settle s = u at *
  have hyl := hin.y_le
  have hy : (u.coordY + UInt32.ofNat glyphH).toNat = u.coordY.toNat + 8 :=
    toNat_add_eight hin.aligned.y_lt
  refine ⟨⟨zero_spec.1, ?_, ?_, ?_⟩, hbehind, ?_⟩
  · rw [hy]
    exact (Nat.dvd_add_self_right).mpr hin.y_dvd
  · have h := zero_spec.2.1
    dsimp only
    omega
  · rw [hy]
    omega
  · rw [Terminal.act, ← hterminal]
    simp only [Screen.terminal, hy, zero_spec.2.2, Nat.add_div_right _ (show 0 < 8 by decide)]

theorem acts_carriageReturn (font : Font) {s : Screen} (hs : Aligned s) :
    Acts font .carriageReturn s { settle s with coordX := 0 } := by
  obtain ⟨hin, hbehind, hterminal⟩ := settle_spec hs
  generalize settle s = u at *
  refine ⟨⟨zero_spec.1, hin.y_dvd, ?_, hin.aligned.y_lt⟩, hbehind, ?_⟩
  · have h := zero_spec.2.1
    dsimp only
    omega
  · rw [Terminal.act, ← hterminal]
    simp only [Screen.terminal, zero_spec.2.2]

theorem toNat_ofNat_mul_eight {z : Nat} (hz : z < 10 ^ 8) :
    (UInt32.ofNat (z * 8)).toNat = z * 8 := by
  rw [UInt32.toNat_ofNat']
  exact Nat.mod_eq_of_lt (by omega)

theorem acts_escape (font : Font) {s : Screen} (hs : Aligned s) {e : Effect}
    (he : ∀ x y, e = .position x y → x < 10 ^ 8 ∧ y < 10 ^ 8) :
    Acts font (.escape e) s (e.apply (settle s)) := by
  obtain ⟨hin, hbehind, hterminal⟩ := settle_spec hs
  generalize settle s = u at *
  cases e with
  | none => exact ⟨hin.aligned, hbehind, hterminal⟩
  | colors params =>
      refine ⟨⟨hin.x_dvd, hin.y_dvd, hin.aligned.x_lt, hin.aligned.y_lt⟩, hbehind, ?_⟩
      rw [Terminal.act, ← hterminal]
      rfl
  | position x y =>
      obtain ⟨hx, hy⟩ := he x y rfl
      have hx' : (UInt32.ofNat (x * glyphW)).toNat = x * 8 := toNat_ofNat_mul_eight hx
      have hy' : (UInt32.ofNat (y * glyphH)).toNat = y * 8 := toNat_ofNat_mul_eight hy
      refine ⟨⟨?_, ?_, ?_, ?_⟩, hbehind, ?_⟩
      · rw [Effect.apply, hx']
        exact Nat.dvd_mul_left 8 x
      · rw [Effect.apply, hy']
        exact Nat.dvd_mul_left 8 y
      · rw [Effect.apply, hx']
        omega
      · rw [Effect.apply, hy']
        omega
      · rw [Terminal.act, ← hterminal]
        simp only [Effect.apply, Screen.terminal, Terminal.escape, hx', hy',
          Nat.mul_div_left _ (show 0 < 8 by decide)]

theorem acts_glyph (font : Font) (ch : UInt8) {s : Screen} (hs : Aligned s) :
    ∃ frame, drawGlyph font ch (settle s) = some frame ∧
      Acts font (.glyph ch) s
        { settle s with
          frame := frame, coordX := (settle s).coordX + UInt32.ofNat glyphW } := by
  obtain ⟨hin, hbehind, hterminal⟩ := settle_spec hs
  obtain ⟨frame, hframe, hrest, hcells⟩ := drawGlyph_spec font ch hin
  refine ⟨frame, hframe, ?_⟩
  generalize settle s = u at *
  have hxl := hin.x_le
  have hx : (u.coordX + UInt32.ofNat glyphW).toNat = u.coordX.toNat + 8 :=
    toNat_add_eight hin.aligned.x_lt
  refine ⟨⟨?_, hin.y_dvd, ?_, hin.aligned.y_lt⟩, fun k hk => ?_, ?_⟩
  · rw [hx]
    exact (Nat.dvd_add_self_right).mpr hin.x_dvd
  · rw [hx]
    omega
  · exact (hrest k hk).trans (hbehind k hk)
  · have hcell : ∀ (r : Fin 68) (c : Fin 120),
        (fun (i j : Fin 8) => frame ((r * 8 + i) * 960 + c * 8 + j)) =
        if r.val = u.terminal.row ∧ c.val = u.terminal.col then
          picture font ch u.terminal.fg u.terminal.bg
        else u.terminal.cells r c := by
      intro r c
      funext i j
      rw [hcells r c i j]
      split_ifs <;> rfl
    rw [Terminal.act, ← hterminal, Terminal.put, Terminal.mk.injEq]
    refine ⟨rfl, ?_, rfl, rfl, funext fun r => funext fun c => hcell r c⟩
    show (u.coordX + UInt32.ofNat glyphW).toNat / 8 = u.coordX.toNat / 8 + 1
    rw [hx, Nat.add_div_right _ (by decide)]

/-- A string of C, without the zero that ends it. -/
abbrev CString := {text : List UInt8 // ∀ ch ∈ text, ch ≠ 0}

theorem charAt_lt {text : List UInt8} {c : Nat} {ch : UInt8} (h : charAt text c = some ch)
    (hch : ch ≠ 0) : c < text.length := by
  by_contra hge
  rw [charAt, List.getElem?_append_right (not_lt.mp hge), List.getElem?_singleton] at h
  split_ifs at h
  exact hch (Option.some.inj h).symm

/-- The reading of an escape sequence does not leave the text. -/
theorem escape_of_text (text : CString) (hlong : 2 ≤ text.1.length) :
    ∃ e, escape ((text.1 ++ [0]).drop 2) = some (escapeLength (text.1.drop 2), e) ∧
      ∀ x y, e = .position x y → x < 10 ^ 8 ∧ y < 10 ^ 8 := by
  rw [List.drop_append_of_le_length hlong]
  exact escape_spec fun ch hch => text.2 ch (List.mem_of_mem_drop hch)

/-- A token is there wherever the text is. -/
theorem tokenAt_eq_none_iff (text : CString) (c : Nat) :
    tokenAt text.1 c = none ↔ text.1.length < c := by
  have hread : charAt text.1 c = none ↔ text.1.length < c := by
    rw [charAt, List.getElem?_eq_none_iff, List.length_append, List.length_singleton]
    exact Iff.rfl
  rw [← hread, tokenAt, Option.bind_eq_none_iff]
  constructor
  · intro h
    cases hch : charAt text.1 c with
    | none => rfl
    | some ch =>
        have hnone := h ch hch
        split_ifs at hnone with h0 h1 h2 h3
        have hlong := charAt_lt h3.2 (by decide)
        obtain ⟨e, he, _⟩ := escape_of_text text (by omega)
        rw [he] at hnone
        cases hnone
  · intro h ch hch
    rw [h] at hch
    cases hch

/-- A round of the loop does what the token says. -/
theorem putsRound_spec (font : Font) (text : CString) (c : Nat) {s : Screen} (hs : Aligned s) :
    (tokenAt text.1 c = none ∧ putsRound font text.1 ⟨c, s⟩ = none) ∨
    (tokenAt text.1 c = some none ∧ putsRound font text.1 ⟨c, s⟩ = some (.done ⟨c, s⟩)) ∨
    ∃ token c' s', tokenAt text.1 c = some (some (token, c')) ∧
      putsRound font text.1 ⟨c, s⟩ = some (.yield ⟨c', s'⟩) ∧ Acts font token s s' := by
  rw [tokenAt, putsRound]
  cases hch : charAt text.1 c with
  | none => exact Or.inl ⟨rfl, rfl⟩
  | some ch =>
      right
      simp only [Option.bind_some]
      by_cases h0 : ch = 0
      · rw [if_pos h0, if_pos h0]
        exact Or.inl ⟨rfl, rfl⟩
      · right
        rw [if_neg h0, if_neg h0]
        by_cases h1 : ch = 0x0A
        · rw [if_pos h1, if_pos h1]
          exact ⟨_, _, _, rfl, rfl, acts_newline font hs⟩
        · rw [if_neg h1, if_neg h1]
          by_cases h2 : ch = 0x0D
          · rw [if_pos h2, if_pos h2]
            exact ⟨_, _, _, rfl, rfl, acts_carriageReturn font hs⟩
          · rw [if_neg h2, if_neg h2]
            by_cases h3 : ch = 0x1B ∧ charAt text.1 (c + 1) = some 0x5B
            · have hlong := charAt_lt h3.2 (by decide)
              obtain ⟨e, he, hsmall⟩ := escape_of_text text (by omega)
              rw [if_pos h3, if_pos h3, he]
              exact ⟨_, _, _, rfl, rfl, acts_escape font hs hsmall⟩
            · obtain ⟨frame, hframe, hacts⟩ := acts_glyph font ch hs
              rw [if_neg h3, if_neg h3, hframe]
              exact ⟨_, _, _, rfl, rfl, hacts⟩

/-- The loop does what the tokens say. -/
theorem putsLoop_spec (font : Font) (text : CString) (bound c : Nat) {s : Screen}
    (hs : Aligned s) :
    (tokensFrom text.1 bound c = none ∧
      repeatUntil (putsRound font text.1) bound ⟨c, s⟩ = none) ∨
    ∃ ts w, tokensFrom text.1 bound c = some ts ∧
      repeatUntil (putsRound font text.1) bound ⟨c, s⟩ = some w ∧ Aligned w.screen ∧
      SameBehind s w.screen ∧ w.screen.terminal = ts.foldl (Terminal.act font) s.terminal := by
  induction bound generalizing c s with
  | zero => exact Or.inl ⟨rfl, rfl⟩
  | succ bound ih =>
      rw [tokensFrom, repeatUntil]
      rcases putsRound_spec font text c hs with ⟨htoken, hround⟩ | ⟨htoken, hround⟩ |
        ⟨token, c', s', htoken, hround, hacts⟩
      · rw [htoken, hround]
        exact Or.inl ⟨rfl, rfl⟩
      · rw [htoken, hround]
        exact Or.inr ⟨[], ⟨c, s⟩, rfl, rfl, hs, fun _ _ => rfl, rfl⟩
      · rw [htoken, hround]
        rcases ih c' hacts.aligned with ⟨htokens, hloop⟩ |
          ⟨ts, w, htokens, hloop, haligned, hbehind, hterminal⟩
        · refine Or.inl ⟨?_, hloop⟩
          dsimp only
          rw [htokens]
          rfl
        · refine Or.inr ⟨token :: ts, w, ?_, hloop, haligned,
            fun k hk => (hbehind k hk).trans (hacts.behind k hk), ?_⟩
          · dsimp only
            rw [htokens]
            rfl
          · rw [hterminal, hacts.terminal]
            rfl

end PsvEmmc.DebugScreen
