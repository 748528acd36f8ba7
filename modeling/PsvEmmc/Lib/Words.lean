/-
# `Words` — 32-bit machine words and their bytes

A C `int` is an `Int32` and a `uint32_t` is a `UInt32`; both wrap.  A packed
struct puts a word on the wire as four bytes, least significant first.
`le32` writes them and `ofLe32` reads them back, so a signed and an unsigned
reader of one field see the same four bytes.

A short read fills only the front of a struct.  `overlay old new` is the
struct afterwards: the bytes of `new` over the front of `old`.
-/
import Mathlib

namespace Words

/-! ## Bytes of a word -/

/-- The four bytes of a word, least significant first. -/
def le32 (x : UInt32) : List UInt8 :=
  [UInt8.ofNat x.toNat, UInt8.ofNat (x.toNat / 256),
   UInt8.ofNat (x.toNat / 65536), UInt8.ofNat (x.toNat / 16777216)]

/-- The word in the first four bytes; a missing byte counts as zero. -/
def ofLe32 (bs : List UInt8) : UInt32 :=
  UInt32.ofNat ((bs.getD 0 0).toNat + 256 * (bs.getD 1 0).toNat
    + 65536 * (bs.getD 2 0).toNat + 16777216 * (bs.getD 3 0).toNat)

theorem ofLe32_le32_append (x : UInt32) (rest : List UInt8) :
    ofLe32 (le32 x ++ rest) = x := by
  have hx := x.toNat_lt
  apply UInt32.toNat_inj.1
  simp only [ofLe32, le32, List.cons_append, List.getD_cons_zero, List.getD_cons_succ,
    UInt8.toNat_ofNat', UInt32.toNat_ofNat']
  omega

/-! ## Signed words -/

/-- The four bytes of a signed word. -/
def leInt (x : Int32) : List UInt8 := le32 x.toUInt32

/-- The signed word in the first four bytes. -/
def ofLeInt (bs : List UInt8) : Int32 := (ofLe32 bs).toInt32

@[simp] theorem length_leInt (x : Int32) : (leInt x).length = 4 := rfl

@[simp] theorem drop_four_leInt_append (x : Int32) (rest : List UInt8) :
    (leInt x ++ rest).drop 4 = rest :=
  List.drop_left' (length_leInt x)

theorem ofLeInt_leInt_append (x : Int32) (rest : List UInt8) :
    ofLeInt (leInt x ++ rest) = x := by
  rw [ofLeInt, leInt, ofLe32_le32_append, Int32.toInt32_toUInt32]

@[simp] theorem ofLeInt_leInt (x : Int32) : ofLeInt (leInt x) = x := by
  simpa using ofLeInt_leInt_append x []

theorem ofLe32_leInt_append (x : Int32) (rest : List UInt8) :
    ofLe32 (leInt x ++ rest) = x.toUInt32 :=
  ofLe32_le32_append x.toUInt32 rest

/-- Words at the front of two equal lists are equal, and so is what follows them. -/
theorem leInt_append_inj {x y : Int32} {xs ys : List UInt8} :
    leInt x ++ xs = leInt y ++ ys ↔ x = y ∧ xs = ys := by
  constructor
  · intro h
    refine ⟨?_, List.append_inj_right h rfl⟩
    rw [← ofLeInt_leInt_append x xs, h, ofLeInt_leInt_append]
  · rintro ⟨rfl, rfl⟩
    rfl

/-- An `int` passed where an unsigned size is expected: its value modulo `2^32`. -/
theorem toNat_toUInt32 (x : Int32) : (x.toUInt32.toNat : Int) = x.toInt % 2 ^ 32 := by
  have h : x.toInt = Int.bmod (x.toUInt32.toNat : Int) (2 ^ 32) := by
    show x.toBitVec.toInt = _
    rw [BitVec.toInt_eq_toNat_bmod]
    rfl
  have hlt := x.toUInt32.toNat_lt
  rw [h, Int.bmod_def]
  split <;> omega

/-- The product of two `int`s as an unsigned size: the exact product modulo `2^32`. -/
theorem toNat_toUInt32_mul (x y : Int32) :
    ((x * y).toUInt32.toNat : Int) = x.toInt * y.toInt % 2 ^ 32 := by
  rw [toNat_toUInt32, Int32.toInt_mul]
  exact Int.bmod_emod

/-- An unsigned word stored in an `int`, and an `int` made from the same number. -/
theorem toInt32_eq_ofNat (x : UInt32) : x.toInt32 = Int32.ofNat x.toNat := by
  rw [← UInt32.toInt32_ofNat', UInt32.ofNat_toNat]

/-! ## Short reads into a struct -/

/-- `new` written over the front of `old`. -/
def overlay (old new : List UInt8) : List UInt8 := new ++ old.drop new.length

theorem overlay_of_length_eq {old new : List UInt8} (h : new.length = old.length) :
    overlay old new = new := by
  simp [overlay, h]

/-- A word preset to `-1` and read short stays negative: its top byte was not reached. -/
theorem ofLeInt_overlay_neg {new : List UInt8} (h : new.length < 4) :
    (ofLeInt (overlay (leInt (-1)) new)).toInt < 0 := by
  have hneg : ∀ b₀ b₁ b₂ : UInt8, (ofLeInt [b₀, b₁, b₂, 255]).toInt < 0 := by
    intro b₀ b₁ b₂
    have h₀ := b₀.toNat_lt
    have h₁ := b₁.toNat_lt
    have h₂ := b₂.toNat_lt
    show (ofLe32 [b₀, b₁, b₂, 255]).toInt32.toBitVec.toInt < 0
    rw [BitVec.toInt_neg_iff]
    show 2 ^ 32 ≤ 2 * (ofLe32 [b₀, b₁, b₂, 255]).toNat
    simp only [ofLe32, List.getD_cons_zero, List.getD_cons_succ, UInt32.toNat_ofNat',
      show (255 : UInt8).toNat = 255 from rfl]
    omega
  match new, h with
  | [], _ => exact hneg 255 255 255
  | [b₀], _ => exact hneg b₀ 255 255
  | [b₀, b₁], _ => exact hneg b₀ b₁ 255
  | [b₀, b₁, b₂], _ => exact hneg b₀ b₁ b₂

end Words
