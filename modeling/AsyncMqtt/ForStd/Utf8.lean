import Mathlib.Data.Char
import Mathlib.Data.List.Basic

/-!
# UTF-8 by its first bytes

A string of bytes is well-formed UTF-8 if it is the encoding of a list of characters; a
`Char` is a Unicode scalar value, and `String.utf8EncodeChar` writes it with as few bytes as
possible. A scanner decides from the first byte how many bytes belong to a character; the
lemmas here say for each class of first bytes what has to follow.

## Key results

- `Utf8.encodes_one`, `Utf8.encodes_two`, `Utf8.encodes_three`, `Utf8.encodes_four`: what
  follows a first byte of each class
- `Utf8.not_encodes`: the bytes that begin no character
-/

namespace Utf8

/-- The string is the encoding of characters whose code points all satisfy `P`. -/
def Encodes (P : Nat → Prop) (str : List UInt8) : Prop :=
  ∃ cs : List Char, (∀ c ∈ cs, P c.toNat) ∧ cs.flatMap String.utf8EncodeChar = str

/-- The code points that are no surrogates, up to the largest one. -/
def IsScalar (v : Nat) : Prop := v < 0xD800 ∨ 0xDFFF < v ∧ v ≤ 0x10FFFF

/-- A byte that continues a character. -/
def IsTail (b : UInt8) : Prop := 0x80 ≤ b.toNat ∧ b.toNat < 0xC0

/-- The code point of two bytes. -/
def two (b0 b1 : UInt8) : Nat := b0.toNat % 0x20 * 0x40 + b1.toNat % 0x40

/-- The code point of three bytes. -/
def three (b0 b1 b2 : UInt8) : Nat :=
  b0.toNat % 0x10 * 0x1000 + b1.toNat % 0x40 * 0x40 + b2.toNat % 0x40

/-- The code point of four bytes. -/
def four (b0 b1 b2 b3 : UInt8) : Nat :=
  b0.toNat % 0x08 * 0x40000 + b1.toNat % 0x40 * 0x1000 + b2.toNat % 0x40 * 0x40 + b3.toNat % 0x40

/-! ### Characters -/

theorem isScalar_toNat (c : Char) : IsScalar c.toNat := by
  have hvalid : c.toNat.isValidChar := c.valid
  simp only [Nat.isValidChar] at hvalid
  simp only [IsScalar]
  omega

theorem exists_char {v : Nat} (h : IsScalar v) : ∃ c : Char, c.toNat = v := by
  have hvalid : v.isValidChar := by
    simp only [Nat.isValidChar]
    simp only [IsScalar] at h
    omega
  refine ⟨Char.ofNat v, ?_⟩
  rw [Char.ofNat, dif_pos hvalid]
  rfl

theorem toNat_ofNat_of_lt {n : Nat} (h : n < 256) : (UInt8.ofNat n).toNat = n := by
  rw [UInt8.toNat_ofNat']
  exact Nat.mod_eq_of_lt h

/-- The encoding by the size of the code point. -/
theorem utf8EncodeChar_cases (c : Char) :
    (c.toNat < 0x80 ∧ String.utf8EncodeChar c = [.ofNat c.toNat]) ∨
    (0x80 ≤ c.toNat ∧ c.toNat < 0x800 ∧ String.utf8EncodeChar c =
      [.ofNat (c.toNat / 0x40 % 0x20 + 0xC0), .ofNat (c.toNat % 0x40 + 0x80)]) ∨
    (0x800 ≤ c.toNat ∧ c.toNat < 0x10000 ∧ String.utf8EncodeChar c =
      [.ofNat (c.toNat / 0x1000 % 0x10 + 0xE0), .ofNat (c.toNat / 0x40 % 0x40 + 0x80),
        .ofNat (c.toNat % 0x40 + 0x80)]) ∨
    (0x10000 ≤ c.toNat ∧ String.utf8EncodeChar c =
      [.ofNat (c.toNat / 0x40000 % 0x08 + 0xF0), .ofNat (c.toNat / 0x1000 % 0x40 + 0x80),
        .ofNat (c.toNat / 0x40 % 0x40 + 0x80), .ofNat (c.toNat % 0x40 + 0x80)]) := by
  have hdef : c.val.toNat = c.toNat := rfl
  unfold String.utf8EncodeChar
  simp only [hdef]
  split
  · next h => exact .inl ⟨by omega, rfl⟩
  · split
    · next h => exact .inr (.inl ⟨by omega, by omega, rfl⟩)
    · split
      · next h => exact .inr (.inr (.inl ⟨by omega, by omega, rfl⟩))
      · next h => exact .inr (.inr (.inr ⟨by omega, rfl⟩))

/-! ### First bytes -/

variable {P : Nat → Prop} {b0 : UInt8} {rest : List UInt8}

theorem encodes_nil : Encodes P [] := ⟨[], nofun, rfl⟩

theorem Encodes.append {c : Char} (hc : P c.toNat) (h : Encodes P rest) :
    Encodes P (String.utf8EncodeChar c ++ rest) := by
  obtain ⟨cs, hcs, rfl⟩ := h
  exact ⟨c :: cs, List.forall_mem_cons.mpr ⟨hc, hcs⟩, List.flatMap_cons⟩

/-- A string that is not empty begins with the bytes of a character. -/
theorem encodes_cons (h : Encodes P (b0 :: rest)) :
    ∃ c tail, P c.toNat ∧ Encodes P tail ∧ String.utf8EncodeChar c ++ tail = b0 :: rest := by
  obtain ⟨cs, hcs, heq⟩ := h
  cases cs with
  | nil => exact nomatch heq
  | cons c cs =>
    obtain ⟨hc, hcs⟩ := List.forall_mem_cons.mp hcs
    exact ⟨c, _, hc, ⟨cs, hcs, rfl⟩, heq⟩

/-- The first byte of a character tells the size of its code point. -/
theorem first_byte {c : Char} {tail : List UInt8}
    (h : String.utf8EncodeChar c ++ tail = b0 :: rest) :
    (c.toNat < 0x80 ↔ b0.toNat < 0x80) ∧
    (0x80 ≤ c.toNat ∧ c.toNat < 0x800 ↔ 0xC0 ≤ b0.toNat ∧ b0.toNat < 0xE0) ∧
    (0x800 ≤ c.toNat ∧ c.toNat < 0x10000 ↔ 0xE0 ≤ b0.toNat ∧ b0.toNat < 0xF0) ∧
    (0x10000 ≤ c.toNat ↔ 0xF0 ≤ b0.toNat ∧ b0.toNat < 0xF8) ∧
    (b0.toNat < 0x80 ∨ 0xC0 ≤ b0.toNat) := by
  rcases utf8EncodeChar_cases c with ⟨hc, heq⟩ | ⟨hlow, hc, heq⟩ | ⟨hlow, hc, heq⟩ | ⟨hc, heq⟩
  all_goals
    rw [heq] at h
    have hb0 := congrArg UInt8.toNat (List.cons.inj h).1
    rw [toNat_ofNat_of_lt (by omega)] at hb0
    omega

/-- One byte. -/
theorem encodes_one (h0 : b0.toNat < 0x80) :
    Encodes P (b0 :: rest) ↔ P b0.toNat ∧ Encodes P rest := by
  constructor
  · intro h
    obtain ⟨c, tail, hc, htail, heq⟩ := encodes_cons h
    have hfirst := first_byte heq
    rcases utf8EncodeChar_cases c with ⟨hlt, hone⟩ | h | h | h
    · rw [hone] at heq
      obtain ⟨hb0, rfl⟩ := List.cons.inj heq
      have hval := congrArg UInt8.toNat hb0
      rw [toNat_ofNat_of_lt (by omega)] at hval
      exact ⟨hval ▸ hc, htail⟩
    all_goals omega
  · rintro ⟨hP, htail⟩
    obtain ⟨c, hc⟩ := exists_char (v := b0.toNat) (.inl (by omega))
    have happend := Encodes.append (c := c) (hc ▸ hP) htail
    rcases utf8EncodeChar_cases c with ⟨-, hone⟩ | h | h | h
    · rw [hone, hc, UInt8.ofNat_toNat] at happend
      exact happend
    all_goals omega

/-- Two bytes. -/
theorem encodes_two (h0 : 0xC0 ≤ b0.toNat ∧ b0.toNat < 0xE0) :
    Encodes P (b0 :: rest) ↔ ∃ b1 tail, rest = b1 :: tail ∧ IsTail b1 ∧
      0x80 ≤ two b0 b1 ∧ P (two b0 b1) ∧ Encodes P tail := by
  constructor
  -- the first byte tells the number of bytes, and the others are the bits of the character
  · intro h
    obtain ⟨c, tail, hc, htail, heq⟩ := encodes_cons h
    have hfirst := first_byte heq
    rcases utf8EncodeChar_cases c with h | ⟨hlow, hhigh, htwo⟩ | h | h
    rotate_left
    · rw [htwo] at heq
      obtain ⟨hb0, hrest⟩ := List.cons.inj heq
      have hval0 := congrArg UInt8.toNat hb0
      rw [toNat_ofNat_of_lt (by omega)] at hval0
      have hval1 : (UInt8.ofNat (c.toNat % 0x40 + 0x80)).toNat = c.toNat % 0x40 + 0x80 :=
        toNat_ofNat_of_lt (by omega)
      have hcode : two b0 (.ofNat (c.toNat % 0x40 + 0x80)) = c.toNat := by
        simp only [two, hval1]
        omega
      refine ⟨_, tail, hrest.symm, ?_, ?_, ?_, htail⟩
      · simp only [IsTail, hval1]
        omega
      · omega
      · rw [hcode]
        exact hc
    all_goals omega
  -- a value that is not too small is encoded by these bytes
  · rintro ⟨b1, tail, rfl, h1, hlow, hP, htail⟩
    simp only [IsTail] at h1
    have hcode : two b0 b1 = b0.toNat % 0x20 * 0x40 + b1.toNat % 0x40 := rfl
    obtain ⟨c, hc⟩ := exists_char (v := two b0 b1) (.inl (by omega))
    have happend := Encodes.append (c := c) (hc ▸ hP) htail
    rcases utf8EncodeChar_cases c with h | ⟨-, -, htwo⟩ | h | h
    rotate_left
    · have hb0 : c.toNat / 0x40 % 0x20 + 0xC0 = b0.toNat := by omega
      have hb1 : c.toNat % 0x40 + 0x80 = b1.toNat := by omega
      rw [htwo, hb0, hb1, UInt8.ofNat_toNat, UInt8.ofNat_toNat] at happend
      exact happend
    all_goals omega

/-- Three bytes. -/
theorem encodes_three (h0 : 0xE0 ≤ b0.toNat ∧ b0.toNat < 0xF0) :
    Encodes P (b0 :: rest) ↔ ∃ b1 b2 tail, rest = b1 :: b2 :: tail ∧ IsTail b1 ∧ IsTail b2 ∧
      0x800 ≤ three b0 b1 b2 ∧ IsScalar (three b0 b1 b2) ∧ P (three b0 b1 b2) ∧
      Encodes P tail := by
  constructor
  -- the first byte has the four high bits, and two bytes follow
  · intro h
    obtain ⟨c, tail, hc, htail, heq⟩ := encodes_cons h
    have hfirst := first_byte heq
    rcases utf8EncodeChar_cases c with h | h | ⟨hlow, hhigh, hthree⟩ | h
    rotate_left 2
    · rw [hthree] at heq
      obtain ⟨hb0, hrest⟩ := List.cons.inj heq
      have hval0 := congrArg UInt8.toNat hb0
      rw [toNat_ofNat_of_lt (by omega)] at hval0
      have hval1 : (UInt8.ofNat (c.toNat / 0x40 % 0x40 + 0x80)).toNat =
          c.toNat / 0x40 % 0x40 + 0x80 := toNat_ofNat_of_lt (by omega)
      have hval2 : (UInt8.ofNat (c.toNat % 0x40 + 0x80)).toNat = c.toNat % 0x40 + 0x80 :=
        toNat_ofNat_of_lt (by omega)
      have hcode : three b0 (.ofNat (c.toNat / 0x40 % 0x40 + 0x80))
          (.ofNat (c.toNat % 0x40 + 0x80)) = c.toNat := by
        simp only [three, hval1, hval2]
        omega
      refine ⟨_, _, tail, hrest.symm, ?_, ?_, ?_, ?_, ?_, htail⟩
      · simp only [IsTail, hval1]
        omega
      · simp only [IsTail, hval2]
        omega
      · omega
      · rw [hcode]
        exact isScalar_toNat c
      · rw [hcode]
        exact hc
    all_goals omega
  -- a value that is not too small and no surrogate is encoded by these bytes
  · rintro ⟨b1, b2, tail, rfl, h1, h2, hlow, hscalar, hP, htail⟩
    simp only [IsTail] at h1 h2
    have hcode : three b0 b1 b2 =
      b0.toNat % 0x10 * 0x1000 + b1.toNat % 0x40 * 0x40 + b2.toNat % 0x40 := rfl
    obtain ⟨c, hc⟩ := exists_char hscalar
    have happend := Encodes.append (c := c) (hc ▸ hP) htail
    rcases utf8EncodeChar_cases c with h | h | ⟨-, -, hthree⟩ | h
    rotate_left 2
    · have hb0 : c.toNat / 0x1000 % 0x10 + 0xE0 = b0.toNat := by omega
      have hb1 : c.toNat / 0x40 % 0x40 + 0x80 = b1.toNat := by omega
      have hb2 : c.toNat % 0x40 + 0x80 = b2.toNat := by omega
      rw [hthree, hb0, hb1, hb2, UInt8.ofNat_toNat, UInt8.ofNat_toNat, UInt8.ofNat_toNat] at happend
      exact happend
    all_goals omega

/-- Four bytes. -/
theorem encodes_four (h0 : 0xF0 ≤ b0.toNat ∧ b0.toNat < 0xF8) :
    Encodes P (b0 :: rest) ↔ ∃ b1 b2 b3 tail, rest = b1 :: b2 :: b3 :: tail ∧
      IsTail b1 ∧ IsTail b2 ∧ IsTail b3 ∧
      0x10000 ≤ four b0 b1 b2 b3 ∧ four b0 b1 b2 b3 ≤ 0x10FFFF ∧ P (four b0 b1 b2 b3) ∧
      Encodes P tail := by
  constructor
  · intro h
    obtain ⟨c, tail, hc, htail, heq⟩ := encodes_cons h
    have hfirst := first_byte heq
    have hscalar := isScalar_toNat c
    simp only [IsScalar] at hscalar
    -- the first byte says how many bytes the character takes
    rcases utf8EncodeChar_cases c with h | h | h | ⟨hlow, hfour⟩
    rotate_left 3
    · rw [hfour] at heq
      obtain ⟨hb0, hrest⟩ := List.cons.inj heq
      have hval0 := congrArg UInt8.toNat hb0
      rw [toNat_ofNat_of_lt (by omega)] at hval0
      have hval1 : (UInt8.ofNat (c.toNat / 0x1000 % 0x40 + 0x80)).toNat =
          c.toNat / 0x1000 % 0x40 + 0x80 := toNat_ofNat_of_lt (by omega)
      have hval2 : (UInt8.ofNat (c.toNat / 0x40 % 0x40 + 0x80)).toNat =
          c.toNat / 0x40 % 0x40 + 0x80 := toNat_ofNat_of_lt (by omega)
      have hval3 : (UInt8.ofNat (c.toNat % 0x40 + 0x80)).toNat = c.toNat % 0x40 + 0x80 :=
        toNat_ofNat_of_lt (by omega)
      have hcode : four b0 (.ofNat (c.toNat / 0x1000 % 0x40 + 0x80))
          (.ofNat (c.toNat / 0x40 % 0x40 + 0x80)) (.ofNat (c.toNat % 0x40 + 0x80)) = c.toNat := by
        simp only [four, hval1, hval2, hval3]
        omega
      refine ⟨_, _, _, tail, hrest.symm, ?_, ?_, ?_, ?_, ?_, ?_, htail⟩
      · simp only [IsTail, hval1]
        omega
      · simp only [IsTail, hval2]
        omega
      · simp only [IsTail, hval3]
        omega
      · omega
      · omega
      · rw [hcode]
        exact hc
    all_goals omega
  · rintro ⟨b1, b2, b3, tail, rfl, h1, h2, h3, hlow, hhigh, hP, htail⟩
    simp only [IsTail] at h1 h2 h3
    have hcode : four b0 b1 b2 b3 = b0.toNat % 0x08 * 0x40000 + b1.toNat % 0x40 * 0x1000 +
      b2.toNat % 0x40 * 0x40 + b3.toNat % 0x40 := rfl
    -- the code point is a scalar value, so that there is a character for it
    obtain ⟨c, hc⟩ := exists_char (v := four b0 b1 b2 b3) (.inr (by omega))
    have happend := Encodes.append (c := c) (hc ▸ hP) htail
    rcases utf8EncodeChar_cases c with h | h | h | ⟨-, hfour⟩
    rotate_left 3
    · have hb0 : c.toNat / 0x40000 % 0x08 + 0xF0 = b0.toNat := by omega
      have hb1 : c.toNat / 0x1000 % 0x40 + 0x80 = b1.toNat := by omega
      have hb2 : c.toNat / 0x40 % 0x40 + 0x80 = b2.toNat := by omega
      have hb3 : c.toNat % 0x40 + 0x80 = b3.toNat := by omega
      rw [hfour, hb0, hb1, hb2, hb3, UInt8.ofNat_toNat, UInt8.ofNat_toNat, UInt8.ofNat_toNat,
        UInt8.ofNat_toNat] at happend
      exact happend
    all_goals omega

/-- The bytes that begin no character. -/
theorem not_encodes (h0 : 0x80 ≤ b0.toNat ∧ b0.toNat < 0xC0 ∨ 0xF8 ≤ b0.toNat) :
    ¬ Encodes P (b0 :: rest) := by
  intro h
  obtain ⟨c, tail, -, -, heq⟩ := encodes_cons h
  have hfirst := first_byte heq
  omega

end Utf8
