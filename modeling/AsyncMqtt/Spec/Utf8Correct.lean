import AsyncMqtt.ForStd.Utf8
import AsyncMqtt.Native.Utf8Validate

/-!
# Validation of UTF-8

`utf8string_check` accepts the strings of MQTT: well-formed UTF-8 without control characters and
without the code points that are no characters in any plane.

## Key results

- `Utf8Validate.turn_spec`: what one turn of the loop does, and that it reads inside the string
- `utf8StringCheck_iff`: the strings that are accepted
- `Utf8Validate.accepts_iff`: the same for the loop with its reads
-/

namespace AsyncMqtt

/-- The code points that a string of MQTT may have. -/
def PermittedCodePoint (v : Nat) : Prop :=
  ¬ v ≤ 0x1F ∧ ¬ (0x7F ≤ v ∧ v ≤ 0x9F) ∧ v % 0x10000 ≠ 0xFFFE ∧ v % 0x10000 ≠ 0xFFFF

instance (v : Nat) : Decidable (PermittedCodePoint v) := inferInstanceAs (Decidable (_ ∧ _))

/-- Well-formed UTF-8 with permitted code points only. -/
def IsMqttString (str : List UInt8) : Prop := Utf8.Encodes PermittedCodePoint str

/-! ### The classes of first bytes -/

variable {b0 : UInt8} {rest : List UInt8}

theorem utf8StringCheck_one (h1 : b0 < 0b10000000) :
    utf8StringCheck (b0 :: rest) =
      if b0 = 0x00 then false
      else if (0x01 ≤ b0 ∧ b0 ≤ 0x1f) ∨ b0 = 0x7f then false
      else utf8StringCheck rest :=
  (utf8StringCheck.eq_def _).trans (if_pos h1)

theorem utf8StringCheck_two (h1 : ¬ b0 < 0b10000000) (h2 : b0 &&& 0b11100000 = 0b11000000) :
    utf8StringCheck (b0 :: rest) =
      match rest with
      | b1 :: rest =>
        if b1 &&& 0b11000000 ≠ 0b10000000 ∨ b0 &&& 0b11111110 = 0b11000000 then false
        else if b0 = 0b11000010 ∧ 0b10000000 ≤ b1 ∧ b1 ≤ 0b10011111 then false
        else utf8StringCheck rest
      | [] => false :=
  (utf8StringCheck.eq_def _).trans ((if_neg h1).trans (if_pos h2))

theorem utf8StringCheck_three (h1 : ¬ b0 < 0b10000000) (h2 : ¬ b0 &&& 0b11100000 = 0b11000000)
    (h3 : b0 &&& 0b11110000 = 0b11100000) :
    utf8StringCheck (b0 :: rest) =
      match rest with
      | b1 :: b2 :: rest =>
        if b1 &&& 0b11000000 ≠ 0b10000000 ∨ b2 &&& 0b11000000 ≠ 0b10000000 ∨
            (b0 = 0b11100000 ∧ b1 &&& 0b11100000 = 0b10000000) ∨
            (b0 = 0b11101101 ∧ b1 &&& 0b11100000 = 0b10100000) then false
        else if b0 = 0b11101111 ∧ b1 = 0b10111111 ∧ b2 &&& 0b11111110 = 0b10111110 then false
        else utf8StringCheck rest
      | _ => false :=
  (utf8StringCheck.eq_def _).trans ((if_neg h1).trans ((if_neg h2).trans (if_pos h3)))

theorem utf8StringCheck_four (h1 : ¬ b0 < 0b10000000) (h2 : ¬ b0 &&& 0b11100000 = 0b11000000)
    (h3 : ¬ b0 &&& 0b11110000 = 0b11100000) (h4 : b0 &&& 0b11111000 = 0b11110000) :
    utf8StringCheck (b0 :: rest) =
      match rest with
      | b1 :: b2 :: b3 :: rest =>
        if b1 &&& 0b11000000 ≠ 0b10000000 ∨ b2 &&& 0b11000000 ≠ 0b10000000 ∨
            b3 &&& 0b11000000 ≠ 0b10000000 ∨
            (b0 = 0b11110000 ∧ b1 &&& 0b11110000 = 0b10000000) ∨
            (b0 = 0b11110100 ∧ 0b10001111 < b1) ∨ 0b11110100 < b0 then false
        else if b1 &&& 0b11001111 = 0b10001111 ∧ b2 = 0b10111111 ∧
            b3 &&& 0b11111110 = 0b10111110 then false
        else utf8StringCheck rest
      | _ => false :=
  (utf8StringCheck.eq_def _).trans
    ((if_neg h1).trans ((if_neg h2).trans ((if_neg h3).trans (if_pos h4))))

/-- 10xxxxxx and 11111xxx begin nothing. -/
theorem utf8StringCheck_none (h1 : ¬ b0 < 0b10000000) (h2 : ¬ b0 &&& 0b11100000 = 0b11000000)
    (h3 : ¬ b0 &&& 0b11110000 = 0b11100000) (h4 : ¬ b0 &&& 0b11111000 = 0b11110000) :
    utf8StringCheck (b0 :: rest) = false :=
  (utf8StringCheck.eq_def _).trans
    ((if_neg h1).trans ((if_neg h2).trans ((if_neg h3).trans (if_neg h4))))

/-- What the masks of the scanner select. -/
theorem mask_iff (b : UInt8) :
    (b &&& 0b11100000 = 0b11000000 ↔ 0xC0 ≤ b.toNat ∧ b.toNat < 0xE0) ∧
    (b &&& 0b11110000 = 0b11100000 ↔ 0xE0 ≤ b.toNat ∧ b.toNat < 0xF0) ∧
    (b &&& 0b11111000 = 0b11110000 ↔ 0xF0 ≤ b.toNat ∧ b.toNat < 0xF8) ∧
    (b &&& 0b11000000 = 0b10000000 ↔ 0x80 ≤ b.toNat ∧ b.toNat < 0xC0) ∧
    (b &&& 0b11111110 = 0b11000000 ↔ 0xC0 ≤ b.toNat ∧ b.toNat < 0xC2) ∧
    (b &&& 0b11100000 = 0b10000000 ↔ 0x80 ≤ b.toNat ∧ b.toNat < 0xA0) ∧
    (b &&& 0b11100000 = 0b10100000 ↔ 0xA0 ≤ b.toNat ∧ b.toNat < 0xC0) ∧
    (b &&& 0b11110000 = 0b10000000 ↔ 0x80 ≤ b.toNat ∧ b.toNat < 0x90) ∧
    (b &&& 0b11111110 = 0b10111110 ↔ 0xBE ≤ b.toNat ∧ b.toNat < 0xC0) ∧
    (b &&& 0b11001111 = 0b10001111 ↔ 0x80 ≤ b.toNat ∧ b.toNat < 0xC0 ∧ b.toNat % 0x10 = 0x0F) := by
  revert b
  decide +kernel

theorem ite_false_eq_true {c : Prop} [Decidable c] {b : Bool} :
    (if c then false else b) = true ↔ ¬ c ∧ b = true := by
  split <;> simp_all

/-- The tests of two bytes. -/
theorem two_tests {b0 b1 : UInt8} (h0 : 0xC0 ≤ b0.toNat ∧ b0.toNat < 0xE0) :
    ¬ (b1 &&& 0b11000000 ≠ 0b10000000 ∨ b0 &&& 0b11111110 = 0b11000000) ∧
      ¬ (b0 = 0b11000010 ∧ 0b10000000 ≤ b1 ∧ b1 ≤ 0b10011111) ↔
    Utf8.IsTail b1 ∧ 0x80 ≤ Utf8.two b0 b1 ∧ PermittedCodePoint (Utf8.two b0 b1) := by
  obtain ⟨-, -, -, -, hoverlong, -⟩ := mask_iff b0
  obtain ⟨-, -, -, htail, -⟩ := mask_iff b1
  simp only [ne_eq, htail, hoverlong, Utf8.IsTail, Utf8.two, PermittedCodePoint,
    UInt8.le_iff_toNat_le, ← UInt8.toNat_inj, UInt8.reduceToNat]
  omega

/-- The tests of three bytes. -/
theorem three_tests {b0 b1 b2 : UInt8} (h0 : 0xE0 ≤ b0.toNat ∧ b0.toNat < 0xF0) :
    ¬ (b1 &&& 0b11000000 ≠ 0b10000000 ∨ b2 &&& 0b11000000 ≠ 0b10000000 ∨
        (b0 = 0b11100000 ∧ b1 &&& 0b11100000 = 0b10000000) ∨
        (b0 = 0b11101101 ∧ b1 &&& 0b11100000 = 0b10100000)) ∧
      ¬ (b0 = 0b11101111 ∧ b1 = 0b10111111 ∧ b2 &&& 0b11111110 = 0b10111110) ↔
    Utf8.IsTail b1 ∧ Utf8.IsTail b2 ∧ 0x800 ≤ Utf8.three b0 b1 b2 ∧
      Utf8.IsScalar (Utf8.three b0 b1 b2) ∧ PermittedCodePoint (Utf8.three b0 b1 b2) := by
  obtain ⟨-, -, -, htail1, -, hoverlong, hsurrogate, -⟩ := mask_iff b1
  obtain ⟨-, -, -, htail2, -, -, -, -, hlast, -⟩ := mask_iff b2
  simp only [ne_eq, htail1, htail2, hoverlong, hsurrogate, hlast, Utf8.IsTail, Utf8.three,
    Utf8.IsScalar, PermittedCodePoint, ← UInt8.toNat_inj, UInt8.reduceToNat]
  omega

/-- The tests of four bytes. -/
theorem four_tests {b0 b1 b2 b3 : UInt8} (h0 : 0xF0 ≤ b0.toNat ∧ b0.toNat < 0xF8) :
    ¬ (b1 &&& 0b11000000 ≠ 0b10000000 ∨ b2 &&& 0b11000000 ≠ 0b10000000 ∨
        b3 &&& 0b11000000 ≠ 0b10000000 ∨
        (b0 = 0b11110000 ∧ b1 &&& 0b11110000 = 0b10000000) ∨
        (b0 = 0b11110100 ∧ 0b10001111 < b1) ∨ 0b11110100 < b0) ∧
      ¬ (b1 &&& 0b11001111 = 0b10001111 ∧ b2 = 0b10111111 ∧ b3 &&& 0b11111110 = 0b10111110) ↔
    Utf8.IsTail b1 ∧ Utf8.IsTail b2 ∧ Utf8.IsTail b3 ∧ 0x10000 ≤ Utf8.four b0 b1 b2 b3 ∧
      Utf8.four b0 b1 b2 b3 ≤ 0x10FFFF ∧ PermittedCodePoint (Utf8.four b0 b1 b2 b3) := by
  obtain ⟨-, -, -, htail1, -, -, -, hoverlong, -, hplane⟩ := mask_iff b1
  obtain ⟨-, -, -, htail2, -⟩ := mask_iff b2
  obtain ⟨-, -, -, htail3, -, -, -, -, hlast, -⟩ := mask_iff b3
  simp only [ne_eq, htail1, htail2, htail3, hoverlong, hplane, hlast, Utf8.IsTail, Utf8.four,
    PermittedCodePoint, UInt8.lt_iff_toNat_lt, ← UInt8.toNat_inj, UInt8.reduceToNat]
  omega

/-- The strings that are accepted. -/
theorem utf8StringCheck_iff (str : List UInt8) : utf8StringCheck str = true ↔ IsMqttString str := by
  -- a turn of the scanner goes on with a shorter string
  suffices h : ∀ n, ∀ str : List UInt8, str.length ≤ n →
      (utf8StringCheck str = true ↔ IsMqttString str) from h _ str (Nat.le_refl _)
  intro n
  induction n with
  | zero =>
    intro str hlen
    obtain rfl := List.length_eq_zero_iff.mp (Nat.le_zero.mp hlen)
    exact iff_of_true rfl Utf8.encodes_nil
  | succ n ih =>
    intro str hlen
    rcases str with _ | ⟨b0, rest⟩
    · exact iff_of_true rfl Utf8.encodes_nil
    simp only [List.length_cons] at hlen
    obtain ⟨hmask1, hmask2, hmask3, -⟩ := mask_iff b0
    have hlt0 : b0 < 0b10000000 ↔ b0.toNat < 0x80 := UInt8.lt_iff_toNat_lt
    by_cases h1 : b0 < 0b10000000
    · have hb0 := hlt0.mp h1
      rw [utf8StringCheck_one h1, ite_false_eq_true, ite_false_eq_true, ih rest (by omega),
        ← and_assoc, IsMqttString, IsMqttString, Utf8.encodes_one hb0]
      refine and_congr_left' ?_
      simp only [PermittedCodePoint, UInt8.le_iff_toNat_le, ← UInt8.toNat_inj, UInt8.reduceToNat]
      omega
    by_cases h2 : b0 &&& 0b11100000 = 0b11000000
    · rw [utf8StringCheck_two h1 h2, IsMqttString, Utf8.encodes_two (hmask1.mp h2)]
      rcases rest with _ | ⟨b1, rest⟩
      · simp
      simp only [List.length_cons] at hlen
      rw [ite_false_eq_true, ite_false_eq_true, ih rest (by omega), ← and_assoc,
        two_tests (hmask1.mp h2)]
      simp [IsMqttString, and_assoc]
    by_cases h3 : b0 &&& 0b11110000 = 0b11100000
    · rw [utf8StringCheck_three h1 h2 h3, IsMqttString, Utf8.encodes_three (hmask2.mp h3)]
      rcases rest with _ | ⟨b1, _ | ⟨b2, rest⟩⟩
      · simp
      · simp
      simp only [List.length_cons] at hlen
      rw [ite_false_eq_true, ite_false_eq_true, ih rest (by omega), ← and_assoc,
        three_tests (hmask2.mp h3)]
      simp [IsMqttString, and_assoc]
    by_cases h4 : b0 &&& 0b11111000 = 0b11110000
    · rw [utf8StringCheck_four h1 h2 h3 h4, IsMqttString, Utf8.encodes_four (hmask3.mp h4)]
      rcases rest with _ | ⟨b1, _ | ⟨b2, _ | ⟨b3, rest⟩⟩⟩
      · simp
      · simp
      · simp
      simp only [List.length_cons] at hlen
      rw [ite_false_eq_true, ite_false_eq_true, ih rest (by omega), ← and_assoc,
        four_tests (hmask3.mp h4)]
      simp [IsMqttString, and_assoc]
    · rw [utf8StringCheck_none h1 h2 h3 h4]
      rw [hlt0] at h1
      rw [hmask1] at h2
      rw [hmask2] at h3
      rw [hmask3] at h4
      exact iff_of_false nofun (Utf8.not_encodes (by omega))

/-! ### Reads -/

namespace Utf8Validate

theorem read_drop {str rest : List UInt8} {b0 : UInt8} {it : Nat} (h : str.drop it = b0 :: rest)
    (k : Nat) : read str (it + k) = (b0 :: rest)[k]? := by
  rw [← h, List.getElem?_drop, read]

/-- A turn inside the string either ends the loop, or it goes on behind a character. -/
theorem turn_spec {str : List UInt8} {it : Nat} (h : it < str.length) :
    ∃ next, turn str it = some next ∧
      (next = none → AsyncMqtt.utf8StringCheck (str.drop it) = false) ∧
      ∀ pos, next = some pos → it < pos ∧ pos ≤ str.length ∧
        AsyncMqtt.utf8StringCheck (str.drop it) = AsyncMqtt.utf8StringCheck (str.drop pos) := by
  obtain ⟨b0, rest, hdrop⟩ := List.exists_cons_of_ne_nil (l := str.drop it) (by simpa using h)
  have hread := read_drop hdrop
  have hread0 : read str it = some b0 := hread 0
  have hlen : str.length = it + (rest.length + 1) := by
    have hlen := congrArg List.length hdrop
    rw [List.length_drop, List.length_cons] at hlen
    omega
  have hnext : ∀ n, str.drop (it + n) = (b0 :: rest).drop n := by
    intro n
    rw [← hdrop, List.drop_drop]
  unfold turn
  simp only [hread0, hread, hlen, hdrop, Option.bind_eq_bind, Option.bind_some, Option.pure_def]
  -- the two ways in which a turn ends
  have hstop : AsyncMqtt.utf8StringCheck (b0 :: rest) = false →
      ∃ next, some (none : Option Nat) = some next ∧
        (next = none → AsyncMqtt.utf8StringCheck (b0 :: rest) = false) ∧
        ∀ pos, next = some pos → it < pos ∧ pos ≤ it + (rest.length + 1) ∧
          AsyncMqtt.utf8StringCheck (b0 :: rest) = AsyncMqtt.utf8StringCheck (str.drop pos) :=
    fun hcheck => ⟨none, rfl, fun _ => hcheck, nofun⟩
  have hgo : ∀ n, 0 < n → n ≤ rest.length + 1 →
      AsyncMqtt.utf8StringCheck (b0 :: rest) = AsyncMqtt.utf8StringCheck ((b0 :: rest).drop n) →
      ∃ next, some (some (it + n)) = some next ∧
        (next = none → AsyncMqtt.utf8StringCheck (b0 :: rest) = false) ∧
        ∀ pos, next = some pos → it < pos ∧ pos ≤ it + (rest.length + 1) ∧
          AsyncMqtt.utf8StringCheck (b0 :: rest) = AsyncMqtt.utf8StringCheck (str.drop pos) := by
    intro n hpos hle hcheck
    refine ⟨some (it + n), rfl, nofun, fun pos hpos => ?_⟩
    obtain rfl := Option.some.inj hpos
    rw [hnext]
    exact ⟨by omega, by omega, hcheck⟩
  by_cases h1 : b0 < 0b10000000
  · have hcheck := @utf8StringCheck_one b0 rest h1
    simp only [if_pos h1]
    split
    · next hzero => exact hstop (hcheck.trans (if_pos hzero))
    · next hzero =>
      split
      · next hctl => exact hstop (hcheck.trans ((if_neg hzero).trans (if_pos hctl)))
      · next hctl =>
        exact hgo 1 (by omega) (by omega) (hcheck.trans ((if_neg hzero).trans (if_neg hctl)))
  by_cases h2 : b0 &&& 0b11100000 = 0b11000000
  · have hcheck := @utf8StringCheck_two b0 rest h1 h2
    simp only [if_neg h1, if_pos h2]
    rcases rest with _ | ⟨b1, rest⟩
    · rw [if_pos (by simp)]
      exact hstop hcheck
    rw [if_neg (by simp)]
    simp only [List.getElem?_cons_succ, List.getElem?_cons_zero, Option.bind_some]
    split
    · next hbad => exact hstop (hcheck.trans (if_pos hbad))
    · next hbad =>
      split
      · next hctl => exact hstop (hcheck.trans ((if_neg hbad).trans (if_pos hctl)))
      · next hctl =>
        exact hgo 2 (by omega) (by simp) (hcheck.trans ((if_neg hbad).trans (if_neg hctl)))
  by_cases h3 : b0 &&& 0b11110000 = 0b11100000
  · have hcheck := @utf8StringCheck_three b0 rest h1 h2 h3
    simp only [if_neg h1, if_neg h2, if_pos h3]
    rcases rest with _ | ⟨b1, _ | ⟨b2, rest⟩⟩
    · rw [if_pos (by simp)]
      exact hstop hcheck
    · rw [if_pos (by simp)]
      exact hstop hcheck
    rw [if_neg (by simp)]
    simp only [List.getElem?_cons_succ, List.getElem?_cons_zero, Option.bind_some]
    split
    · next hbad => exact hstop (hcheck.trans (if_pos hbad))
    · next hbad =>
      split
      · next hnon => exact hstop (hcheck.trans ((if_neg hbad).trans (if_pos hnon)))
      · next hnon =>
        exact hgo 3 (by omega) (by simp) (hcheck.trans ((if_neg hbad).trans (if_neg hnon)))
  by_cases h4 : b0 &&& 0b11111000 = 0b11110000
  · have hcheck := @utf8StringCheck_four b0 rest h1 h2 h3 h4
    simp only [if_neg h1, if_neg h2, if_neg h3, if_pos h4]
    rcases rest with _ | ⟨b1, _ | ⟨b2, _ | ⟨b3, rest⟩⟩⟩
    · rw [if_pos (by simp)]
      exact hstop hcheck
    · rw [if_pos (by simp)]
      exact hstop hcheck
    · rw [if_pos (by simp)]
      exact hstop hcheck
    rw [if_neg (by simp)]
    simp only [List.getElem?_cons_succ, List.getElem?_cons_zero, Option.bind_some]
    split
    · next hbad => exact hstop (hcheck.trans (if_pos hbad))
    · next hbad =>
      split
      · next hnon => exact hstop (hcheck.trans ((if_neg hbad).trans (if_pos hnon)))
      · next hnon =>
        exact hgo 4 (by omega) (by simp) (hcheck.trans ((if_neg hbad).trans (if_neg hnon)))
  · simp only [if_neg h1, if_neg h2, if_neg h3, if_neg h4]
    exact hstop (utf8StringCheck_none h1 h2 h3 h4)

/-- The loop says what the recursion over the rest of the string says. -/
theorem loop_eq {str : List UInt8} {fuel it : Nat} (hit : it ≤ str.length)
    (hfuel : str.length - it < fuel) :
    loop str fuel it = some (AsyncMqtt.utf8StringCheck (str.drop it)) := by
  induction fuel generalizing it with
  | zero => omega
  | succ fuel ih =>
    rw [loop]
    split
    · next hend =>
      rw [hend, List.drop_length]
      rfl
    · next hend =>
      have hlt : it < str.length := by omega
      -- a turn goes on by a character, or the string is no UTF-8 from here
      obtain ⟨next, hturn, hstop, hgo⟩ := turn_spec hlt
      rw [hturn]
      cases next with
      | none => exact congrArg some (hstop rfl).symm
      | some pos =>
        obtain ⟨hlt, hle, hcheck⟩ := hgo pos rfl
        rw [hcheck]
        exact ih hle (by omega)

theorem utf8StringCheck_eq (str : List UInt8) :
    utf8StringCheck str = some (AsyncMqtt.utf8StringCheck str) :=
  loop_eq (Nat.zero_le _) (by omega)

/-- The scanner never reads outside the string, and it accepts exactly the strings of MQTT. -/
theorem accepts_iff (str : List UInt8) :
    ∃ result, utf8StringCheck str = some result ∧ (result = true ↔ IsMqttString str) :=
  ⟨_, utf8StringCheck_eq str, utf8StringCheck_iff str⟩

-- U+10FFFD is the last character; the two code points after it are none
example : utf8StringCheck [0xF4, 0x8F, 0xBF, 0xBD] = some true ∧
    utf8StringCheck [0xF4, 0x8F, 0xBF, 0xBE] = some false ∧
    utf8StringCheck [0xF4, 0x8F, 0xBF] = some false := by decide

end Utf8Validate

end AsyncMqtt
