import AsyncMqtt.Native.Wire

/-!
# Validation of UTF-8, read by read

`util/utf8validate.hpp` again, with the iterator and every access to the string spelled out.
`Wire.lean` has the result of `utf8string_check` as a recursion over the rest of the string,
in which there is no access that could go wrong; here an access outside the string is one.
-/

namespace AsyncMqtt

namespace Utf8Validate

/-- `*(it + k)`, for a position inside the string -/
def read (str : List UInt8) (pos : Nat) : Option UInt8 := str[pos]?

/-- One turn of the loop: the position at which the next one begins, or `none` if the result is
    false. There is no outcome at all if a byte outside the string is read. -/
def turn (str : List UInt8) (it : Nat) : Option (Option Nat) := do
  let b0 ← read str it
  if b0 < 0b10000000 then
    if b0 = 0x00 then return none
    if (0x01 ≤ b0 ∧ b0 ≤ 0x1f) ∨ b0 = 0x7f then return none
    return some (it + 1)
  else if b0 &&& 0b11100000 = 0b11000000 then
    if str.length ≤ it + 1 then return none
    let b1 ← read str (it + 1)
    if b1 &&& 0b11000000 ≠ 0b10000000 ∨ b0 &&& 0b11111110 = 0b11000000 then return none
    if b0 = 0b11000010 ∧ 0b10000000 ≤ b1 ∧ b1 ≤ 0b10011111 then return none
    return some (it + 2)
  else if b0 &&& 0b11110000 = 0b11100000 then
    if str.length ≤ it + 2 then return none
    let b1 ← read str (it + 1)
    let b2 ← read str (it + 2)
    if b1 &&& 0b11000000 ≠ 0b10000000 ∨ b2 &&& 0b11000000 ≠ 0b10000000 ∨
        (b0 = 0b11100000 ∧ b1 &&& 0b11100000 = 0b10000000) ∨
        (b0 = 0b11101101 ∧ b1 &&& 0b11100000 = 0b10100000) then return none
    if b0 = 0b11101111 ∧ b1 = 0b10111111 ∧ b2 &&& 0b11111110 = 0b10111110 then return none
    return some (it + 3)
  else if b0 &&& 0b11111000 = 0b11110000 then
    if str.length ≤ it + 3 then return none
    let b1 ← read str (it + 1)
    let b2 ← read str (it + 2)
    let b3 ← read str (it + 3)
    if b1 &&& 0b11000000 ≠ 0b10000000 ∨ b2 &&& 0b11000000 ≠ 0b10000000 ∨
        b3 &&& 0b11000000 ≠ 0b10000000 ∨
        (b0 = 0b11110000 ∧ b1 &&& 0b11110000 = 0b10000000) ∨
        (b0 = 0b11110100 ∧ 0b10001111 < b1) ∨ 0b11110100 < b0 then return none
    if b1 &&& 0b11001111 = 0b10001111 ∧ b2 = 0b10111111 ∧
        b3 &&& 0b11111110 = 0b10111110 then return none
    return some (it + 4)
  else return none

/-- `while (it != end)`, for at most that many turns. -/
def loop (str : List UInt8) : Nat → Nat → Option Bool
  | 0, _ => none
  | fuel + 1, it =>
    if it = str.length then some true
    else
      match turn str it with
      | none => none
      | some none => some false
      | some (some it) => loop str fuel it

/-- `utf8string_check`. Every turn goes on by a byte at least. -/
def utf8StringCheck (str : List UInt8) : Option Bool := loop str (str.length + 1) 0

end Utf8Validate

end AsyncMqtt
