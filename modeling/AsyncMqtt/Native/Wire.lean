import AsyncMqtt.ForStd.Bytes
import AsyncMqtt.Native.Types

/-!
# Wire primitives

`variable_bytes.hpp`, `endian_convert.hpp`, `copy_to_static_vector.hpp` and
`utf8validate.hpp`: the helpers that every packet encoder and decoder is built
from. A decoder is a `ByteReader` whose buffer is the source's `buf`.
-/

namespace AsyncMqtt

/-- A packet decoder: `packet(buffer buf, error_code& ec)`. -/
abbrev Decoder := ByteReader ErrorCode

open ByteReader

/-! ### variable_bytes.hpp -/

/-- The loop of `val_to_variable_bytes`. It runs at most four times, because
    the value is below `128 ^ 4`. -/
def valToVariableBytes.go : Nat → Nat → List UInt8
  | 0, _ => []
  | fuel + 1, val =>
    if 127 < val then
      (UInt8.ofNat val &&& 0b01111111 ||| 0b10000000) :: valToVariableBytes.go fuel (val >>> 7)
    else [UInt8.ofNat val &&& 0b01111111]

/-- `val_to_variable_bytes` -/
def valToVariableBytes (val : Nat) : List UInt8 :=
  if 0xfffffff < val then [] else valToVariableBytes.go 4 val

/-- The loop of `variable_bytes_to_val`: the value and what follows it. -/
def variableBytesToVal.go (val mul : Nat) : List UInt8 → Option (Nat × List UInt8)
  | [] => none
  | b :: rest =>
    if mul = 128 * 128 * 128 * 128 then none
    else
      let val := val + (b &&& 0b01111111).toNat * mul
      if b &&& 0b10000000 = 0 then some (val, rest)
      else variableBytesToVal.go val (mul * 128) rest

/-- `variable_bytes_to_val(it, e)`: the value and the bytes from the advanced `it` on. -/
def variableBytesToVal (bs : List UInt8) : Option (Nat × List UInt8) :=
  variableBytesToVal.go 0 1 bs

/-! ### endian_convert.hpp -/

/-- `endian_store<T>` and `endian_static_vector<T>` with `sizeof(T) = n` -/
def endianStore (n val : Nat) : List UInt8 := BigEndian.store n val

/-- `endian_load<T>(buf)` with `sizeof(T) = n`, from a vector that holds that many bytes -/
def endianLoad (n : Nat) (bs : List UInt8) : Nat := BigEndian.load (bs.take n)

/-- `endian_load<T>(buf.data())` on the buffer of a decoder -/
def endianLoadFront (n : Nat) : Decoder Nat := do
  let bs ← remaining
  if n ≤ bs.length then pure (endianLoad n bs)
  else
    -- reads past the end
    removePrefix n
    pure 0

/-- `boost::numeric_cast<std::uint16_t>` -/
def numericCast16 (n : Nat) : Except Exception Nat :=
  if n < 2 ^ 16 then .ok n else .error .badNumericCast

/-- `boost::numeric_cast<std::uint32_t>` -/
def numericCast32 (n : Nat) : Except Exception Nat :=
  if n < 2 ^ 32 then .ok n else .error .badNumericCast

/-! ### copy_to_static_vector.hpp -/

/-- `copy_advance` and `insert_advance` for a static vector of capacity `n` -/
def insertAdvance (n : Nat) : Decoder (Option (List UInt8)) := do
  let buf ← remaining
  if buf.length < n then pure none
  else
    let bs ← substr 0 n
    removePrefix n
    pure (some bs)

/-- `insert_advance_variable_length`: the value and its bytes -/
def insertAdvanceVariableLength : Decoder (Option (Nat × List UInt8)) := do
  let buf ← remaining
  if buf.isEmpty then pure none
  else
    match variableBytesToVal buf with
    | none => pure none
    | some (val, rest) =>
      let n := buf.length - rest.length
      let bs ← substr 0 n
      removePrefix n
      pure (some (val, bs))

/-! ### utf8validate.hpp -/

/-- `utf8string_check` -/
def utf8StringCheck : List UInt8 → Bool
  | [] => true
  | b0 :: rest =>
    if b0 < 0b10000000 then
      if b0 = 0x00 then false
      else if (0x01 ≤ b0 ∧ b0 ≤ 0x1f) ∨ b0 = 0x7f then false
      else utf8StringCheck rest
    else if b0 &&& 0b11100000 = 0b11000000 then
      match rest with
      | b1 :: rest =>
        if b1 &&& 0b11000000 ≠ 0b10000000 ∨ b0 &&& 0b11111110 = 0b11000000 then false
        else if b0 = 0b11000010 ∧ 0b10000000 ≤ b1 ∧ b1 ≤ 0b10011111 then false
        else utf8StringCheck rest
      | [] => false
    else if b0 &&& 0b11110000 = 0b11100000 then
      match rest with
      | b1 :: b2 :: rest =>
        if b1 &&& 0b11000000 ≠ 0b10000000 ∨ b2 &&& 0b11000000 ≠ 0b10000000 ∨
            (b0 = 0b11100000 ∧ b1 &&& 0b11100000 = 0b10000000) ∨
            (b0 = 0b11101101 ∧ b1 &&& 0b11100000 = 0b10100000) then false
        else if b0 = 0b11101111 ∧ b1 = 0b10111111 ∧ b2 &&& 0b11111110 = 0b10111110 then false
        else utf8StringCheck rest
      | _ => false
    else if b0 &&& 0b11111000 = 0b11110000 then
      match rest with
      | b1 :: b2 :: b3 :: rest =>
        if b1 &&& 0b11000000 ≠ 0b10000000 ∨ b2 &&& 0b11000000 ≠ 0b10000000 ∨
            b3 &&& 0b11000000 ≠ 0b10000000 ∨
            (b0 = 0b11110000 ∧ b1 &&& 0b11110000 = 0b10000000) ∨
            (b0 = 0b11110100 ∧ 0b10001111 < b1) ∨ 0b11110100 < b0 then false
        else if b1 &&& 0b11001111 = 0b10001111 ∧ b2 = 0b10111111 ∧
            b3 &&& 0b11111110 = 0b10111110 then false
        else utf8StringCheck rest
      | _ => false
    else false

/-! ### Steps that the packet decoders share

Every decoder of the source spells these checks out; they differ in the error
code only. -/

/-- `if (cond) { ec = ...; return; }` -/
def failIf (cond : Prop) [Decidable cond] (ec : ErrorCode) : Decoder Unit :=
  if cond then fail ec else pure ()

/-- `if (buf.empty()) { ec = ...; return; }`, then take the first byte. -/
def readByte (ec : ErrorCode) : Decoder UInt8 := do
  let buf ← remaining
  failIf (buf = []) ec
  let b ← front
  removePrefix 1
  pure b

/-- Read the fixed header byte and check it with `get_control_packet_type_with_check`. -/
def readFixedHeaderWithCheck (cpt : ControlPacketType) (ec : ErrorCode) : Decoder UInt8 := do
  let b ← readByte ec
  failIf (getControlPacketTypeWithCheck b ≠ some cpt) ec
  pure b

/-- Read the remaining length with `insert_advance_variable_length`. -/
def readRemainingLength (ec : ErrorCode) : Decoder (Nat × List UInt8) := do
  match ← insertAdvanceVariableLength with
  | some vl => pure vl
  | none => fail ec

/-- `if (remaining_length_ != buf.size()) { ec = ...; return; }` -/
def checkRemainingLength (remainingLength : Nat) (ec : ErrorCode) : Decoder Unit := do
  let buf ← remaining
  failIf (remainingLength ≠ buf.length) ec

/-- `if (!insert_advance(buf, sv)) { ec = ...; return; }` -/
def readBytes (n : Nat) (ec : ErrorCode) : Decoder (List UInt8) := do
  match ← insertAdvance n with
  | some bs => pure bs
  | none => fail ec

/-- A two-byte length and that many bytes, which `check` must accept. -/
def readLengthPrefixed (check : List UInt8 → Bool) (ec : ErrorCode) :
    Decoder (List UInt8 × List UInt8) := do
  let lengthBuf ← readBytes 2 ec
  let length := endianLoad 2 lengthBuf
  let buf ← remaining
  failIf (buf.length < length) ec
  let bs ← substr 0 length
  failIf (check bs = false) ec
  removePrefix length
  pure (lengthBuf, bs)

/-! ### Steps that the packet constructors share -/

/-- `if (cond) throw system_error{...}` -/
def throwIf (cond : Prop) [Decidable cond] (ec : ErrorCode) : Except Exception Unit :=
  if cond then .error (.systemError ec) else .ok ()

/-- `for (auto const& e : entries_) { ... }` with a body that may throw -/
def forEach {α : Type} (body : α → Except Exception Unit) : List α → Except Exception Unit
  | [] => .ok ()
  | a :: as => do
    body a
    forEach body as

end AsyncMqtt
