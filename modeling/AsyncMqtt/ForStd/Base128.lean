import AsyncMqtt.ForStd.Bytes

/-!
# Numbers in groups of seven bits

A number as bytes of seven bits each, the lowest group first, where every byte
but the last is marked by its high bit. A number has many such encodings, since
groups of zeros may stand at its end; their lengths are bounded from below.

## Key results

- `Base128.Encodes.lt`: `k` bytes hold a number below `128 ^ k`
- `Base128.Encodes.lt_length`: a number from `128 ^ k` on needs more than `k` bytes
-/

namespace Base128

/-- The bytes are an encoding of the number. -/
inductive Encodes : List UInt8 → Nat → Prop where
  | last {b : UInt8} (h : b &&& 0b10000000 = 0) : Encodes [b] (b &&& 0b01111111).toNat
  | more {b : UInt8} {bytes : List UInt8} {n : Nat} (h : b &&& 0b10000000 ≠ 0)
      (hbytes : Encodes bytes n) : Encodes (b :: bytes) ((b &&& 0b01111111).toNat + 128 * n)

/-- Seven bits are a number below 128. -/
theorem toNat_group_lt (b : UInt8) : (b &&& 0b01111111).toNat < 128 := by
  have hle : (b &&& 0b01111111).toNat ≤ 127 := by
    rw [UInt8.toNat_and]
    exact Nat.and_le_right
  omega

theorem Encodes.ne_nil {bytes : List UInt8} {n : Nat} (h : Encodes bytes n) : bytes ≠ [] := by
  cases h with
  | last h => exact List.cons_ne_nil _ _
  | more h hbytes => exact List.cons_ne_nil _ _

/-- Every byte adds seven bits. -/
theorem Encodes.lt {bytes : List UInt8} {n : Nat} (h : Encodes bytes n) :
    n < 128 ^ bytes.length := by
  induction h with
  | @last b h =>
    have hgroup := toNat_group_lt b
    rw [List.length_singleton, Nat.pow_one]
    exact hgroup
  | @more b bytes n h hbytes ih =>
    have hgroup := toNat_group_lt b
    rw [List.length_cons, Nat.pow_succ]
    omega

/-- A large number has no short encoding. -/
theorem Encodes.lt_length {bytes : List UInt8} {n k : Nat} (h : Encodes bytes n)
    (hn : 128 ^ k ≤ n) : k < bytes.length := by
  have hlt : 128 ^ k < 128 ^ bytes.length := Nat.lt_of_le_of_lt hn h.lt
  exact (Nat.pow_lt_pow_iff_right (by decide)).mp hlt

end Base128
