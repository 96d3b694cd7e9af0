import Mathlib.Data.List.Basic
import Mathlib.Data.Nat.Basic
import Mathlib.Tactic.Ring

/-!
# Bytes and big-endian numbers

Generic facts about lists of bytes that nothing here ties to a protocol: a
decision procedure for statements about every byte, and big-endian stores and
loads of natural numbers with their round trips.

## Key results

- `BigEndian.load_store`: loading what was stored gives the number back
- `BigEndian.store_load`: storing what was loaded gives the bytes back
- `BigEndian.load_lt`: `n` bytes hold a number below `256 ^ n`
-/

/-- Statements about every byte are decided by trying all 256 of them. -/
instance UInt8.decidableForall (P : UInt8 → Prop) [DecidablePred P] :
    Decidable (∀ b, P b) :=
  decidable_of_iff (∀ n : Fin 256, P (UInt8.ofNat n.val))
    ⟨fun h b => by
      have := h ⟨b.toNat, b.toNat_lt⟩
      rwa [UInt8.ofNat_toNat] at this, fun h n => h _⟩

namespace BigEndian

/-- The `n` low-order bytes of `v`, most significant byte first. -/
def store : Nat → Nat → List UInt8
  | 0, _ => []
  | n + 1, v => UInt8.ofNat (v / 256 ^ n) :: store n v

/-- The number whose big-endian digits are the given bytes. -/
def load (bs : List UInt8) : Nat :=
  bs.foldl (fun acc b => acc * 256 + b.toNat) 0

@[simp] theorem length_store (n v : Nat) : (store n v).length = n := by
  induction n with
  | zero => rfl
  | succ n ih => simp [store, ih]

private theorem foldl_eq (bs : List UInt8) (acc : Nat) :
    bs.foldl (fun acc b => acc * 256 + b.toNat) acc = acc * 256 ^ bs.length + load bs := by
  induction bs generalizing acc with
  | nil => simp [load]
  | cons b bs ih =>
    simp only [load, List.foldl_cons, List.length_cons, Nat.zero_mul, Nat.zero_add]
    rw [ih, ih b.toNat]
    ring

@[simp] theorem load_nil : load [] = 0 := rfl

/-- The first byte carries the weight of all the bytes after it. -/
theorem load_cons (b : UInt8) (bs : List UInt8) :
    load (b :: bs) = b.toNat * 256 ^ bs.length + load bs := by
  have h := foldl_eq bs b.toNat
  simpa only [load, List.foldl_cons, Nat.zero_mul, Nat.zero_add] using h

/-- `n` bytes hold a number below `256 ^ n`. -/
theorem load_lt (bs : List UInt8) : load bs < 256 ^ bs.length := by
  induction bs with
  | nil => simp
  | cons b bs ih =>
    rw [load_cons, List.length_cons, Nat.pow_succ]
    have hb := b.toNat_lt
    have hmul : b.toNat * 256 ^ bs.length ≤ 255 * 256 ^ bs.length :=
      Nat.mul_le_mul_right _ (by omega)
    omega

/-- Only the value modulo `256 ^ n` is stored. -/
theorem load_store_mod (n v : Nat) : load (store n v) = v % 256 ^ n := by
  induction n with
  | zero => simp [store, Nat.mod_one]
  | succ n ih =>
    have hbyte : (UInt8.ofNat (v / 256 ^ n)).toNat = v / 256 ^ n % 256 := by
      rw [UInt8.toNat_ofNat']
    rw [store, load_cons, length_store, ih, hbyte, Nat.pow_succ, Nat.mod_mul]
    rw [Nat.add_comm, Nat.mul_comm]

/-- Loading what was stored gives the number back. -/
theorem load_store {n v : Nat} (h : v < 256 ^ n) : load (store n v) = v := by
  rw [load_store_mod, Nat.mod_eq_of_lt h]

/-- Storing what was loaded gives the bytes back. -/
theorem store_load (bs : List UInt8) : store bs.length (load bs) = bs := by
  induction bs with
  | nil => rfl
  | cons b bs ih =>
    have hlt := load_lt bs
    have hpos : 0 < 256 ^ bs.length := Nat.pow_pos (by decide)
    rw [List.length_cons, store, load_cons]
    have hdiv : (b.toNat * 256 ^ bs.length + load bs) / 256 ^ bs.length = b.toNat := by
      rw [Nat.mul_comm, Nat.mul_add_div hpos, Nat.div_eq_of_lt hlt, Nat.add_zero]
    -- the lower bytes do not see the part that the first byte carries
    have hlow : ∀ n, n ≤ bs.length → ∀ a, store n (a * 256 ^ bs.length + load bs) =
        store n (load bs) := by
      intro n hn a
      induction n with
      | zero => rfl
      | succ n ihn =>
        rw [store, store, ihn (by omega)]
        congr 1
        obtain ⟨k, hk⟩ : ∃ k, bs.length = n + 1 + k := ⟨bs.length - (n + 1), by omega⟩
        have hpn : 0 < 256 ^ n := Nat.pow_pos (by decide)
        have hsplit : a * 256 ^ bs.length = 256 ^ n * (256 * (a * 256 ^ k)) := by
          rw [hk]; ring
        rw [hsplit, Nat.mul_add_div hpn]
        apply UInt8.toNat_inj.mp
        rw [UInt8.toNat_ofNat', UInt8.toNat_ofNat']
        simp only [Nat.reducePow]
        omega
    rw [hdiv, hlow _ (Nat.le_refl _), ih, UInt8.ofNat_toNat]

end BigEndian
