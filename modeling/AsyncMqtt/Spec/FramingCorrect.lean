import AsyncMqtt.ForStd.Chunked
import AsyncMqtt.Native.RecvPacketBuilder
import Mathlib.Data.List.Basic

/-!
# Framing does not depend on chunking

`recv_packet_builder` against a reference that cuts a complete byte sequence
into frames. The builder is first compared with `RecvPacketBuilder.push`, which
takes one byte at a time; what then has to be shown about chunks is in
`ForStd.Chunked`.

## Key results

- `RecvPacketBuilder.recv_eq_push`: a call of `recv` is a number of pushed bytes
- `Framing.feed_eq_frames`: the pushed bytes give the frames of the reference
-/

namespace AsyncMqtt

open Chunked

/-! ### The reference -/

namespace Framing

/-- What stands at the place of the remaining length. -/
inductive LengthField where
  /-- there are not enough bytes -/
  | incomplete
  /-- the fourth byte has its continuation bit set -/
  | tooLarge (rest : List UInt8)
  /-- the length field and what follows it -/
  | field (bytes rest : List UInt8)

/-- The length field at the start of `bytes`, after `n` bytes of it were read. -/
def lengthField (n : Nat) : List UInt8 → LengthField
  | [] => .incomplete
  | b :: rest =>
    if b &&& 0b10000000 = 0 then .field [b] rest
    else if n = 3 then .tooLarge rest
    else
      match lengthField (n + 1) rest with
      | .field bytes rest => .field (b :: bytes) rest
      | other => other

/-- The value of a variable byte integer. -/
def lengthValue : List UInt8 → Nat
  | [] => 0
  | b :: bytes => (b &&& 0b01111111).toNat + 128 * lengthValue bytes

/-- The first frame or error of a byte sequence and what follows it; `none` if the
    sequence ends before it. -/
def nextFrame : List UInt8 → Option (ErrorPacket × List UInt8)
  | [] => none
  | fixedHeader :: bytes =>
    match lengthField 0 bytes with
    | .incomplete => none
    | .tooLarge rest => some (.ec (.disconnect DisconnectReasonCode.packetTooLarge), rest)
    | .field length rest =>
      if rest.length < lengthValue length then none
      else some (.packet (fixedHeader :: length ++ rest.take (lengthValue length)),
        rest.drop (lengthValue length))

/-- At most `fuel` frames of a byte sequence. -/
def framesUpTo : Nat → List UInt8 → List ErrorPacket
  | 0, _ => []
  | fuel + 1, bytes =>
    match nextFrame bytes with
    | none => []
    | some (frame, rest) => frame :: framesUpTo fuel rest

/-- The frames and errors of a byte sequence; each of them has at least two bytes. -/
def frames (bytes : List UInt8) : List ErrorPacket := framesUpTo bytes.length bytes

end Framing

/-! ### One byte at a time -/

namespace RecvPacketBuilder

/-- What the builder does with one byte. -/
def push (rpb : RecvPacketBuilder) (byte : UInt8) : RecvPacketBuilder × List ErrorPacket :=
  let r := rpb.recv [byte]
  (r.1, r.2.1.toList)

/-- The states between two bytes: the header buffer holds the fixed header and the
    length bytes so far, and a payload is waited for only if there is one. -/
structure WellFormed (rpb : RecvPacketBuilder) : Prop where
  fixedHeader : rpb.readState = .fixedHeader → rpb = initialized
  remainingLength : rpb.readState = .remainingLength →
    rpb.rawBuf = [] ∧ ∃ n ≤ 3, rpb.multiplier = 128 ^ n ∧ rpb.headerRemainingLengthBuf.length = n + 1
  payload : rpb.readState = .payload →
    0 < rpb.remainingLength ∧ rpb.headerRemainingLengthBuf.length ≤ 5

theorem wellFormed_initialized : WellFormed initialized :=
  ⟨fun _ => rfl, nofun, nofun⟩

/-- Every `push_back` on the header buffer finds room for its byte. -/
theorem WellFormed.header_lt {rpb : RecvPacketBuilder} (h : rpb.WellFormed)
    (hstate : rpb.readState ≠ .payload) : rpb.headerRemainingLengthBuf.length < 5 := by
  cases hread : rpb.readState with
  | fixedHeader => rw [h.fixedHeader hread]; decide
  | remainingLength =>
    obtain ⟨-, n, hn, -, hlen⟩ := h.remainingLength hread
    omega
  | payload => exact absurd hread hstate

theorem push_wellFormed {rpb : RecvPacketBuilder} (h : rpb.WellFormed) (byte : UInt8) :
    (rpb.push byte).1.WellFormed := by
  unfold push recv
  -- a byte is read in one of the three states
  cases hread : rpb.readState with
  | fixedHeader =>
    rw [h.fixedHeader hread]
    refine ⟨nofun, fun _ => ⟨rfl, 0, by decide, rfl, rfl⟩, nofun⟩
  -- the length ends with this byte, or it goes on and may have too many bytes
  | remainingLength =>
    obtain ⟨hraw, n, hn, hmul, hlen⟩ := h.remainingLength hread
    simp only
    split
    · split
      · exact wellFormed_initialized
      · next hne =>
        refine ⟨nofun, nofun, fun _ => ⟨Nat.pos_of_ne_zero hne, ?_⟩⟩
        simp only [recv, List.length_append, hlen, List.length_singleton]
        omega
    · split
      · exact wellFormed_initialized
      · next hne =>
        refine ⟨nofun, fun _ => ⟨hraw, n + 1, ?_, ?_, ?_⟩, nofun⟩
        · have : n ≠ 3 := by
            rintro rfl
            exact hne (hmul ▸ by decide)
          omega
        · simp only [recv, hmul, Nat.pow_succ]
        · simp only [recv, List.length_append, hlen, List.length_singleton]
  -- the packet is complete with this byte, or a byte less is missing
  | payload =>
    obtain ⟨hpos, hlen⟩ := h.payload hread
    simp only
    split
    · exact wellFormed_initialized
    · next hne =>
      refine ⟨nofun, nofun, fun _ => ⟨?_, hlen⟩⟩
      simp only [List.length_take, List.length_singleton] at hne ⊢
      omega

/-- A call of `recv` takes the first byte, and goes on if this did not complete a frame. -/
theorem recv_cons {rpb : RecvPacketBuilder} (h : rpb.WellFormed) (byte : UInt8)
    (is : List UInt8) :
    rpb.recv (byte :: is) =
      match rpb.recv [byte] with
      | (rpb', none, _) => rpb'.recv is
      | (rpb', some ep, _) => (rpb', some ep, is) := by
  rw [recv, recv]
  -- one byte decides, except within the payload, where the bytes may be taken together
  cases hread : rpb.readState with
  | fixedHeader => rfl
  | remainingLength =>
    simp only
    split
    · split <;> rfl
    · split <;> rfl
  | payload =>
    obtain ⟨hpos, -⟩ := h.payload hread
    obtain ⟨n, hn⟩ : ∃ n, rpb.remainingLength = n + 1 := ⟨_, (Nat.succ_pred_eq_of_pos hpos).symm⟩
    simp only [hn, List.take_succ_cons, List.take_nil, List.length_cons, List.length_nil,
      List.drop_succ_cons]
    cases n with
    | zero => simp
    | succ n =>
      simp only [Nat.zero_add, show ¬ 1 = n + 1 + 1 by omega, if_false]
      cases is with
      | nil => rw [recv]; simp
      -- the remaining bytes are enough for the payload or not
      | cons c is =>
        rw [recv]
        simp only [Nat.add_sub_cancel, List.append_assoc, List.singleton_append]
        by_cases hlen : ((c :: is).take (n + 1)).length = n + 1
        · rw [if_pos (by omega), if_pos hlen]
        · rw [if_neg (by omega), if_neg hlen]
          congr 2
          omega

/-- A call of `recv` pushes bytes until a frame is complete or the stream is empty. -/
theorem recv_eq_push {rpb : RecvPacketBuilder} (h : rpb.WellFormed) {is : List UInt8}
    (hne : is ≠ []) :
    ∃ used rest out, is = used ++ rest ∧ used ≠ [] ∧
      rpb.recv is = ((feed push rpb used).1, out, rest) ∧
      (feed push rpb used).2 = out.toList ∧ (out = none → rest = []) ∧
      ∀ k < used.length, (feed push rpb (used.take k)).2 = [] := by
  -- the induction is on the stream: the first byte completes a frame, or it is pushed
  induction is generalizing rpb with
  | nil => exact absurd rfl hne
  | cons byte is ih =>
    have hcons := recv_cons h byte is
    have hpush : rpb.push byte = ((rpb.recv [byte]).1, (rpb.recv [byte]).2.1.toList) := rfl
    obtain ⟨⟨rpb', out, rest⟩, hone⟩ : ∃ r, rpb.recv [byte] = r := ⟨_, rfl⟩
    rw [hone] at hcons hpush
    have hwf : rpb'.WellFormed := by
      have := push_wellFormed h byte
      rwa [hpush] at this
    cases out with
    | some ep =>
      refine ⟨[byte], is, some ep, rfl, List.cons_ne_nil _ _, ?_, ?_, nofun, ?_⟩
      · rw [hcons]
        simp only [feed, hpush]
      · simp only [feed, hpush, List.append_nil]
      · intro k hk
        obtain rfl : k = 0 := by simpa using hk
        rfl
    | none =>
      simp only at hcons
      -- a stream that ends here leaves the frame incomplete
      cases is with
      | nil =>
        refine ⟨[byte], [], none, rfl, List.cons_ne_nil _ _, ?_, ?_, fun _ => rfl, ?_⟩
        · rw [hcons]
          simp only [feed, hpush, recv]
        · simp only [feed, hpush, List.append_nil]
        · intro k hk
          obtain rfl : k = 0 := by simpa using hk
          rfl
      | cons c is =>
        obtain ⟨used, rest', out, heq, -, hrecv, hout, hrest, hfirst⟩ :=
          ih hwf (List.cons_ne_nil _ _)
        refine ⟨byte :: used, rest', out, by rw [heq]; rfl, List.cons_ne_nil _ _, ?_, ?_, hrest, ?_⟩
        · rw [hcons, hrecv]
          simp only [feed, hpush]
        · simp only [feed, hpush, hout]
          rfl
        · intro k hk
          cases k with
          | zero => rfl
          | succ k =>
            simp only [List.take_succ_cons, feed, hpush]
            exact hfirst k (Nat.lt_of_succ_lt_succ hk)

theorem WellFormed.feed {rpb : RecvPacketBuilder} (h : rpb.WellFormed) (bytes : List UInt8) :
    (feed push rpb bytes).1.WellFormed :=
  feed_invariant (P := WellFormed) (fun _ byte h => push_wellFormed h byte) h bytes

theorem WellFormed.recv {rpb : RecvPacketBuilder} (h : rpb.WellFormed) (is : List UInt8) :
    (rpb.recv is).1.WellFormed := by
  by_cases hne : is = []
  · subst hne
    exact h
  · obtain ⟨used, rest, out, -, -, hrecv, -⟩ := recv_eq_push h hne
    rw [hrecv]
    exact h.feed used

/-- The header buffer has room for the fixed header and a length of four bytes. -/
theorem WellFormed.header_le {rpb : RecvPacketBuilder} (h : rpb.WellFormed) :
    rpb.headerRemainingLengthBuf.length ≤ 5 := by
  by_cases hstate : rpb.readState = .payload
  · exact (h.payload hstate).2
  · exact Nat.le_of_lt (h.header_lt hstate)

end RecvPacketBuilder

/-! ### The frames of the builder are those of the reference -/

namespace Framing

open RecvPacketBuilder

/-- Waiting for the rest of a payload. -/
theorem feed_payload (n mul : Nat) (hpos : 0 < n) (header raw bytes : List UInt8) :
    (feed push ⟨.payload, n, mul, header, raw⟩ bytes).2 =
      if bytes.length < n then []
      else .packet (raw ++ bytes.take n) :: (feed push initialized (bytes.drop n)).2 := by
  induction bytes generalizing n raw with
  | nil =>
    rw [if_pos (by simpa using hpos)]
    rfl
  | cons b bytes ih =>
    obtain ⟨n, rfl⟩ : ∃ k, n = k + 1 := ⟨_, (Nat.succ_pred_eq_of_pos hpos).symm⟩
    cases n with
    | zero =>
      have hpush : push ⟨.payload, 0 + 1, mul, header, raw⟩ b =
          (initialized, [.packet (raw ++ [b])]) := rfl
      rw [feed, hpush, if_neg (by simp)]
      rfl
    | succ n =>
      have hpush : push ⟨.payload, n + 1 + 1, mul, header, raw⟩ b =
          (⟨.payload, n + 1, mul, header, raw ++ [b]⟩, []) := by
        simp [push, recv]
      rw [feed, hpush]
      simp only [List.nil_append, ih (n + 1) (Nat.succ_pos n) (raw ++ [b]), List.length_cons,
        Nat.add_lt_add_iff_right, List.take_succ_cons, List.drop_succ_cons, List.append_assoc,
        List.singleton_append]

/-! ### The length field -/

/-- The last byte of a length field. -/
theorem push_last {n v : Nat} {header : Buffer} {b : UInt8} (h : b &&& 0b10000000 = 0) :
    push ⟨.remainingLength, v, 128 ^ n, header, []⟩ b =
      if v + (b &&& 0b01111111).toNat * 128 ^ n = 0 then (initialized, [.packet (header ++ [b])])
      else (⟨.payload, v + (b &&& 0b01111111).toNat * 128 ^ n, 128 ^ (n + 1), header ++ [b],
        header ++ [b]⟩, []) := by
  by_cases hzero : v + (b &&& 0b01111111).toNat * 128 ^ n = 0
  · simp only [push, recv, h, hzero, if_true]
    rfl
  · simp only [push, recv, h, hzero, if_true, if_false]
    rfl

/-- A fourth byte that is continued. -/
theorem push_fourth {v : Nat} {header : Buffer} {b : UInt8} (h : b &&& 0b10000000 ≠ 0) :
    push ⟨.remainingLength, v, 128 ^ 3, header, []⟩ b =
      (initialized, [.ec (.disconnect DisconnectReasonCode.packetTooLarge)]) := by
  have hmul : ∀ m, m * 128 = 128 * 128 * 128 * 128 →
      push ⟨.remainingLength, v, m, header, []⟩ b =
        (initialized, [.ec (.disconnect DisconnectReasonCode.packetTooLarge)]) := by
    intro m hm
    simp only [push, recv, h, if_false, if_pos hm]
    rfl
  exact hmul _ (by decide)

/-- A continued byte before the fourth. -/
theorem push_more {n v : Nat} {header : Buffer} {b : UInt8} (hn : n < 3)
    (h : b &&& 0b10000000 ≠ 0) :
    push ⟨.remainingLength, v, 128 ^ n, header, []⟩ b =
      (⟨.remainingLength, v + (b &&& 0b01111111).toNat * 128 ^ n, 128 ^ (n + 1), header ++ [b],
        []⟩, []) := by
  have hmul : 128 ^ n * 128 ≠ 128 * 128 * 128 * 128 := by
    have : n = 0 ∨ n = 1 ∨ n = 2 := by omega
    rcases this with rfl | rfl | rfl <;> decide
  simp only [push, recv, h, hmul, if_false, Nat.pow_succ]
  rfl

/-- Waiting for the rest of the length field. -/
theorem feed_length {n : Nat} (hn : n ≤ 3) (v : Nat) (header bytes : List UInt8) :
    (feed push ⟨.remainingLength, v, 128 ^ n, header, []⟩ bytes).2 =
      match lengthField n bytes with
      | .incomplete => []
      | .tooLarge rest => .ec (.disconnect DisconnectReasonCode.packetTooLarge) ::
          (feed push initialized rest).2
      | .field length rest =>
        let len := v + 128 ^ n * lengthValue length
        if rest.length < len then []
        else .packet (header ++ length ++ rest.take len) ::
          (feed push initialized (rest.drop len)).2 := by
  -- the induction is on the bytes, of which each adds seven bits to the length
  induction bytes generalizing n v header with
  | nil => rfl
  | cons b bytes ih =>
    rw [feed, lengthField]
    -- the last byte of the length: the packet may be empty
    by_cases hlast : b &&& 0b10000000 = 0
    · rw [if_pos hlast, push_last hlast]
      have hlen : v + 128 ^ n * lengthValue [b] = v + (b &&& 0b01111111).toNat * 128 ^ n := by
        rw [lengthValue, lengthValue, Nat.mul_zero, Nat.add_zero, Nat.mul_comm]
      simp only [hlen]
      by_cases hzero : v + (b &&& 0b01111111).toNat * 128 ^ n = 0
      · rw [if_pos hzero, hzero, if_neg (Nat.not_lt_zero _)]
        simp
      · rw [if_neg hzero]
        simp only [List.nil_append]
        rw [feed_payload _ _ (Nat.pos_of_ne_zero hzero)]
    · rw [if_neg hlast]
      -- a fourth byte with a continuation is one too many
      by_cases hfour : n = 3
      · subst hfour
        rw [push_fourth hlast, if_pos rfl]
        rfl
      · rw [push_more (by omega) hlast, if_neg hfour]
        simp only [List.nil_append]
        rw [ih (by omega)]
        cases lengthField (n + 1) bytes with
        | incomplete => rfl
        | tooLarge rest => rfl
        | field length rest =>
          have hval : v + 128 ^ n * lengthValue (b :: length) =
              v + (b &&& 0b01111111).toNat * 128 ^ n + 128 ^ (n + 1) * lengthValue length := by
            rw [lengthValue, Nat.mul_add, Nat.pow_succ, Nat.mul_comm (128 ^ n), Nat.mul_assoc,
              Nat.add_assoc]
          simp only [hval, List.append_assoc, List.singleton_append]

theorem feed_nextFrame (bytes : List UInt8) :
    (feed push initialized bytes).2 =
      match nextFrame bytes with
      | none => []
      | some (frame, rest) => frame :: (feed push initialized rest).2 := by
  cases bytes with
  | nil => rfl
  | cons b bytes =>
    have hpush : push initialized b = (⟨.remainingLength, 0, 128 ^ 0, [b], []⟩, []) := rfl
    rw [feed, hpush, nextFrame]
    simp only [List.nil_append]
    rw [feed_length (by decide)]
    cases lengthField 0 bytes with
    | incomplete => rfl
    | tooLarge rest => rfl
    | field length rest =>
      simp only [Nat.zero_add, Nat.pow_zero, Nat.one_mul, List.cons_append]
      split <;> rfl

/-- What follows the length field. -/
def LengthField.rest : LengthField → List UInt8
  | incomplete => []
  | tooLarge rest | field _ rest => rest

theorem lengthField_length (n : Nat) (bytes : List UInt8) :
    (lengthField n bytes).rest.length ≤ bytes.length := by
  induction bytes generalizing n with
  | nil => exact Nat.le_refl _
  | cons b bytes ih =>
    rw [lengthField]
    by_cases hlast : b &&& 0b10000000 = 0
    · rw [if_pos hlast]
      exact Nat.le_succ _
    · rw [if_neg hlast]
      by_cases hfour : n = 3
      · rw [if_pos hfour]
        exact Nat.le_succ _
      · rw [if_neg hfour]
        have hle := ih (n + 1)
        cases hfield : lengthField (n + 1) bytes with
        | incomplete => exact Nat.zero_le _
        | tooLarge rest => rw [hfield] at hle; exact Nat.le_succ_of_le hle
        | field length rest => rw [hfield] at hle; exact Nat.le_succ_of_le hle

theorem nextFrame_length {bytes rest : List UInt8} {frame : ErrorPacket}
    (h : nextFrame bytes = some (frame, rest)) : rest.length < bytes.length := by
  cases bytes with
  | nil => exact nomatch h
  | cons b bytes =>
    have hle := lengthField_length 0 bytes
    rw [nextFrame] at h
    cases hfield : lengthField 0 bytes with
    | incomplete => rw [hfield] at h; exact nomatch h
    | tooLarge rest' =>
      rw [hfield] at h hle
      obtain ⟨-, rfl⟩ := Prod.mk.inj (Option.some.inj h)
      exact Nat.lt_succ_of_le hle
    | field length rest' =>
      rw [hfield] at h hle
      simp only at h
      split at h
      · exact nomatch h
      · obtain ⟨-, rfl⟩ := Prod.mk.inj (Option.some.inj h)
        have hrest : rest'.length ≤ bytes.length := hle
        rw [List.length_drop, List.length_cons]
        omega

/-- Pushing the bytes one by one gives the frames of the reference. -/
theorem feed_eq_frames (bytes : List UInt8) :
    (feed push initialized bytes).2 = frames bytes := by
  have key : ∀ fuel bytes, bytes.length ≤ fuel →
      (feed push initialized bytes).2 = framesUpTo fuel bytes := by
    intro fuel
    induction fuel with
    | zero =>
      intro bytes hfuel
      obtain rfl : bytes = [] := List.length_eq_zero_iff.mp (Nat.le_zero.mp hfuel)
      rfl
    | succ fuel ih =>
      intro bytes hfuel
      rw [feed_nextFrame, framesUpTo]
      cases hnext : nextFrame bytes with
      | none => rfl
      | some p =>
        have hlt := nextFrame_length hnext
        exact congrArg (p.1 :: ·) (ih p.2 (by omega))
  exact key bytes.length bytes (Nat.le_refl _)

end Framing

end AsyncMqtt
