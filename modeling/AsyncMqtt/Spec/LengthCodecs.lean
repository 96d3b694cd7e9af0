import AsyncMqtt.ForStd.Base128
import AsyncMqtt.Spec.ChunkingCorrect
import AsyncMqtt.Spec.WireCorrect

/-!
# The variable byte integer codecs agree

`val_to_variable_bytes`, `variable_bytes_to_val` and the length field of
`recv_packet_builder`. The encoder is compared with `Base128.Encodes`; the two
decoders are compared with each other through `Framing.lengthField`.

## Key results

- `valToVariableBytes_shortest`: no encoding is shorter
- `variableBytesToVal_eq_lengthField`: what `variable_bytes_to_val` reads
- `RecvPacketBuilder.decodeLength_eq`: the builder reads the same length
-/

namespace AsyncMqtt

open Base128 Chunked Framing

/-! ### val_to_variable_bytes -/

theorem encodes_go (fuel : Nat) :
    ∀ val, val < 128 ^ (fuel + 1) → Encodes (valToVariableBytes.go (fuel + 1) val) val := by
  -- the induction is on the fuel, with one byte for each seven bits
  induction fuel with
  | zero =>
    intro val hval
    have hle : ¬ 127 < val := by simp at hval; omega
    have hlow : ((UInt8.ofNat val &&& 0b01111111) &&& 0b01111111).toNat = val := by
      rw [low_bits_idem, toNat_low_bits]
      omega
    rw [valToVariableBytes.go, if_neg hle]
    have hlast := Encodes.last (last_bit (UInt8.ofNat val))
    rwa [hlow] at hlast
  | succ fuel ih =>
    intro val hval
    -- the low seven bits are written, and the rest is encoded
    by_cases hle : 127 < val
    · have hlow : ((UInt8.ofNat val &&& 0b01111111 ||| 0b10000000) &&& 0b01111111).toNat =
          val % 128 := by
        rw [continued_low_bits, toNat_low_bits]
      have hshift : val >>> 7 = val / 128 := Nat.shiftRight_eq_div_pow val 7
      have hdiv : val / 128 < 128 ^ (fuel + 1) := by
        rw [Nat.pow_succ] at hval
        exact Nat.div_lt_of_lt_mul (by omega)
      have hmore := Encodes.more (continued_bit (UInt8.ofNat val)) (ih _ hdiv)
      rw [hlow, Nat.mod_add_div] at hmore
      rw [valToVariableBytes.go, if_pos hle, hshift]
      exact hmore
    · have hlow : ((UInt8.ofNat val &&& 0b01111111) &&& 0b01111111).toNat = val := by
        rw [low_bits_idem, toNat_low_bits]
        omega
      rw [valToVariableBytes.go, if_neg hle]
      have hlast := Encodes.last (last_bit (UInt8.ofNat val))
      rwa [hlow] at hlast

theorem encodes_valToVariableBytes {val : Nat} (h : val ≤ 0xfffffff) :
    Encodes (valToVariableBytes val) val := by
  have hval : val < 128 ^ (3 + 1) := by omega
  rw [valToVariableBytes, if_neg (by omega)]
  exact encodes_go 3 val hval

/-- A byte is added only for a number that the bytes so far cannot hold. -/
theorem pow_le_of_length_go (fuel : Nat) :
    ∀ val k, (valToVariableBytes.go fuel val).length = k + 2 → 128 ^ (k + 1) ≤ val := by
  induction fuel with
  | zero => exact fun _ _ h => nomatch h
  | succ fuel ih =>
    intro val k h
    rw [valToVariableBytes.go] at h
    split at h
    · next hlt =>
      cases k with
      | zero => omega
      | succ k =>
        have hrest := ih (val >>> 7) k (Nat.succ.inj h)
        have hshift : val >>> 7 = val / 128 := Nat.shiftRight_eq_div_pow val 7
        rw [hshift] at hrest
        calc 128 ^ (k + 1 + 1) = 128 * 128 ^ (k + 1) := by rw [Nat.pow_succ, Nat.mul_comm]
          _ ≤ 128 * (val / 128) := Nat.mul_le_mul_left _ hrest
          _ ≤ val := Nat.mul_div_le _ _
    · simp at h

/-- No encoding of a number is shorter. -/
theorem valToVariableBytes_shortest {bytes : List UInt8} {val : Nat} (h : Encodes bytes val) :
    (valToVariableBytes val).length ≤ bytes.length := by
  cases hlen : (valToVariableBytes val).length with
  | zero => exact Nat.zero_le _
  | succ n =>
    cases n with
    | zero => exact List.length_pos_iff.mpr h.ne_nil
    | succ k =>
      have hgo : (valToVariableBytes.go 4 val).length = k + 2 := by
        rw [valToVariableBytes] at hlen
        split at hlen
        · cases hlen
        · exact hlen
      exact h.lt_length (pow_le_of_length_go 4 val k hgo)

/-! ### variable_bytes_to_val -/

theorem variableBytesToVal_go_eq {n : Nat} (hn : n ≤ 3) (val : Nat) (bytes : List UInt8) :
    variableBytesToVal.go val (128 ^ n) bytes =
      match lengthField n bytes with
      | .field length rest => some (val + 128 ^ n * lengthValue length, rest)
      | _ => none := by
  -- the induction is on the bytes, whose weight grows with their number
  induction bytes generalizing n val with
  | nil => rfl
  | cons b bytes ih =>
    have hmul : 128 ^ n ≠ 128 * 128 * 128 * 128 := by
      have : n = 0 ∨ n = 1 ∨ n = 2 ∨ n = 3 := by omega
      rcases this with rfl | rfl | rfl | rfl <;> decide
    rw [variableBytesToVal.go, if_neg hmul, lengthField]
    by_cases hlast : b &&& 0b10000000 = 0
    · rw [if_pos hlast, if_pos hlast]
      simp only [lengthValue, Nat.mul_zero, Nat.add_zero]
      rw [Nat.mul_comm]
    · rw [if_neg hlast, if_neg hlast]
      by_cases hfour : n = 3
      · -- this loop sees the fifth byte, if there is one, before it gives up
        subst hfour
        rw [if_pos rfl]
        cases bytes with
        | nil => rfl
        | cons c bytes => exact if_pos (by decide)
      · rw [if_neg hfour, ← Nat.pow_succ, ih (by omega)]
        cases lengthField (n + 1) bytes with
        | incomplete => rfl
        | tooLarge rest => rfl
        | field length rest =>
          simp only [lengthValue, Option.some.injEq, Prod.mk.injEq, and_true]
          rw [Nat.pow_succ]
          ring

/-- `variable_bytes_to_val` reads a length field of at most four bytes. -/
theorem variableBytesToVal_eq_lengthField (bytes : List UInt8) :
    variableBytesToVal bytes =
      match lengthField 0 bytes with
      | .field length rest => some (lengthValue length, rest)
      | _ => none := by
  have h := variableBytesToVal_go_eq (Nat.zero_le 3) 0 bytes
  rw [Nat.pow_zero] at h
  rw [variableBytesToVal, h]
  simp only [Nat.one_mul, Nat.zero_add]

/-! ### The length field of recv_packet_builder -/

namespace RecvPacketBuilder

/-- The remaining length that a byte completes: the builder goes on to the payload, or hands
    over a packet that has none. -/
def yieldedLength (r : RecvPacketBuilder × List ErrorPacket) : Option Nat :=
  match r.2 with
  | [] => if r.1.readState = .payload then some r.1.remainingLength else none
  | .packet _ :: _ => some 0
  | .ec _ :: _ => none

/-- The remaining length that the builder gets from the bytes and what follows it; `none` if
    they end before, or if the builder hands over an error. -/
def decodeLength (rpb : RecvPacketBuilder) : List UInt8 → Option (Nat × List UInt8)
  | [] => none
  | b :: bytes =>
    match yieldedLength (rpb.push b) with
    | some length => some (length, bytes)
    | none => if (rpb.push b).2 = [] then decodeLength (rpb.push b).1 bytes else none

theorem decodeLength_eq {n : Nat} (hn : n ≤ 3) (v : Nat) (header bytes : List UInt8) :
    decodeLength ⟨.remainingLength, v, 128 ^ n, header, []⟩ bytes =
      match lengthField n bytes with
      | .field length rest => some (v + 128 ^ n * lengthValue length, rest)
      | _ => none := by
  -- the induction is on the bytes, as for the other decoder
  induction bytes generalizing n v header with
  | nil => rfl
  | cons b bytes ih =>
    rw [decodeLength, lengthField]
    by_cases hlast : b &&& 0b10000000 = 0
    · have hvalue : v + 128 ^ n * lengthValue [b] = v + (b &&& 0b01111111).toNat * 128 ^ n := by
        rw [lengthValue, lengthValue, Nat.mul_zero, Nat.add_zero, Nat.mul_comm]
      rw [push_last hlast, if_pos hlast]
      simp only [hvalue]
      by_cases hzero : v + (b &&& 0b01111111).toNat * 128 ^ n = 0
      · rw [if_pos hzero, hzero]
        rfl
      · rw [if_neg hzero]
        rfl
    · rw [if_neg hlast]
      -- a fourth byte with a continuation is one too many
      by_cases hfour : n = 3
      · subst hfour
        rw [push_fourth hlast, if_pos rfl]
        rfl
      · rw [push_more (by omega) hlast, if_neg hfour]
        have hnext : yieldedLength (⟨.remainingLength, v + (b &&& 0b01111111).toNat * 128 ^ n,
            128 ^ (n + 1), header ++ [b], []⟩, []) = none := rfl
        simp only [hnext, if_true]
        rw [ih (by omega)]
        cases lengthField (n + 1) bytes with
        | incomplete => rfl
        | tooLarge rest => rfl
        | field length rest =>
          simp only [lengthValue, Option.some.injEq, Prod.mk.injEq, and_true]
          rw [Nat.pow_succ]
          ring

/-- After a fixed header the builder reads the length that `variable_bytes_to_val` reads. -/
theorem decodeLength_eq_variableBytesToVal (fixedHeader : UInt8) (bytes : List UInt8) :
    decodeLength (push initialized fixedHeader).1 bytes = variableBytesToVal bytes := by
  have hpush : (push initialized fixedHeader).1 =
      ⟨.remainingLength, 0, 128 ^ 0, [fixedHeader], []⟩ := rfl
  rw [hpush, decodeLength_eq (Nat.zero_le 3), variableBytesToVal_eq_lengthField]
  simp only [Nat.pow_zero, Nat.one_mul, Nat.zero_add]

end RecvPacketBuilder

/-! ### The first frame of a stream -/

theorem lengthField_incomplete {n : Nat} {bytes : List UInt8} (hn : n ≤ 3)
    (h : lengthField n bytes = .incomplete) : n + bytes.length < 4 := by
  induction bytes generalizing n with
  | nil => exact Nat.lt_succ_of_le hn
  | cons b bytes ih =>
    rw [lengthField] at h
    split at h
    · cases h
    · split at h
      · cases h
      · cases hfield : lengthField (n + 1) bytes with
        | incomplete =>
          have hlen := ih (by omega) hfield
          rw [List.length_cons]
          omega
        | tooLarge rest => rw [hfield] at h; cases h
        | field length rest => rw [hfield] at h; cases h

theorem lengthField_tooLarge {n : Nat} {bytes rest : List UInt8} (hn : n ≤ 3)
    (h : lengthField n bytes = .tooLarge rest) : 4 ≤ n + bytes.length := by
  induction bytes generalizing n with
  | nil => cases h
  | cons b bytes ih =>
    rw [List.length_cons]
    rw [lengthField] at h
    split at h
    · cases h
    · split at h
      · omega
      · cases hfield : lengthField (n + 1) bytes with
        | incomplete => rw [hfield] at h; cases h
        | tooLarge rest' =>
          rw [hfield] at h
          cases h
          have hlen := ih (by omega) hfield
          omega
        | field length rest => rw [hfield] at h; cases h

/-- A length field is the start of the bytes, and is found again in front of others. -/
theorem lengthField_field {n : Nat} {bytes length rest : List UInt8}
    (h : lengthField n bytes = .field length rest) :
    bytes = length ++ rest ∧ ∀ other, lengthField n (length ++ other) = .field length other := by
  induction bytes generalizing n length with
  | nil => cases h
  | cons b bytes ih =>
    rw [lengthField] at h
    split at h
    · next hlast =>
      cases h
      exact ⟨rfl, fun other => if_pos hlast⟩
    · next hlast =>
      split at h
      · cases h
      · next hfour =>
        cases hfield : lengthField (n + 1) bytes with
        | incomplete => rw [hfield] at h; cases h
        | tooLarge rest => rw [hfield] at h; cases h
        | field length' rest' =>
          rw [hfield] at h
          cases h
          obtain ⟨hsplit, hother⟩ := ih hfield
          refine ⟨by rw [hsplit]; rfl, fun other => ?_⟩
          rw [List.cons_append, lengthField, if_neg hlast, if_neg hfour, hother]

/-- What is handed over first, by the length that `variable_bytes_to_val` reads after the
    fixed header. -/
def firstFrame (fixedHeader : UInt8) (bytes : List UInt8) : Option ErrorPacket :=
  match variableBytesToVal bytes with
  | some (val, rest) =>
    if rest.length < val then none
    else some (.packet (fixedHeader :: bytes.take (bytes.length - rest.length) ++ rest.take val))
  | none =>
    if bytes.length < 4 then none
    else some (.ec (.disconnect DisconnectReasonCode.packetTooLarge))

theorem head?_frames (fixedHeader : UInt8) (bytes : List UInt8) :
    (frames (fixedHeader :: bytes)).head? = firstFrame fixedHeader bytes := by
  rw [← feed_eq_frames, feed_nextFrame, nextFrame, firstFrame, variableBytesToVal_eq_lengthField]
  cases hfield : lengthField 0 bytes with
  | incomplete =>
    have hlen := lengthField_incomplete (Nat.zero_le 3) hfield
    simp only
    rw [if_pos (by omega)]
    rfl
  | tooLarge rest =>
    have hlen := lengthField_tooLarge (Nat.zero_le 3) hfield
    simp only
    rw [if_neg (by omega)]
    rfl
  | field length rest =>
    obtain ⟨rfl, -⟩ := lengthField_field hfield
    have htake : (length ++ rest).take ((length ++ rest).length - rest.length) = length := by
      rw [List.length_append, Nat.add_sub_cancel]
      exact List.take_left
    simp only [htake]
    by_cases hshort : rest.length < lengthValue length
    · rw [if_pos hshort, if_pos hshort]
      rfl
    · rw [if_neg hshort, if_neg hshort]
      rfl

/-- The length in a packet that is handed over is the length of what follows it. -/
theorem packet_of_mem_frames {bytes packet : List UInt8}
    (h : ErrorPacket.packet packet ∈ frames bytes) :
    ∃ fixedHeader length payload, packet = fixedHeader :: length ++ payload ∧
      variableBytesToVal (length ++ payload) = some (payload.length, payload) := by
  have key : ∀ fuel bytes, ErrorPacket.packet packet ∈ framesUpTo fuel bytes →
      ∃ fixedHeader length payload, packet = fixedHeader :: length ++ payload ∧
        variableBytesToVal (length ++ payload) = some (payload.length, payload) := by
    intro fuel
    -- the induction is on the number of frames
    induction fuel with
    | zero => exact fun _ hmem => by cases hmem
    | succ fuel ih =>
      intro bytes hmem
      rw [framesUpTo] at hmem
      cases hnext : nextFrame bytes with
      | none => rw [hnext] at hmem; cases hmem
      | some p =>
        obtain ⟨frame, rest⟩ := p
        rw [hnext] at hmem
        rcases List.mem_cons.mp hmem with rfl | hmem
        · cases bytes with
          | nil => cases hnext
          | cons fixedHeader bytes =>
            rw [nextFrame] at hnext
            -- the frame is complete, and its length field is that of its header
            cases hfield : lengthField 0 bytes with
            | incomplete => rw [hfield] at hnext; cases hnext
            | tooLarge rest => rw [hfield] at hnext; cases hnext
            | field length rest' =>
              rw [hfield] at hnext
              simp only at hnext
              split at hnext
              · cases hnext
              · next hlen =>
                cases hnext
                obtain ⟨-, hother⟩ := lengthField_field hfield
                refine ⟨fixedHeader, length, rest'.take (lengthValue length), rfl, ?_⟩
                rw [variableBytesToVal_eq_lengthField, hother]
                simp only [List.length_take]
                rw [Nat.min_eq_left (by omega)]
        · exact ih rest hmem
  exact key bytes.length bytes h

/-! ### The arithmetic of the loops -/

/-- The product, the sum and the multiplier that both loops compute for a byte. -/
def lengthArithmetic (val mul : Nat) (b : UInt8) : List Nat :=
  [(b &&& 0b01111111).toNat * mul, val + (b &&& 0b01111111).toNat * mul, mul * 128]

/-- All that the loop of `variable_bytes_to_val` computes. -/
def variableBytesToVal.computed (val mul : Nat) : List UInt8 → List Nat
  | [] => []
  | b :: rest =>
    if mul = 128 * 128 * 128 * 128 then []
    else
      lengthArithmetic val mul b ++
        if b &&& 0b10000000 = 0 then []
        else variableBytesToVal.computed (val + (b &&& 0b01111111).toNat * mul) (mul * 128) rest

/-- Seven more bits below the next multiplier. -/
theorem add_group_lt {val mul : Nat} (hval : val < mul) (b : UInt8) :
    val + (b &&& 0b01111111).toNat * mul < mul * 128 := by
  have hgroup := toNat_group_lt b
  have hle : (b &&& 0b01111111).toNat * mul ≤ 127 * mul :=
    Nat.mul_le_mul_right mul (by omega)
  omega

theorem lengthArithmetic_le {n val : Nat} (hn : n ≤ 3) (hval : val < 128 ^ n) (b : UInt8) :
    ∀ x ∈ lengthArithmetic val (128 ^ n) b, x ≤ 128 ^ 4 := by
  have hlt := add_group_lt hval b
  have hmul : 128 ^ n * 128 ≤ 128 ^ 4 := by
    rw [← Nat.pow_succ]
    exact Nat.pow_le_pow_right (by decide) (by omega)
  intro x hx
  simp only [lengthArithmetic, List.mem_cons, List.not_mem_nil, or_false] at hx
  omega

theorem computed_le {n val : Nat} (hn : n ≤ 4) (hval : val < 128 ^ n) (bytes : List UInt8) :
    ∀ x ∈ variableBytesToVal.computed val (128 ^ n) bytes, x ≤ 128 ^ 4 := by
  induction bytes generalizing n val with
  | nil => exact fun _ hx => nomatch hx
  | cons b bytes ih =>
    intro x hx
    rw [variableBytesToVal.computed] at hx
    split at hx
    · exact nomatch hx
    · next hmul =>
      have hfour : n ≠ 4 := fun h => hmul (by rw [h]; decide)
      rcases List.mem_append.mp hx with hx | hx
      · exact lengthArithmetic_le (by omega) hval b x hx
      · split at hx
        · exact nomatch hx
        · rw [← Nat.pow_succ] at hx
          exact ih (by omega) (by rw [Nat.pow_succ]; exact add_group_lt hval b) x hx

namespace RecvPacketBuilder

/-- What the builder has of a length is below its multiplier. -/
def Bounded (rpb : RecvPacketBuilder) : Prop :=
  rpb.readState = .remainingLength → rpb.remainingLength < rpb.multiplier

theorem push_bounded {rpb : RecvPacketBuilder} (h : rpb.WellFormed) (hb : rpb.Bounded)
    (byte : UInt8) : (rpb.push byte).1.Bounded := by
  unfold push recv
  cases hread : rpb.readState with
  | fixedHeader =>
    rw [h.fixedHeader hread]
    exact fun _ => Nat.zero_lt_one
  | remainingLength =>
    simp only
    split
    · split <;> rintro ⟨⟩
    · split
      · rintro ⟨⟩
      · intro _
        exact add_group_lt (hb hread) byte
  | payload =>
    simp only
    split
    · rintro ⟨⟩
    · rintro ⟨⟩

/-- The size of `raw_buf_` is the only other number that the builder computes for a byte of the
    length. -/
theorem arithmetic_lt {rpb : RecvPacketBuilder} (h : rpb.WellFormed) (hb : rpb.Bounded)
    (hstate : rpb.readState = .remainingLength) (b : UInt8) :
    ∀ x ∈ lengthArithmetic rpb.remainingLength rpb.multiplier b,
      rpb.headerRemainingLengthBuf.length + 1 + x < 2 ^ 32 := by
  obtain ⟨-, n, hn, hmul, hlen⟩ := h.remainingLength hstate
  have hval := hb hstate
  rw [hmul] at hval ⊢
  intro x hx
  have hle := lengthArithmetic_le hn hval b x hx
  omega

end RecvPacketBuilder

/-! ### The three of them -/

open RecvPacketBuilder

/-- The encoder gives the shortest encoding, which `variable_bytes_to_val` reads back whatever
    follows it; the builder reads the length that `variable_bytes_to_val` reads, reads that cut
    the stream elsewhere change nothing, and a packet holds as many bytes after its length as
    `variable_bytes_to_val` says; no number that the loops compute needs more than 32 bits, and
    no static vector overflows. -/
theorem length_codecs_agree :
    (∀ n ≤ 268435455, Encodes (valToVariableBytes n) n ∧ (valToVariableBytes n).length ≤ 4 ∧
      (∀ bytes, Encodes bytes n → (valToVariableBytes n).length ≤ bytes.length) ∧
      ∀ rest, variableBytesToVal (valToVariableBytes n ++ rest) = some (n, rest)) ∧
    (∀ fixedHeader bytes,
      decodeLength (push initialized fixedHeader).1 bytes = variableBytesToVal bytes) ∧
    (∀ fixedHeader bytes chunks, chunks.flatten = fixedHeader :: bytes →
      drainChunks take initialized chunks = feed push initialized (fixedHeader :: bytes) ∧
        (drainChunks take initialized chunks).2.head? = firstFrame fixedHeader bytes) ∧
    (∀ chunks packet, .packet packet ∈ (drainChunks take initialized chunks).2 →
      ∃ fixedHeader length payload, packet = fixedHeader :: length ++ payload ∧
        variableBytesToVal (length ++ payload) = some (payload.length, payload)) ∧
    (∀ bytes, ∀ x ∈ variableBytesToVal.computed 0 1 bytes, x < 2 ^ 32) ∧
    ∀ bytes b, let rpb := (feed push initialized bytes).1
      rpb.readState = .remainingLength → rpb.headerRemainingLengthBuf.length < 5 ∧
        ∀ x ∈ lengthArithmetic rpb.remainingLength rpb.multiplier b,
          rpb.headerRemainingLengthBuf.length + 1 + x < 2 ^ 32 := by
  refine ⟨fun n hn => ?_, decodeLength_eq_variableBytesToVal, fun fixedHeader bytes chunks h => ?_,
    fun chunks packet h => ?_, fun bytes x hx => ?_, fun bytes b => ?_⟩
  · exact ⟨encodes_valToVariableBytes hn, length_valToVariableBytes_le n,
      fun _ h => valToVariableBytes_shortest h, variableBytesToVal_append hn⟩
  · refine ⟨by rw [drainChunks_eq_push, h], ?_⟩
    rw [drainChunks_eq_frames, h, head?_frames]
  · rw [drainChunks_eq_frames] at h
    exact packet_of_mem_frames h
  · have hle := computed_le (n := 0) (Nat.zero_le 4) Nat.zero_lt_one bytes x hx
    omega
  · have hinv : ∀ rpb byte, WellFormed rpb ∧ Bounded rpb →
        WellFormed (push rpb byte).1 ∧ Bounded (push rpb byte).1 :=
      fun rpb byte h => ⟨push_wellFormed h.1 byte, push_bounded h.1 h.2 byte⟩
    have hstart : WellFormed initialized ∧ Bounded initialized := ⟨wellFormed_initialized, nofun⟩
    obtain ⟨hwf, hb⟩ := feed_invariant hinv hstart bytes
    intro rpb hstate
    refine ⟨hwf.header_lt ?_, arithmetic_lt hwf hb hstate b⟩
    intro hpayload
    exact nomatch hstate.symm.trans hpayload

end AsyncMqtt
