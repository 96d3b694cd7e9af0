import AsyncMqtt.Native.Property

/-!
# Correctness of the wire primitives

What each step of the packet decoders does on a given buffer. The equations
below are all that the proofs about whole packets know of the wire format.

## Key results

- `variableBytesToVal_append`: a variable byte integer is read back
- `variableBytesToVal_eq_append`: what is read is one to four bytes in front
- `run_readBytes`, `run_readLengthPrefixed`: the readers as functions
- `run_readProperties_append`: properties are read back
-/

namespace AsyncMqtt

open ByteReader

/-! ### Variable byte integers -/

/-- The low seven bits of a number that is cut to a byte -/
theorem toNat_low_bits (v : Nat) : (UInt8.ofNat v &&& 0b01111111).toNat = v % 128 := by
  have h127 : (0b01111111 : UInt8).toNat = 2 ^ 7 - 1 := rfl
  rw [UInt8.toNat_and, h127, Nat.and_two_pow_sub_one_eq_mod, UInt8.toNat_ofNat']
  omega

set_option maxRecDepth 4000 in
/-- The continuation bit does not change the low seven bits. -/
theorem continued_low_bits :
    ∀ b : UInt8, (b &&& 0b01111111 ||| 0b10000000) &&& 0b01111111 = b &&& 0b01111111 := by
  decide

set_option maxRecDepth 4000 in
/-- A byte with the continuation bit is taken as one that others follow. -/
theorem continued_bit : ∀ b : UInt8, (b &&& 0b01111111 ||| 0b10000000) &&& 0b10000000 ≠ 0 := by
  decide

set_option maxRecDepth 4000 in
/-- A byte without the continuation bit is taken as the last one. -/
theorem last_bit : ∀ b : UInt8, (b &&& 0b01111111) &&& 0b10000000 = 0 := by
  decide

set_option maxRecDepth 4000 in
/-- The mask of the low bits can be applied again. -/
theorem low_bits_idem :
    ∀ b : UInt8, (b &&& 0b01111111) &&& 0b01111111 = b &&& 0b01111111 := by
  decide

/-- The two loops run in step: with `fuel` bytes left to write, the reader's
    multiplier leaves room for `fuel` bytes. -/
private theorem variableBytesToVal_go_append (rest : List UInt8) (fuel : Nat) :
    ∀ val acc mul : Nat, val < 128 ^ (fuel + 1) → mul * 128 ^ (fuel + 1) = 128 ^ 4 →
      variableBytesToVal.go acc mul (valToVariableBytes.go (fuel + 1) val ++ rest) =
        some (acc + val * mul, rest) := by
  induction fuel with
  | zero =>
    intro val acc mul hval hmul
    -- one byte is left, so that the number fits into it
    have hle : ¬ 127 < val := by simp at hval; omega
    have hne : mul ≠ 128 * 128 * 128 * 128 := by intro h; subst h; simp at hmul
    rw [valToVariableBytes.go, if_neg hle, List.singleton_append, variableBytesToVal.go,
      if_neg hne, if_pos (last_bit _), low_bits_idem, toNat_low_bits, Nat.mod_eq_of_lt (by omega)]
  | succ fuel ih =>
    intro val acc mul hval hmul
    -- the reader still has room for a byte, since its multiplier is not the largest one
    have hne : mul ≠ 128 * 128 * 128 * 128 := by
      intro h
      subst h
      have : 128 ^ 4 * 1 < 128 ^ 4 * 128 ^ (fuel + 1 + 1) :=
        Nat.mul_lt_mul_of_pos_left (Nat.one_lt_pow (by omega) (by decide)) (by decide)
      omega
    by_cases hle : 127 < val
    · rw [valToVariableBytes.go, if_pos hle, List.cons_append, variableBytesToVal.go,
        if_neg hne, if_neg (continued_bit _), continued_low_bits, toNat_low_bits]
      -- the reader takes the low bits, and the writer goes on with the others
      have hshift : val >>> 7 = val / 128 := Nat.shiftRight_eq_div_pow val 7
      have hdiv : val / 128 < 128 ^ (fuel + 1) := by
        rw [Nat.pow_succ] at hval
        exact Nat.div_lt_of_lt_mul (by omega)
      have hmul' : mul * 128 * 128 ^ (fuel + 1) = 128 ^ 4 := by
        rw [← hmul, Nat.pow_succ 128 (fuel + 1), Nat.mul_assoc, Nat.mul_comm 128]
      rw [hshift, ih (val / 128) _ _ hdiv hmul']
      have hval' : val % 128 * mul + val / 128 * (mul * 128) = val * mul := by
        have h := Nat.mod_add_div val 128
        calc val % 128 * mul + val / 128 * (mul * 128)
            = (val % 128 + 128 * (val / 128)) * mul := by ring
          _ = val * mul := by rw [h]
      rw [Nat.add_assoc, hval']
    -- the last byte, after which the reader stops
    · rw [valToVariableBytes.go, if_neg hle, List.singleton_append, variableBytesToVal.go,
        if_neg hne, if_pos (last_bit _), low_bits_idem, toNat_low_bits,
        Nat.mod_eq_of_lt (by omega)]

/-- At least one byte is written for a number that can be encoded. -/
theorem length_valToVariableBytes_pos {val : Nat} (h : val ≤ 0xfffffff) :
    0 < (valToVariableBytes val).length := by
  rw [valToVariableBytes, if_neg (by omega), valToVariableBytes.go]
  split <;> simp

/-- The loop writes at most one byte for each unit of its fuel. -/
theorem length_go_le (fuel : Nat) : ∀ val, (valToVariableBytes.go fuel val).length ≤ fuel := by
  induction fuel with
  | zero => exact fun _ => Nat.le_refl _
  | succ fuel ih =>
    intro val
    rw [valToVariableBytes.go]
    split
    · exact Nat.succ_le_succ (ih _)
    · exact Nat.succ_le_succ (Nat.zero_le _)

/-- The bytes fit into the static vector that they are put into. -/
theorem length_valToVariableBytes_le (val : Nat) : (valToVariableBytes val).length ≤ 4 := by
  rw [valToVariableBytes]
  split
  · exact Nat.zero_le _
  · exact length_go_le 4 val

/-- A variable byte integer is read back, whatever follows it. -/
theorem variableBytesToVal_append {val : Nat} (h : val ≤ 0xfffffff) (rest : List UInt8) :
    variableBytesToVal (valToVariableBytes val ++ rest) = some (val, rest) := by
  have hval : val < 128 ^ (3 + 1) := by omega
  rw [valToVariableBytes, if_neg (by omega), variableBytesToVal,
    variableBytesToVal_go_append rest 3 val 0 1 hval rfl]
  simp

/-- The reader takes no more bytes than its multiplier leaves room for, and at least one. -/
private theorem variableBytesToVal_go_eq_append (fuel : Nat) :
    ∀ (acc mul : Nat) (bs : List UInt8) (val : Nat) (rest : List UInt8),
      mul * 128 ^ fuel = 128 ^ 4 → variableBytesToVal.go acc mul bs = some (val, rest) →
        ∃ pre, bs = pre ++ rest ∧ pre ≠ [] ∧ pre.length ≤ fuel := by
  induction fuel with
  | zero =>
    intro acc mul bs val rest hmul h
    cases bs with
    | nil => exact nomatch h
    | cons b bs =>
      -- the multiplier is the largest one, and the reader gives up
      rw [variableBytesToVal.go, if_pos (by simpa using hmul)] at h
      exact nomatch h
  | succ fuel ih =>
    intro acc mul bs val rest hmul h
    cases bs with
    | nil => exact nomatch h
    | cons b bs =>
      rw [variableBytesToVal.go] at h
      split at h
      · exact nomatch h
      · simp only at h
        split at h
        -- the byte is the last one
        · simp only [Option.some.injEq, Prod.mk.injEq] at h
          exact ⟨[b], by simp [h.2], by simp, by simp⟩
        -- other bytes follow, for which the multiplier grows
        · have hmul' : mul * 128 * 128 ^ fuel = 128 ^ 4 := by
            rw [← hmul, Nat.pow_succ, Nat.mul_assoc, Nat.mul_comm 128]
          obtain ⟨pre, rfl, _, hlen⟩ := ih _ _ _ _ _ hmul' h
          exact ⟨b :: pre, rfl, by simp, by simp; omega⟩

/-- What `variable_bytes_to_val` reads is one to four bytes in front of the rest. -/
theorem variableBytesToVal_eq_append {bs rest : List UInt8} {val : Nat}
    (h : variableBytesToVal bs = some (val, rest)) :
    ∃ pre, bs = pre ++ rest ∧ pre ≠ [] ∧ pre.length ≤ 4 :=
  variableBytesToVal_go_eq_append 4 0 1 bs val rest rfl h

/-- What has been read so far is below the multiplier, and stays so. -/
private theorem variableBytesToVal_go_lt (fuel : Nat) :
    ∀ (acc mul : Nat) (bs : List UInt8) (val : Nat) (rest : List UInt8),
      mul * 128 ^ fuel = 128 ^ 4 → acc < mul → variableBytesToVal.go acc mul bs = some (val, rest) →
        val < 128 ^ 4 := by
  induction fuel with
  | zero =>
    intro acc mul bs val rest hmul hacc h
    cases bs with
    | nil => exact nomatch h
    | cons b bs =>
      rw [variableBytesToVal.go, if_pos (by simpa using hmul)] at h
      exact nomatch h
  | succ fuel ih =>
    intro acc mul bs val rest hmul hacc h
    cases bs with
    | nil => exact nomatch h
    | cons b bs =>
      -- seven more bits below the next multiplier
      have hdigit : (b &&& 0b01111111).toNat ≤ 127 := by
        rw [UInt8.toNat_and]
        exact Nat.and_le_right
      have hacc' : acc + (b &&& 0b01111111).toNat * mul < mul * 128 := by
        have := Nat.mul_le_mul_right mul hdigit
        omega
      have hmul' : mul * 128 * 128 ^ fuel = 128 ^ 4 := by
        rw [← hmul, Nat.pow_succ, Nat.mul_assoc, Nat.mul_comm 128]
      rw [variableBytesToVal.go] at h
      split at h
      · exact nomatch h
      · simp only at h
        split at h
        · simp only [Option.some.injEq, Prod.mk.injEq] at h
          -- the last byte stays below the largest multiplier
          have hle : mul * 128 ≤ 128 ^ 4 := by
            rw [← hmul']
            exact Nat.le_mul_of_pos_right _ (Nat.pow_pos (by decide))
          omega
        · exact ih _ _ _ _ _ hmul' hacc' h

/-- What `variable_bytes_to_val` reads fits into four groups of seven bits. -/
theorem variableBytesToVal_le {bs rest : List UInt8} {val : Nat}
    (h : variableBytesToVal bs = some (val, rest)) : val ≤ 0xfffffff := by
  have := variableBytesToVal_go_lt 4 0 1 bs val rest rfl (by decide) h
  omega

/-- Something is written for a number that can be encoded. -/
theorem valToVariableBytes_ne_nil {val : Nat} (h : val ≤ 0xfffffff) :
    valToVariableBytes val ≠ [] := by
  intro hnil
  have hread := variableBytesToVal_append h []
  rw [hnil] at hread
  exact nomatch hread

/-! ### Big-endian numbers -/

/-- The number of bytes is fixed by the type. -/
@[simp] theorem length_endianStore (n val : Nat) : (endianStore n val).length = n :=
  BigEndian.length_store n val

/-- A number is read back from its bytes. -/
theorem endianLoad_endianStore {n val : Nat} (h : val < 256 ^ n) :
    endianLoad n (endianStore n val) = val := by
  have htake : (endianStore n val).take n = endianStore n val :=
    List.take_of_length_le (by simp)
  rw [endianLoad, htake]
  exact BigEndian.load_store h

/-- A number that is read fits into as many bytes. -/
theorem endianLoad_lt (n : Nat) (bs : List UInt8) : endianLoad n bs < 256 ^ n := by
  have h := BigEndian.load_lt (bs.take n)
  exact Nat.lt_of_lt_of_le h (Nat.pow_le_pow_right (by decide) (List.length_take_le _ _))

/-! ### Readers as functions of the buffer -/

/-- A check takes nothing from the buffer, whether it fails or not. -/
theorem run_failIf (c : Prop) [Decidable c] (ec : ErrorCode) (buf : List UInt8) :
    (failIf c ec).run buf = if c then .error (.error ec) else .ok ((), buf) := by
  unfold failIf
  split <;> rfl

/-- A check whose condition does not hold does nothing. -/
theorem run_failIf_of_not {c : Prop} [Decidable c] (h : ¬ c) (ec : ErrorCode)
    (buf : List UInt8) : (failIf c ec).run buf = .ok ((), buf) := by
  rw [run_failIf, if_neg h]

/-- After a check that succeeds, its condition is known not to hold. -/
theorem run_failIf_ok {c : Prop} [Decidable c] {ec : ErrorCode} {buf rest : List UInt8} {u : Unit}
    (h : (failIf c ec).run buf = .ok (u, rest)) : ¬ c ∧ rest = buf := by
  rw [run_failIf] at h
  split at h
  · exact nomatch h
  · simp only [Except.ok.injEq, Prod.mk.injEq] at h
    exact ⟨‹_›, h.2.symm⟩

/-- A reader that succeeds has passed its check and goes on with the same buffer. -/
theorem run_failIf_bind_ok {β : Type} {c : Prop} [Decidable c] {ec : ErrorCode}
    {f : Unit → Decoder β} {buf : List UInt8} {r : β × List UInt8}
    (h : (failIf c ec >>= f).run buf = .ok r) : ¬ c ∧ (f ()).run buf = .ok r := by
  rw [run_bind, run_failIf] at h
  split at h
  · next hrun =>
    split at hrun
    · exact nomatch hrun
    · cases hrun
      exact ⟨‹_›, h⟩
  · exact nomatch h

/-- A byte is taken from the front. -/
@[simp] theorem run_readByte_cons (ec : ErrorCode) (b : UInt8) (rest : List UInt8) :
    (readByte ec).run (b :: rest) = .ok (b, rest) := by
  rw [readByte, run_bind_of_ok (run_remaining _), run_bind_of_ok (run_failIf_of_not (by simp) _ _),
    run_bind_of_ok (run_front_cons _ _), run_bind_of_ok (run_removePrefix_one_cons _ _), run_pure]

/-- Without a byte the reader fails with its error. -/
@[simp] theorem run_readByte_nil (ec : ErrorCode) : (readByte ec).run [] = .error (.error ec) := rfl

/-- The fixed header is accepted when it is one of the expected type. -/
theorem run_readFixedHeaderWithCheck {cpt : ControlPacketType} {b : UInt8}
    (h : getControlPacketTypeWithCheck b = some cpt) (ec : ErrorCode) (rest : List UInt8) :
    (readFixedHeaderWithCheck cpt ec).run (b :: rest) = .ok (b, rest) := by
  rw [readFixedHeaderWithCheck, run_bind_of_ok (run_readByte_cons _ _ _),
    run_bind_of_ok (run_failIf_of_not (by simp [h]) _ _), run_pure]

/-- A byte that was read stood in front. -/
theorem run_readByte_ok {ec : ErrorCode} {b : UInt8} {buf rest : List UInt8}
    (h : (readByte ec).run buf = .ok (b, rest)) : buf = b :: rest := by
  cases buf with
  | nil => exact nomatch h
  | cons b' buf =>
    rw [run_readByte_cons] at h
    cases h
    rfl

/-- A fixed header that was accepted stood in front and has the expected type. -/
theorem run_readFixedHeaderWithCheck_ok {cpt : ControlPacketType} {ec : ErrorCode} {b : UInt8}
    {buf rest : List UInt8} (h : (readFixedHeaderWithCheck cpt ec).run buf = .ok (b, rest)) :
    buf = b :: rest ∧ getControlPacketTypeWithCheck b = some cpt := by
  obtain ⟨b', mid, hb, hrest⟩ := run_bind_ok h
  obtain ⟨_, mid', hcheck, hpure⟩ := run_bind_ok hrest
  obtain ⟨hcpt, rfl⟩ := run_failIf_ok hcheck
  cases hpure
  exact ⟨run_readByte_ok hb, not_not.mp hcpt⟩

/-- `insert_advance` takes as many bytes as it is asked for, or none if there are fewer. -/
theorem run_insertAdvance (n : Nat) (buf : List UInt8) :
    (insertAdvance n).run buf =
      if buf.length < n then .ok (none, buf) else .ok (some (buf.take n), buf.drop n) := by
  rw [insertAdvance, run_bind_of_ok (run_remaining _), run_ite]
  split
  · rfl
  · rename_i h
    rw [run_bind_of_ok (run_substr (by omega)), run_bind_of_ok (run_removePrefix (by omega)),
      run_pure, List.drop_zero]

/-- The same with an error when there are too few bytes. -/
theorem run_readBytes (n : Nat) (ec : ErrorCode) (buf : List UInt8) :
    (readBytes n ec).run buf =
      if buf.length < n then .error (.error ec) else .ok (buf.take n, buf.drop n) := by
  rw [readBytes, run_bind, run_insertAdvance]
  by_cases h : buf.length < n
  · simp only [h, if_true, run_fail]
  · simp only [h, if_false, run_pure]

/-- The bytes in front are read if they are as many as asked for. -/
theorem run_readBytes_append {n : Nat} {bs rest : List UInt8} (h : bs.length = n)
    (ec : ErrorCode) : (readBytes n ec).run (bs ++ rest) = .ok (bs, rest) := by
  subst h
  rw [run_readBytes, if_neg (by simp), List.take_left, List.drop_left]

/-- `insert_advance_variable_length` takes the bytes of the number and gives both. -/
theorem run_insertAdvanceVariableLength (buf : List UInt8) :
    insertAdvanceVariableLength.run buf =
      match variableBytesToVal buf with
      | none => .ok (none, buf)
      | some (val, rest) => .ok (some (val, buf.take (buf.length - rest.length)), rest) := by
  rw [insertAdvanceVariableLength, run_bind_of_ok (run_remaining _), run_ite]
  split
  · rename_i h
    obtain rfl : buf = [] := by simpa using h
    rfl
  · cases hval : variableBytesToVal buf with
    | none => rfl
    -- the bytes that were read are the ones before the rest
    | some p =>
      obtain ⟨val, rest⟩ := p
      obtain ⟨pre, rfl, _, _⟩ := variableBytesToVal_eq_append hval
      have hlen : (pre ++ rest).length - rest.length = pre.length := by simp
      simp only [hlen]
      rw [run_bind_of_ok (run_substr_append rfl), run_bind_of_ok (run_removePrefix_append rfl),
        run_pure, List.take_left]

/-- The remaining length, with its bytes -/
theorem run_readRemainingLength (ec : ErrorCode) (buf : List UInt8) :
    (readRemainingLength ec).run buf =
      match variableBytesToVal buf with
      | none => .error (.error ec)
      | some (val, rest) => .ok ((val, buf.take (buf.length - rest.length)), rest) := by
  rw [readRemainingLength, run_bind, run_insertAdvanceVariableLength]
  cases variableBytesToVal buf with
  | none => rfl
  | some p => rfl

/-- An empty buffer has no remaining length. -/
theorem ne_nil_of_run_readRemainingLength {ec : ErrorCode} {rl : Nat × List UInt8}
    {buf rest : List UInt8} (h : (readRemainingLength ec).run buf = .ok (rl, rest)) : buf ≠ [] := by
  rintro rfl
  exact nomatch h

/-- The remaining length is read back, whatever follows it. -/
theorem run_readRemainingLength_append {val : Nat} (h : val ≤ 0xfffffff) (ec : ErrorCode)
    (rest : List UInt8) :
    (readRemainingLength ec).run (valToVariableBytes val ++ rest) =
      .ok ((val, valToVariableBytes val), rest) := by
  have hlen : (valToVariableBytes val ++ rest).length - rest.length =
      (valToVariableBytes val).length := by simp
  rw [run_readRemainingLength, variableBytesToVal_append h]
  simp only [hlen, List.take_left]

/-- The remaining length is accepted if the buffer has as many bytes. -/
theorem run_checkRemainingLength {n : Nat} {buf : List UInt8} (h : n = buf.length)
    (ec : ErrorCode) : (checkRemainingLength n ec).run buf = .ok ((), buf) := by
  rw [checkRemainingLength, run_bind_of_ok (run_remaining _), run_failIf_of_not (by simp [h])]

/-- The length, then that many bytes, which the check accepts. -/
theorem run_readLengthPrefixed (check : List UInt8 → Bool) (ec : ErrorCode) (buf : List UInt8) :
    (readLengthPrefixed check ec).run buf =
      let n := endianLoad 2 buf
      let bs := (buf.drop 2).take n
      if buf.length < 2 ∨ buf.length < 2 + n ∨ check bs = false then .error (.error ec)
      else .ok ((buf.take 2, bs), buf.drop (2 + n)) := by
  rw [readLengthPrefixed, run_bind, run_readBytes]
  by_cases h2 : buf.length < 2
  · simp [h2]
  -- the length is read from the first two bytes
  have hload : endianLoad 2 (buf.take 2) = endianLoad 2 buf := by
    rw [endianLoad, endianLoad, List.take_take, Nat.min_self]
  simp only [h2, if_false, false_or]
  rw [run_bind_of_ok (run_remaining _), hload, run_bind, run_failIf]
  by_cases hlen : buf.length < 2 + endianLoad 2 buf
  -- the length says more than there is
  · have : (buf.drop 2).length < endianLoad 2 buf := by simp; omega
    simp only [this, if_true, hlen, true_or]
  · have hle : ¬ (buf.drop 2).length < endianLoad 2 buf := by simp; omega
    simp only [hle, if_false, hlen, false_or]
    rw [run_bind_of_ok (run_substr (by omega)), run_bind, run_failIf, List.drop_zero]
    -- the bytes are there, and the check decides
    by_cases hcheck : check ((buf.drop 2).take (endianLoad 2 buf)) = false
    · simp only [hcheck, if_true]
    · rw [if_neg hcheck, if_neg hcheck]
      simp only
      rw [run_bind_of_ok (run_removePrefix (by omega)), run_pure, List.drop_drop]

/-- A string is read back with its length, whatever follows it. -/
theorem run_readLengthPrefixed_append {check : List UInt8 → Bool} {bs rest : List UInt8}
    (hlen : bs.length < 2 ^ 16) (hcheck : check bs = true) (ec : ErrorCode) :
    (readLengthPrefixed check ec).run (endianStore 2 bs.length ++ (bs ++ rest)) =
      .ok ((endianStore 2 bs.length, bs), rest) := by
  -- the two bytes in front are the length, and the rest begins with the string
  have hload : endianLoad 2 (endianStore 2 bs.length ++ (bs ++ rest)) = bs.length := by
    rw [endianLoad, List.take_left' (length_endianStore _ _)]
    exact BigEndian.load_store hlen
  have htake : (endianStore 2 bs.length ++ (bs ++ rest)).take 2 = endianStore 2 bs.length :=
    List.take_left' (length_endianStore _ _)
  have hdrop : (endianStore 2 bs.length ++ (bs ++ rest)).drop 2 = bs ++ rest :=
    List.drop_left' (length_endianStore _ _)
  rw [run_readLengthPrefixed]
  simp only [hload, hdrop, htake, List.take_left, hcheck, ← List.drop_drop, List.drop_left]
  have hlen : (endianStore 2 bs.length ++ (bs ++ rest)).length =
      2 + (bs.length + rest.length) := by
    simp only [List.length_append, length_endianStore]
  rw [hlen, if_neg]
  -- none of the errors can occur
  rintro (hshort | hshort | hbad)
  · omega
  · omega
  · exact nomatch hbad

/-! ### Properties -/

/-- The `// property` part, from the length on. -/
theorem run_readProperties_append {loc : PropertyLocation} {props : Properties}
    (hsize : props.size ≤ 0xfffffff)
    (hprops : (makeProperties loc).run props.constBufferSequence.flatten = .ok (props, []))
    (ec : ErrorCode) (rest : List UInt8) :
    (readProperties loc ec).run
        (valToVariableBytes props.size ++ (props.constBufferSequence.flatten ++ rest)) =
      .ok ((props.size, valToVariableBytes props.size, props), rest) := by
  -- the bytes of the properties are as many as their length says
  have hbytes := Properties.length_flatten_constBufferSequence props
  rw [readProperties, run_bind_of_ok (run_remaining _), variableBytesToVal_append hsize]
  have hlen : (valToVariableBytes props.size ++ (props.constBufferSequence.flatten ++ rest)).length
      - (props.constBufferSequence.flatten ++ rest).length =
      (valToVariableBytes props.size).length := by simp
  simp only [hlen]
  rw [run_bind_of_ok (run_substr_append rfl), run_bind_of_ok (run_removePrefix_append rfl),
    run_bind_of_ok (run_remaining _),
    run_bind_of_ok (run_failIf_of_not (by rw [List.length_append, hbytes]; omega) _ _),
    run_bind_of_ok (run_substr_append hbytes), run_bind_of_ok (run_onBuffer_of_ok hprops),
    run_bind_of_ok (run_removePrefix_append hbytes), run_pure]

end AsyncMqtt
