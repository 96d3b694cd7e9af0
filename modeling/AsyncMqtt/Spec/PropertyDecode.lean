import AsyncMqtt.Spec.DecodeSafety
import AsyncMqtt.Spec.WireCorrect

/-!
# When a property is decoded

For each branch of `make_property_variant` the bytes that it accepts and the property that it gives.
Both directions are used: encoded properties are read back because of one, and what a decoded
property can be follows from the other.

## Key results

- `run_makePropertyVariant_eq_ok`: the identifier is in front and allowed, and its branch follows
- `run_readProperties_ok`: the length, and the properties in that many bytes
-/

namespace AsyncMqtt

open ByteReader

variable {loc : PropertyLocation} {id : PropertyId} {buf rest : List UInt8} {p : Property}

/-! ### Properties of a fixed size -/

theorem run_makeNBytesProperty_eq_ok {n : Nat} {check : Buffer → Option ErrorCode} :
    (makeNBytesProperty n id check).run buf = .ok (p, rest) ↔
      ∃ bs, buf = bs ++ rest ∧ bs.length = n ∧ check bs = none ∧ p = .nBytes id bs := by
  constructor
  · intro h
    rw [makeNBytesProperty, run_bind_of_ok (run_remaining _)] at h
    obtain ⟨hle, h⟩ := run_failIf_bind_ok h
    rw [run_bind_of_ok (run_substr (Nat.zero_le _)), List.drop_zero] at h
    split at h
    · exact nomatch h
    · next hcheck =>
      rw [run_bind_of_ok (run_removePrefix (by omega)), run_pure] at h
      cases h
      exact ⟨_, (List.take_append_drop n _).symm, by simp; omega, hcheck, rfl⟩
  · rintro ⟨bs, rfl, hlen, hcheck, rfl⟩
    have hle : ¬ (bs ++ rest).length < n := by simp [hlen]
    rw [makeNBytesProperty, run_bind_of_ok (run_remaining _),
      run_bind_of_ok (run_failIf_of_not hle _ _), run_bind_of_ok (run_substr_append hlen), hcheck]
    simp only
    rw [run_bind_of_ok (run_removePrefix_append hlen), run_pure]

/-! ### Strings and binary data -/

theorem run_peekLengthPrefixed_append {bs : Buffer} (hlen : bs.length < 2 ^ 16)
    (rest : List UInt8) :
    peekLengthPrefixed.run (endianStore 2 bs.length ++ (bs ++ rest)) =
      .ok (bs, endianStore 2 bs.length ++ (bs ++ rest)) := by
  have hload : endianLoad 2 (endianStore 2 bs.length ++ (bs ++ rest)) = bs.length := by
    rw [endianLoad, List.take_left' (length_endianStore _ _)]
    exact BigEndian.load_store hlen
  have hdrop : (endianStore 2 bs.length ++ (bs ++ rest)).drop 2 = bs ++ rest :=
    List.drop_left' (length_endianStore _ _)
  have htotal : (endianStore 2 bs.length ++ (bs ++ rest)).length =
      2 + (bs.length + rest.length) := by
    simp only [List.length_append, length_endianStore]
  rw [run_peekLengthPrefixed, hload, hdrop, htotal, if_neg (by omega), List.take_left]

/-- The length and the bytes that were looked at are removed. -/
theorem run_removeLengthPrefixed (bs : Buffer) (rest : List UInt8) :
    (removePrefix (2 + bs.length) : Decoder Unit).run (endianStore 2 bs.length ++ (bs ++ rest)) =
      .ok ((), rest) := by
  rw [← List.append_assoc]
  exact run_removePrefix_append (by simp)

theorem run_peekLengthPrefixed_eq_ok {bs : Buffer} :
    peekLengthPrefixed.run buf = .ok (bs, rest) ↔
      rest = buf ∧ bs.length < 2 ^ 16 ∧ ∃ tail, buf = endianStore 2 bs.length ++ (bs ++ tail) := by
  constructor
  · intro h
    rw [run_peekLengthPrefixed] at h
    split at h
    · exact nomatch h
    · next hlen =>
      cases h
      have hbs : ((buf.drop 2).take (endianLoad 2 buf)).length = endianLoad 2 buf := by
        simp only [List.length_take, List.length_drop]
        omega
      have htake : (buf.take 2).length = 2 := by
        simp only [List.length_take]
        omega
      -- the length bytes are those that the length would be written with
      have hstore : endianStore 2 (endianLoad 2 buf) = buf.take 2 := by
        have := BigEndian.store_load (buf.take 2)
        rwa [htake] at this
      refine ⟨rfl, by rw [hbs]; exact endianLoad_lt 2 buf, (buf.drop 2).drop (endianLoad 2 buf), ?_⟩
      rw [hbs, hstore, List.take_append_drop, List.take_append_drop]
  · rintro ⟨rfl, hlen, tail, rfl⟩
    exact run_peekLengthPrefixed_append hlen tail

theorem run_makeBinaryProperty_eq_ok {check : Buffer → Bool} :
    (makeBinaryProperty id check).run buf = .ok (p, rest) ↔
      ∃ bs, buf = endianStore 2 bs.length ++ (bs ++ rest) ∧ bs.length < 2 ^ 16 ∧
        check bs = true ∧ p = .binary id (endianStore 2 bs.length) bs := by
  constructor
  · intro h
    obtain ⟨bs, _, hbs, htail⟩ := run_bind_ok h
    obtain ⟨rfl, hlen, tail, rfl⟩ := run_peekLengthPrefixed_eq_ok.mp hbs
    obtain ⟨hcheck, htail⟩ := run_failIf_bind_ok htail
    rw [run_bind_of_ok (run_removeLengthPrefixed _ _), run_pure] at htail
    cases htail
    exact ⟨bs, rfl, hlen, by simpa using hcheck, rfl⟩
  · rintro ⟨bs, rfl, hlen, hcheck, rfl⟩
    rw [makeBinaryProperty, run_bind_of_ok (run_peekLengthPrefixed_append hlen _),
      run_bind_of_ok (run_failIf_of_not (by simp [hcheck]) _ _),
      run_bind_of_ok (run_removeLengthPrefixed _ _), run_pure]

/-- Only the sizes of the two strings are checked. -/
theorem run_makeUserProperty_eq_ok :
    makeUserProperty.run buf = .ok (p, rest) ↔
      ∃ key val, buf = endianStore 2 key.length ++ (key ++ (endianStore 2 val.length ++
          (val ++ rest))) ∧ key.length ≤ 65533 ∧ val.length ≤ 65533 ∧
        p = .user (endianStore 2 key.length) key (endianStore 2 val.length) val := by
  constructor
  -- both strings were read, and their lengths are the bytes before them
  · intro h
    obtain ⟨key, _, hkey, hafter⟩ := run_bind_ok h
    obtain ⟨rfl, hkeyLen, _, rfl⟩ := run_peekLengthPrefixed_eq_ok.mp hkey
    rw [run_bind_of_ok (run_removeLengthPrefixed _ _)] at hafter
    obtain ⟨val, _, hval, htail⟩ := run_bind_ok hafter
    obtain ⟨rfl, hvalLen, _, rfl⟩ := run_peekLengthPrefixed_eq_ok.mp hval
    obtain ⟨hkeyOk, htail⟩ := run_failIf_bind_ok htail
    obtain ⟨hvalOk, htail⟩ := run_failIf_bind_ok htail
    rw [run_bind_of_ok (run_removeLengthPrefixed _ _), run_pure] at htail
    cases htail
    exact ⟨key, val, rfl, by omega, by omega, rfl⟩
  · rintro ⟨key, val, rfl, hkey, hval, rfl⟩
    rw [makeUserProperty, run_bind_of_ok (run_peekLengthPrefixed_append (by omega) _),
      run_bind_of_ok (run_removeLengthPrefixed _ _),
      run_bind_of_ok (run_peekLengthPrefixed_append (by omega) _),
      run_bind_of_ok (run_failIf_of_not (by omega) _ _),
      run_bind_of_ok (run_failIf_of_not (by omega) _ _),
      run_bind_of_ok (run_removeLengthPrefixed _ _), run_pure]

/-! ### Subscription identifiers -/

/-- What stands behind the integer is the end of the buffer. -/
theorem run_removePrefix_variableBytes {val : Nat} (h : variableBytesToVal buf = some (val, rest)) :
    (removePrefix (buf.length - rest.length) : Decoder Unit).run buf = .ok ((), rest) := by
  obtain ⟨pre, rfl, -, -⟩ := variableBytesToVal_eq_append h
  exact run_removePrefix_append (by simp)

theorem run_makeSubscriptionIdentifier_eq_ok :
    makeSubscriptionIdentifier.run buf = .ok (p, rest) ↔
      ∃ val, variableBytesToVal buf = some (val, rest) ∧ val ≠ 0 ∧
        p = .variableLen .subscriptionIdentifier (valToVariableBytes val) := by
  rw [makeSubscriptionIdentifier, run_bind_of_ok (run_remaining _)]
  constructor
  · intro h
    split at h
    · exact nomatch h
    · next val rest' hval =>
      obtain ⟨hne, h⟩ := run_failIf_bind_ok h
      rw [run_bind_of_ok (run_removePrefix_variableBytes hval), run_pure] at h
      cases h
      exact ⟨val, hval, hne, rfl⟩
  · rintro ⟨val, hval, hne, rfl⟩
    rw [hval]
    simp only
    rw [run_bind_of_ok (run_failIf_of_not hne _ _),
      run_bind_of_ok (run_removePrefix_variableBytes hval), run_pure]

/-! ### Any property -/

theorem ofUInt8_toUInt8 (id : PropertyId) : PropertyId.ofUInt8 id.toUInt8 = some id := by
  cases id <;> rfl

theorem ofUInt8_eq_some {b : UInt8} (h : PropertyId.ofUInt8 b = some id) : b = id.toUInt8 := by
  rw [← UInt8.toNat_inj]
  unfold PropertyId.ofUInt8 at h
  split at h <;> cases h <;> assumption

/-- The identifier is read, and picks the branch of the `switch`. -/
theorem run_makePropertyVariant_eq_ok :
    (makePropertyVariant loc).run buf = .ok (p, rest) ↔
      ∃ id tail, buf = id.toUInt8 :: tail ∧ validateProperty loc id = true ∧
        (makePropertyOfId id).run tail = .ok (p, rest) := by
  rw [makePropertyVariant, run_bind_of_ok (run_remaining _)]
  constructor
  · intro h
    obtain ⟨hne, h⟩ := run_failIf_bind_ok h
    -- the first byte is the identifier, and its place has to be allowed
    cases buf with
    | nil => exact absurd rfl hne
    | cons b tail =>
      rw [run_bind_of_ok (run_front_cons _ _)] at h
      split at h
      · exact nomatch h
      · next id hid =>
        obtain rfl := ofUInt8_eq_some hid
        obtain ⟨hloc, h⟩ := run_failIf_bind_ok h
        rw [run_bind_of_ok (run_removePrefix_one_cons _ _)] at h
        exact ⟨id, tail, rfl, by simpa using hloc, h⟩
  · rintro ⟨id, tail, rfl, hloc, h⟩
    rw [run_bind_of_ok (run_failIf_of_not (by simp) _ _), run_bind_of_ok (run_front_cons _ _),
      ofUInt8_toUInt8]
    simp only
    rw [run_bind_of_ok (run_failIf_of_not (by simp [hloc]) _ _),
      run_bind_of_ok (run_removePrefix_one_cons _ _), h]

/-- A property is decoded under the identifier that was read. -/
theorem makePropertyOfId_id (h : (makePropertyOfId id).run buf = .ok (p, rest)) : p.id = id := by
  cases id with
  | subscriptionIdentifier =>
    obtain ⟨_, -, -, rfl⟩ := run_makeSubscriptionIdentifier_eq_ok.mp h
    rfl
  | userProperty =>
    obtain ⟨_, _, -, -, -, rfl⟩ := run_makeUserProperty_eq_ok.mp h
    rfl
  | contentType | responseTopic | assignedClientIdentifier | authenticationMethod
  | responseInformation | serverReference | reasonString | correlationData
  | authenticationData =>
    simp only [makePropertyOfId] at h
    obtain ⟨_, -, -, -, rfl⟩ := run_makeBinaryProperty_eq_ok.mp h
    rfl
  | _ =>
    simp only [makePropertyOfId] at h
    obtain ⟨_, -, -, -, rfl⟩ := run_makeNBytesProperty_eq_ok.mp h
    rfl

/-- The length that is read, and the properties that are read from that many bytes. -/
theorem run_readProperties_ok {ec : ErrorCode} {n : Nat} {lenBuf : Buffer} {props : Properties}
    (h : (readProperties loc ec).run buf = .ok ((n, lenBuf, props), rest)) :
    ∃ bs left, variableBytesToVal buf = some (n, bs ++ rest) ∧ buf = lenBuf ++ (bs ++ rest) ∧
      bs.length = n ∧ (makeProperties loc).run bs = .ok (props, left) := by
  rw [readProperties, run_bind_of_ok (run_remaining _)] at h
  split at h
  · cases h
  · next val tail hval =>
    obtain ⟨pre, rfl, -, -⟩ := variableBytesToVal_eq_append hval
    have hlen : (pre ++ tail).length - tail.length = pre.length := by simp
    simp only [hlen] at h
    rw [run_bind_of_ok (run_substr_append rfl), run_bind_of_ok (run_removePrefix_append rfl),
      run_bind_of_ok (run_remaining _)] at h
    -- the properties take as many bytes as their length says
    obtain ⟨hle, h⟩ := run_failIf_bind_ok h
    rw [run_bind_of_ok (run_substr (Nat.zero_le _)), List.drop_zero] at h
    have hle' : val ≤ tail.length := by omega
    obtain ⟨props', buf', hprops, hrest⟩ := run_bind_ok h
    obtain ⟨hbuf, left, hmany⟩ := run_onBuffer_ok hprops
    rw [hbuf, run_bind_of_ok (run_removePrefix hle'), run_pure] at hrest
    cases hrest
    have htotal : (tail.take n).length = n := by simp [hle']
    refine ⟨tail.take n, left, ?_, ?_, htotal, hmany⟩
    · rw [List.take_append_drop, hval]
    · rw [List.take_append_drop]

end AsyncMqtt
