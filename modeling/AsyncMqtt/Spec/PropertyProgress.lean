import AsyncMqtt.Native.MakeProperties
import AsyncMqtt.Spec.PropertyDecode

/-!
# Property parsing makes progress and is all or nothing

`make_property_variant` returns on every buffer: with an error, or with a
property that it has read from at least two bytes at the front. So the loop of
`make_properties` comes to an end, where it has read the whole buffer or has
given up with an error and without properties.

The decoders of the packets use `AsyncMqtt.makePropertyVariant`, which keeps
neither references nor assertions; it gives the same results.

## Key results

- `PropertyParser.switchId_good`: what each branch of the switch returns
- `PropertyParser.Loop.run_returns`: the loop ends, and how
- `PropertyParser.run_makeProperties`: the decoder of the packets
- `PropertyParser.property_parsing_returns`: what each call and the loop return
-/

namespace AsyncMqtt

namespace PropertyParser

/-! ### The buffer -/

/-- What was read is handed on. -/
theorem bind_ok {α β : Type} (a : α) (f : α → Except Failure β) : (Except.ok a >>= f) = f a := rfl

/-- Bytes that are there are skipped. -/
theorem removePrefix_of_le {n : Nat} {buf : Buffer} (h : n ≤ buf.length) :
    removePrefix n buf = .ok (buf.drop n) := if_pos h

/-- Bytes that are there are taken. -/
theorem firstBytes_of_le {n : Nat} {buf : Buffer} (h : n ≤ buf.length) :
    firstBytes n buf = .ok (buf.take n) := if_pos h

/-- A position inside the buffer is looked at. -/
theorem substr_of_le {pos count : Nat} {buf : Buffer} (h : pos ≤ buf.length) :
    substr pos count buf = .ok ((buf.drop pos).take count) := if_pos h

/-- Two bytes are enough for a length. -/
theorem loadLength_of_le {buf : Buffer} (h : 2 ≤ buf.length) :
    loadLength buf = .ok (endianLoad 2 buf) := by
  rw [loadLength, firstBytes_of_le h, bind_ok]
  show Except.ok (endianLoad 2 (buf.take 2)) = _
  rw [endianLoad, List.take_take, Nat.min_self]
  rfl

/-- The length of a string that was read with a two-byte length is stored in two bytes again. -/
theorem storeLength_substr (buf : Buffer) :
    storeLength ((buf.drop 2).take (endianLoad 2 buf)) =
      .ok (endianStore 2 ((buf.drop 2).take (endianLoad 2 buf)).length) := by
  have hlen : ((buf.drop 2).take (endianLoad 2 buf)).length ≤ endianLoad 2 buf :=
    List.length_take_le _ _
  have hload : endianLoad 2 buf < 256 ^ 2 := endianLoad_lt 2 buf
  exact if_pos (by omega)

/-- A two-byte length announces as many bytes as there are. -/
theorem length_substr {buf : Buffer} (h : 2 + endianLoad 2 buf ≤ buf.length) :
    ((buf.drop 2).take (endianLoad 2 buf)).length = endianLoad 2 buf := by
  rw [List.length_take, List.length_drop]
  omega

/-! ### The branches without the accesses

No access is outside of the buffer, because the lengths are checked before.
-/

/-- A property of a fixed size is read if its bytes are there. -/
theorem nBytesProperty_eq (n : Nat) (id : PropertyId) (buf : Buffer) (ec : Option ErrorCode) :
    nBytesProperty n id buf ec =
      if buf.length < n then fail buf malformedPacket
      else done (.nBytes id (buf.take n)) (buf.drop n) ec := by
  unfold nBytesProperty
  split
  · rfl
  · have hle : n ≤ buf.length := by omega
    rw [firstBytes_of_le hle, bind_ok, removePrefix_of_le hle, bind_ok]

/-- A property of a fixed size is read if its bytes are there and allowed. -/
theorem checkedNBytesProperty_eq (n : Nat) (id : PropertyId) (check : Buffer → Option ErrorCode)
    (buf : Buffer) :
    checkedNBytesProperty n id check buf =
      if buf.length < n then fail buf malformedPacket
      else match check (buf.take n) with
        | some ec => fail buf ec
        | none => done (.nBytes id (buf.take n)) (buf.drop n) none := by
  unfold checkedNBytesProperty
  split
  · rfl
  · have hle : n ≤ buf.length := by omega
    rw [firstBytes_of_le hle, bind_ok, removePrefix_of_le hle]
    rfl

/-- A property with a length is read if its bytes are there and allowed. -/
theorem binaryProperty_eq (id : PropertyId) (check : Buffer → Bool) (buf : Buffer) :
    binaryProperty id check buf =
      if buf.length < 2 ∨ buf.length < 2 + endianLoad 2 buf then fail buf malformedPacket
      else if check ((buf.drop 2).take (endianLoad 2 buf)) = false then fail buf malformedPacket
      else done (.binary id (endianStore 2 (endianLoad 2 buf))
        ((buf.drop 2).take (endianLoad 2 buf))) (buf.drop (2 + endianLoad 2 buf)) none := by
  unfold binaryProperty
  by_cases htwo : buf.length < 2
  · rw [if_pos htwo, if_pos (.inl htwo)]
  · rw [if_neg htwo, loadLength_of_le (by omega), bind_ok]
    by_cases hlen : buf.length < 2 + endianLoad 2 buf
    · rw [if_pos hlen, if_pos (.inr hlen)]
    · have hle : 2 + endianLoad 2 buf ≤ buf.length := by omega
      have hload : endianLoad 2 buf < 256 ^ 2 := endianLoad_lt 2 buf
      -- so the first error of the constructor, for too many bytes, is never set
      rw [if_neg hlen, if_neg (by omega), substr_of_le (by omega), bind_ok, storeLength_substr,
        binaryError, length_substr hle, if_neg (by omega), removePrefix_of_le hle]
      cases check ((buf.drop 2).take (endianLoad 2 buf)) <;> rfl

/-- The value is read from what the key has left in the buffer. -/
theorem userProperty_eq {buf rest : Buffer} (hrest : buf.drop (2 + endianLoad 2 buf) = rest) :
    userProperty buf =
      if buf.length < 2 ∨ buf.length < 2 + endianLoad 2 buf then fail buf malformedPacket
      else if rest.length < 2 ∨ rest.length < 2 + endianLoad 2 rest then fail rest malformedPacket
      else if 0xffff < 2 + endianLoad 2 buf ∨ 0xffff < 2 + endianLoad 2 rest then
        fail rest malformedPacket
      else done (.user
          (endianStore 2 (endianLoad 2 buf)) ((buf.drop 2).take (endianLoad 2 buf))
          (endianStore 2 (endianLoad 2 rest)) ((rest.drop 2).take (endianLoad 2 rest)))
        (rest.drop (2 + endianLoad 2 rest)) none := by
  unfold userProperty
  by_cases htwo : buf.length < 2
  · rw [if_pos htwo, if_pos (.inl htwo)]
  · rw [if_neg htwo, loadLength_of_le (by omega), bind_ok]
    by_cases hlen : buf.length < 2 + endianLoad 2 buf
    · rw [if_pos hlen, if_pos (.inr hlen)]
    · have hle : 2 + endianLoad 2 buf ≤ buf.length := by omega
      rw [if_neg hlen, if_neg (by omega), substr_of_le (by omega), bind_ok,
        removePrefix_of_le hle, bind_ok, hrest]
      -- the value stands behind the key, and has a length of its own
      by_cases htwo' : rest.length < 2
      · rw [if_pos htwo', if_pos (.inl htwo')]
      · rw [if_neg htwo', loadLength_of_le (by omega), bind_ok]
        by_cases hlen' : rest.length < 2 + endianLoad 2 rest
        · rw [if_pos hlen', if_pos (.inr hlen')]
        · have hle' : 2 + endianLoad 2 rest ≤ rest.length := by omega
          rw [if_neg hlen', if_neg (by omega), substr_of_le (by omega), bind_ok,
            storeLength_substr, bind_ok, storeLength_substr, bind_ok, length_endianStore,
            length_endianStore, length_substr hle, length_substr hle', removePrefix_of_le hle',
            bind_ok]
          -- each length is checked against 16 bits once more
          by_cases hkey : 0xffff < 2 + endianLoad 2 buf
          · rw [if_pos hkey, if_pos (.inl hkey)]
          · by_cases hval : 0xffff < 2 + endianLoad 2 rest
            · rw [if_neg hkey, if_pos hval, if_pos (.inr hval)]
            · rw [if_neg hkey, if_neg hval, if_neg (by omega)]

/-! ### What a branch returns -/

/-- A call returns: nothing, and then with an error, or a property with the identifier, which it
    has read from at least one byte at the front of the buffer. -/
inductive Good (id : PropertyId) (buf : Buffer) : Call → Prop where
  | failed {buf' : Buffer} {ec : ErrorCode} : Good id buf (.ok ⟨none, buf', some ec⟩)
  | parsed {p : Property} {pre rest : Buffer} {ec : Option ErrorCode} (hid : p.id = id)
      (hpre : pre ≠ []) (hbuf : buf = pre ++ rest) : Good id buf (.ok ⟨some p, rest, ec⟩)

/-- A property that takes the first bytes of the buffer. -/
theorem Good.drop {id : PropertyId} {buf : Buffer} {p : Property} {n : Nat}
    {ec : Option ErrorCode} (hid : p.id = id) (hpos : 0 < n) (hn : n ≤ buf.length) :
    Good id buf (done p (buf.drop n) ec) := by
  refine .parsed hid ?_ (List.take_append_drop n buf).symm
  intro hnil
  have hlen := congrArg List.length hnil
  rw [List.length_take, List.length_nil] at hlen
  omega

/-- A property of a fixed size -/
theorem nBytesProperty_good {n : Nat} (hpos : 0 < n) (id : PropertyId) (buf : Buffer)
    (ec : Option ErrorCode) : Good id buf (nBytesProperty n id buf ec) := by
  rw [nBytesProperty_eq]
  split
  · exact .failed
  · exact .drop rfl hpos (by omega)

/-- A property of a fixed size whose value is checked -/
theorem checkedNBytesProperty_good {n : Nat} (hpos : 0 < n) (id : PropertyId)
    (check : Buffer → Option ErrorCode) (buf : Buffer) :
    Good id buf (checkedNBytesProperty n id check buf) := by
  rw [checkedNBytesProperty_eq]
  split
  · exact .failed
  · split
    · exact .failed
    · exact .drop rfl hpos (by omega)

/-- A property with binary data or a string -/
theorem binaryProperty_good (id : PropertyId) (check : Buffer → Bool) (buf : Buffer) :
    Good id buf (binaryProperty id check buf) := by
  rw [binaryProperty_eq]
  split
  · exact .failed
  · split
    · exact .failed
    · exact .drop rfl (by omega) (by omega)

/-- The subscription identifier -/
theorem subscriptionIdentifier_good (buf : Buffer) :
    Good .subscriptionIdentifier buf (subscriptionIdentifier buf) := by
  unfold subscriptionIdentifier
  split
  · next val it hval =>
    split
    · exact .failed
    · obtain ⟨pre, rfl, hpre, -⟩ := variableBytesToVal_eq_append hval
      have hlen : (pre ++ it).length - it.length = pre.length := by simp
      rw [removePrefix_of_le (by omega), bind_ok, hlen, List.drop_left]
      exact .parsed rfl hpre rfl
  · exact .failed

/-- The user property -/
theorem userProperty_good (buf : Buffer) : Good .userProperty buf (userProperty buf) := by
  obtain ⟨rest, hrest⟩ : ∃ rest, buf.drop (2 + endianLoad 2 buf) = rest := ⟨_, rfl⟩
  rw [userProperty_eq hrest]
  split
  · exact .failed
  · split
    · exact .failed
    · split
      · exact .failed
      · -- the key and the value are removed together
        have hdrop : rest.drop (2 + endianLoad 2 rest) =
            buf.drop (2 + endianLoad 2 buf + (2 + endianLoad 2 rest)) := by
          rw [← hrest, List.drop_drop]
        have hlen : rest.length = buf.length - (2 + endianLoad 2 buf) := by
          rw [← hrest, List.length_drop]
        rw [hdrop]
        exact .drop rfl (by omega) (by omega)

/-- Every identifier has its branch, and every branch returns. -/
theorem switchId_good (id : PropertyId) (buf : Buffer) (ec : Option ErrorCode) :
    Good id buf (switchId (some id) buf ec) := by
  cases id with
  | payloadFormatIndicator => exact checkedNBytesProperty_good (by decide) _ _ buf
  | receiveMaximum => exact checkedNBytesProperty_good (by decide) _ _ buf
  | maximumQos => exact checkedNBytesProperty_good (by decide) _ _ buf
  | maximumPacketSize => exact checkedNBytesProperty_good (by decide) _ _ buf
  | contentType | responseTopic | correlationData | assignedClientIdentifier
  | authenticationMethod | authenticationData | responseInformation | serverReference
  | reasonString => exact binaryProperty_good _ _ buf
  | subscriptionIdentifier => exact subscriptionIdentifier_good buf
  | userProperty => exact userProperty_good buf
  | _ => exact nBytesProperty_good (by decide) _ buf ec

/-- A known identifier is checked against the location. -/
@[simp] theorem validateId_some (loc : PropertyLocation) (id : PropertyId) :
    validateId loc (some id) = validateProperty loc id := rfl

/-- What a call of `make_property_variant` returns: nothing only with an error, and otherwise a
    property that is allowed at the location and was read from at least two bytes at the front of
    the buffer, of which the first is its identifier. -/
inductive Returns (loc : PropertyLocation) (buf : Buffer) : Call → Prop where
  | failed {buf' : Buffer} {ec : ErrorCode} : Returns loc buf (.ok ⟨none, buf', some ec⟩)
  | parsed {p : Property} {pre rest : Buffer} {ec : Option ErrorCode}
      (hloc : validateProperty loc p.id = true) (hpre : pre ≠ [])
      (hbuf : buf = p.id.toUInt8 :: pre ++ rest) : Returns loc buf (.ok ⟨some p, rest, ec⟩)

/-- A property with its identifier in front is read or refused. -/
theorem makePropertyVariant_returns (loc : PropertyLocation) (buf : Buffer)
    (ec : Option ErrorCode) : Returns loc buf (makePropertyVariant loc buf ec) := by
  unfold makePropertyVariant
  split
  · exact .failed
  · cases buf with
    | nil => contradiction
    | cons b tail =>
      show Returns loc (b :: tail) (if validateId loc (PropertyId.ofUInt8 b) = false
        then fail (b :: tail) malformedPacket
        else removePrefix 1 (b :: tail) >>= fun rest => switchId (PropertyId.ofUInt8 b) rest ec)
      split
      · exact .failed
      · next hvalid =>
        rw [removePrefix_of_le (by simp), bind_ok, List.drop_one, List.tail_cons]
        cases hid : PropertyId.ofUInt8 b with
        | none =>
          -- a byte that is no identifier is refused before the switch
          rw [hid] at hvalid
          exact absurd rfl hvalid
        | some id =>
          obtain rfl := ofUInt8_eq_some hid
          have hloc : validateProperty loc id = true := by
            rw [hid, validateId_some] at hvalid
            exact Bool.eq_true_of_not_eq_false hvalid
          have hgood := switchId_good id tail ec
          generalize switchId (some id) tail ec = call at hgood ⊢
          cases hgood with
          | failed => exact .failed
          | parsed hpid hpre hbuf =>
            subst hpid
            exact .parsed hloc hpre (by rw [hbuf]; rfl)

/-! ### The loop -/

/-- A property takes two bytes or more. -/
theorem length_of_parsed {buf pre rest : Buffer} {b : UInt8} (hpre : pre ≠ [])
    (hbuf : buf = b :: pre ++ rest) : rest.length + 2 ≤ buf.length := by
  have hpos := List.length_pos_iff.mpr hpre
  rw [hbuf, List.length_append, List.length_cons]
  omega

/-- The properties are what calls of `make_property_variant` read one after another, up to the end
    of the buffer, and each of them is allowed at the location. -/
inductive Covers (loc : PropertyLocation) : Buffer → Properties → Prop where
  | nil : Covers loc [] []
  | cons {buf rest : Buffer} {p : Property} {props : Properties} {ec : Option ErrorCode}
      (hcall : makePropertyVariant loc buf ec = .ok ⟨some p, rest, none⟩)
      (hloc : validateProperty loc p.id = true) (hrest : Covers loc rest props) :
      Covers loc buf (p :: props)

/-- From any round on the loop ends within half as many rounds as there are bytes, and one more:
    with the properties that are left in the buffer, or with an error and no properties at all. -/
theorem Loop.run_returns (loc : PropertyLocation) (n : Nat) :
    ∀ s : Loop, s.buf.length / 2 < n → (s.ec.isSome → s.props = []) →
      ∃ props ec, Loop.run loc n s = some (.ok (props, ec)) ∧
        ((ec = none ∧ ∃ more, props = s.props ++ more ∧ Covers loc s.buf more) ∨
          (ec.isSome ∧ props = [])) := by
  -- the induction is on the number of properties that can still be read
  induction n with
  | zero => exact fun s hn => absurd hn (Nat.not_lt_zero _)
  | succ n ih =>
    rintro ⟨props, buf, ec⟩ hn hec
    rw [Loop.run, Loop.round]
    by_cases hbuf : buf = []
    · subst hbuf
      refine ⟨props, ec, rfl, ?_⟩
      cases ec with
      | none => exact .inl ⟨rfl, [], (List.append_nil _).symm, .nil⟩
      | some ec => exact .inr ⟨rfl, hec rfl⟩
    · rw [if_neg hbuf]
      have hreturns := makePropertyVariant_returns loc buf ec
      cases hcall : makePropertyVariant loc buf ec with
      | error failure =>
        rw [hcall] at hreturns
        exact nomatch hreturns
      | ok returned =>
        rw [hcall] at hreturns
        rw [bind_ok]
        cases hreturns with
        | failed => exact ⟨[], _, rfl, .inr ⟨rfl, rfl⟩⟩
        | @parsed p pre rest ec' hloc hpre hsplit =>
          -- an error stops the loop, and the properties read so far are dropped
          cases ec' with
          | some ec' => exact ⟨[], _, rfl, .inr ⟨rfl, rfl⟩⟩
          | none =>
            have hlen : rest.length / 2 < n := by
              have hfewer := length_of_parsed hpre hsplit
              simp only at hn
              omega
            -- the rest is shorter, so that the loop ends
            obtain ⟨props', ec', hrun, hresult⟩ :=
              ih ⟨props ++ [p], rest, none⟩ hlen (fun hsome => nomatch hsome)
            refine ⟨props', ec', hrun, ?_⟩
            obtain ⟨hnone, more, hprops, hcovers⟩ | herror := hresult
            · refine .inl ⟨hnone, p :: more, ?_, .cons hcall hloc hcovers⟩
              rw [hprops, List.append_assoc, List.singleton_append]
            · exact .inr herror

/-! ### The decoders of the packets -/

open ByteReader

/-- A call that starts without an error, as a run of a decoder. -/
def result : Call → Except (Stop ErrorCode) (Property × Buffer)
  | .ok ⟨some p, buf, none⟩ => .ok (p, buf)
  | .ok ⟨_, _, some ec⟩ => .error (.error ec)
  | _ => .error .outOfBounds

/-- A property of a fixed size is read alike by both. -/
theorem run_nBytesProperty (n : Nat) (id : PropertyId) (buf : Buffer) :
    (makeNBytesProperty n id fun _ => none).run buf = result (nBytesProperty n id buf none) := by
  rw [makeNBytesProperty, run_bind_of_ok (run_remaining _), nBytesProperty_eq]
  by_cases hlen : buf.length < n
  · rw [run_bind, run_failIf, if_pos hlen, if_pos hlen]
    rfl
  · have hle : n ≤ buf.length := by omega
    rw [run_bind_of_ok (run_failIf_of_not hlen _ _), run_bind_of_ok (run_substr (Nat.zero_le _)),
      run_bind_of_ok (run_removePrefix hle), if_neg hlen, List.drop_zero]
    rfl

/-- A property of a fixed size whose value is checked is read alike by both. -/
theorem run_checkedNBytesProperty (n : Nat) (id : PropertyId) (check : Buffer → Option ErrorCode)
    (buf : Buffer) :
    (makeNBytesProperty n id check).run buf = result (checkedNBytesProperty n id check buf) := by
  rw [makeNBytesProperty, run_bind_of_ok (run_remaining _), checkedNBytesProperty_eq]
  by_cases hlen : buf.length < n
  · rw [run_bind, run_failIf, if_pos hlen, if_pos hlen]
    rfl
  · have hle : n ≤ buf.length := by omega
    rw [run_bind_of_ok (run_failIf_of_not hlen _ _), run_bind_of_ok (run_substr (Nat.zero_le _)),
      if_neg hlen, List.drop_zero]
    cases check (buf.take n) with
    | some ec => rfl
    | none =>
      dsimp only
      rw [run_bind_of_ok (run_removePrefix hle)]
      rfl

/-- A property with a length is read alike by both. -/
theorem run_binaryProperty (id : PropertyId) (check : Buffer → Bool) (buf : Buffer) :
    (makeBinaryProperty id check).run buf = result (binaryProperty id check buf) := by
  rw [makeBinaryProperty, run_bind, run_peekLengthPrefixed, binaryProperty_eq]
  by_cases hlen : buf.length < 2 ∨ buf.length < 2 + endianLoad 2 buf
  · rw [if_pos hlen, if_pos hlen]
    rfl
  · have hle : 2 + endianLoad 2 buf ≤ buf.length := by omega
    rw [if_neg hlen, if_neg hlen]
    dsimp only
    by_cases hcheck : check ((buf.drop 2).take (endianLoad 2 buf)) = false
    · rw [run_bind, run_failIf, if_pos hcheck, if_pos hcheck]
      rfl
    · rw [run_bind_of_ok (run_failIf_of_not hcheck _ _), if_neg hcheck, length_substr hle,
        run_bind_of_ok (run_removePrefix hle), run_pure]
      rfl

/-- The subscription identifier is read alike by both. -/
theorem run_subscriptionIdentifier (buf : Buffer) :
    makeSubscriptionIdentifier.run buf = result (subscriptionIdentifier buf) := by
  rw [makeSubscriptionIdentifier, run_bind_of_ok (run_remaining _), subscriptionIdentifier]
  cases hval : variableBytesToVal buf with
  | none => rfl
  | some read =>
    obtain ⟨val, it⟩ := read
    dsimp only
    by_cases hzero : val = 0
    · rw [run_bind, run_failIf, if_pos hzero, if_pos hzero]
      rfl
    · have hle : buf.length - it.length ≤ buf.length := Nat.sub_le _ _
      rw [run_bind_of_ok (run_failIf_of_not hzero _ _), run_bind_of_ok (run_removePrefix hle),
        if_neg hzero, removePrefix_of_le hle, bind_ok]
      rfl

/-- The user property is read alike by both. -/
theorem run_userProperty (buf : Buffer) :
    makeUserProperty.run buf = result (userProperty buf) := by
  obtain ⟨rest, hrest⟩ : ∃ rest, buf.drop (2 + endianLoad 2 buf) = rest := ⟨_, rfl⟩
  rw [makeUserProperty, run_bind, run_peekLengthPrefixed, userProperty_eq hrest]
  -- both readers find the key or fail
  by_cases hlen : buf.length < 2 ∨ buf.length < 2 + endianLoad 2 buf
  · rw [if_pos hlen, if_pos hlen]
    rfl
  · have hle : 2 + endianLoad 2 buf ≤ buf.length := by omega
    rw [if_neg hlen, if_neg hlen]
    dsimp only
    rw [length_substr hle, run_bind_of_ok (run_removePrefix hle), hrest, run_bind,
      run_peekLengthPrefixed]
    -- both readers find the value or fail
    by_cases hlen' : rest.length < 2 ∨ rest.length < 2 + endianLoad 2 rest
    · rw [if_pos hlen', if_pos hlen']
      rfl
    · have hle' : 2 + endianLoad 2 rest ≤ rest.length := by omega
      rw [if_neg hlen', if_neg hlen']
      dsimp only
      rw [length_substr hle']
      by_cases hkey : 0xffff < 2 + endianLoad 2 buf
      · rw [run_bind, run_failIf, if_pos hkey, if_pos (.inl hkey)]
        rfl
      · rw [run_bind_of_ok (run_failIf_of_not hkey _ _)]
        by_cases hval : 0xffff < 2 + endianLoad 2 rest
        · rw [run_bind, run_failIf, if_pos hval, if_pos (.inr hval)]
          rfl
        · rw [run_bind_of_ok (run_failIf_of_not hval _ _), if_neg (by omega),
            run_bind_of_ok (run_removePrefix hle'), run_pure]
          rfl

/-- Every property is read alike by both. -/
theorem run_switchId (id : PropertyId) (buf : Buffer) :
    (makePropertyOfId id).run buf = result (switchId (some id) buf none) := by
  cases id with
  | payloadFormatIndicator => exact run_checkedNBytesProperty 1 _ _ buf
  | receiveMaximum => exact run_checkedNBytesProperty 2 _ _ buf
  | maximumQos => exact run_checkedNBytesProperty 1 _ _ buf
  | maximumPacketSize => exact run_checkedNBytesProperty 4 _ _ buf
  | contentType | responseTopic | correlationData | assignedClientIdentifier
  | authenticationMethod | authenticationData | responseInformation | serverReference
  | reasonString => exact run_binaryProperty _ _ buf
  | subscriptionIdentifier => exact run_subscriptionIdentifier buf
  | userProperty => exact run_userProperty buf
  | _ => exact run_nBytesProperty _ _ buf

/-- A call of the packets' decoder, which stops at the errors, has the result of the source's. -/
theorem run_makePropertyVariant (loc : PropertyLocation) (buf : Buffer) :
    (AsyncMqtt.makePropertyVariant loc).run buf = result (makePropertyVariant loc buf none) := by
  rw [AsyncMqtt.makePropertyVariant, run_bind_of_ok (run_remaining _), makePropertyVariant]
  cases buf with
  | nil => rfl
  | cons b tail =>
    rw [run_bind_of_ok (run_failIf_of_not (List.cons_ne_nil _ _) _ _),
      run_bind_of_ok (run_front_cons _ _), if_neg (List.cons_ne_nil _ _)]
    show _ = result (if validateId loc (PropertyId.ofUInt8 b) = false
      then fail (b :: tail) malformedPacket
      else removePrefix 1 (b :: tail) >>= fun rest => switchId (PropertyId.ofUInt8 b) rest none)
    cases PropertyId.ofUInt8 b with
    | none => rfl
    | some id =>
      rw [validateId_some]
      show (failIf (AsyncMqtt.validateProperty loc id = false) malformedPacket >>=
        fun _ => _).run (b :: tail) = _
      by_cases hvalid : AsyncMqtt.validateProperty loc id = false
      · rw [run_bind, run_failIf, if_pos hvalid, if_pos hvalid]
        rfl
      · rw [run_bind_of_ok (run_failIf_of_not hvalid _ _),
          run_bind_of_ok (run_removePrefix_one_cons _ _), if_neg hvalid,
          removePrefix_of_le (by simp), bind_ok]
        exact run_switchId id tail

/-- A run of the packets' decoder, as what the loop returns that has read some properties before. -/
def finish (props : Properties) :
    Except (Stop ErrorCode) (Properties × Buffer) → Except Failure (Properties × Option ErrorCode)
  | .ok (more, _) => .ok (props ++ more, none)
  | .error (.error ec) => .ok ([], some ec)
  | .error .outOfBounds => .error .outOfBounds

/-- The loop with an accumulator does what the decoder does that conses its properties. -/
theorem Loop.run_many_go (loc : PropertyLocation) (n : Nat) :
    ∀ (props : Properties) (buf : Buffer) (fuel : Nat), buf.length / 2 < n → buf.length ≤ fuel →
      Loop.run loc n ⟨props, buf, none⟩ =
        some (finish props ((many.go (AsyncMqtt.makePropertyVariant loc) fuel).run buf)) := by
  induction n with
  | zero => exact fun _ _ _ hn => absurd hn (Nat.not_lt_zero _)
  | succ n ih =>
    intro props buf fuel hn hfuel
    rw [Loop.run, Loop.round]
    by_cases hbuf : buf = []
    · subst hbuf
      rw [run_many_go_nil, finish, List.append_nil]
      rfl
    · obtain ⟨fuel, rfl⟩ : ∃ k, fuel = k + 1 := by
        have hpos := List.length_pos_iff.mpr hbuf
        exact ⟨fuel - 1, by omega⟩
      rw [if_neg hbuf, many.go, run_bind_of_ok (run_remaining _), if_neg hbuf, run_bind,
        run_makePropertyVariant]
      have hreturns := makePropertyVariant_returns loc buf none
      generalize makePropertyVariant loc buf none = call at hreturns ⊢
      cases hreturns with
      | failed => rfl
      | @parsed p pre rest ec hloc hpre hsplit =>
        cases ec with
        | some ec => rfl
        | none =>
          -- the same round on both sides
          have hfewer := length_of_parsed hpre hsplit
          show Loop.run loc n ⟨props ++ [p], rest, none⟩ = some (finish props
            ((many.go (AsyncMqtt.makePropertyVariant loc) fuel >>= fun as => pure (p :: as)).run
              rest))
          rw [ih (props ++ [p]) rest fuel (by omega) (by omega), run_bind]
          cases (many.go (AsyncMqtt.makePropertyVariant loc) fuel).run rest with
          | error stop => cases stop <;> rfl
          | ok read =>
            show some (Except.ok (props ++ [p] ++ read.1, none)) =
              some (Except.ok (props ++ p :: read.1, none))
            rw [List.append_assoc, List.singleton_append]

/-- The properties that the packets are decoded with are those of the loop. -/
theorem run_makeProperties (loc : PropertyLocation) (buf : Buffer) :
    Loop.run loc (buf.length / 2 + 1) ⟨[], buf, none⟩ =
      some (finish [] ((makeProperties loc).run buf)) := by
  rw [makeProperties, many, run_bind_of_ok (run_remaining _)]
  exact Loop.run_many_go loc _ [] buf buf.length (Nat.lt_succ_self _) (Nat.le_refl _)

/-- On every buffer and for every location each call of `make_property_variant` returns without a
    failed assertion or an access outside of the buffer, and takes two bytes or more if it succeeds;
    and `make_properties` ends, with properties that cover the buffer or with an error and none.
    These are the properties with which the packets are decoded. -/
theorem property_parsing_returns (loc : PropertyLocation) (buf : Buffer)
    (ec : Option ErrorCode) :
    (∃ r, makePropertyVariant loc buf ec = .ok r ∧ (r.pvOpt = none → r.ec.isSome) ∧
      ∀ p, r.pvOpt = some p → validateProperty loc p.id = true ∧
        ∃ pre, buf = pre ++ r.buf ∧ 2 ≤ pre.length ∧ pre.head? = some p.id.toUInt8) ∧
    ∃ props ec', Loop.run loc (buf.length / 2 + 1) ⟨[], buf, ec⟩ = some (.ok (props, ec')) ∧
      ((ec' = none ∧ Covers loc buf props) ∨ (ec'.isSome ∧ props = [])) ∧
      (ec = none → Except.ok (props, ec') = finish [] ((makeProperties loc).run buf)) := by
  constructor
  · have hreturns := makePropertyVariant_returns loc buf ec
    generalize makePropertyVariant loc buf ec = call at hreturns
    cases hreturns with
    | failed => exact ⟨_, rfl, fun _ => rfl, fun p hp => nomatch hp⟩
    | @parsed p pre rest ec' hloc hpre hbuf =>
      refine ⟨_, rfl, fun hnone => (nomatch hnone), fun p' hp => ?_⟩
      obtain rfl := Option.some.inj hp
      have hpos := List.length_pos_iff.mpr hpre
      exact ⟨hloc, p.id.toUInt8 :: pre, hbuf, Nat.succ_le_succ hpos, rfl⟩
  · obtain ⟨props, ec', hrun, hresult⟩ := Loop.run_returns loc (buf.length / 2 + 1) ⟨[], buf, ec⟩
      (Nat.lt_succ_self _) (fun _ => rfl)
    refine ⟨props, ec', hrun, ?_, ?_⟩
    · obtain ⟨hnone, more, hprops, hcovers⟩ | herror := hresult
      · rw [List.nil_append] at hprops
        exact .inl ⟨hnone, hprops ▸ hcovers⟩
      · exact .inr herror
    · rintro rfl
      exact Option.some.inj (hrun.symm.trans (run_makeProperties loc buf))

end PropertyParser

end AsyncMqtt
