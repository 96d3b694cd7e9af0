import AsyncMqtt.Spec.PropertyDecode
import AsyncMqtt.Spec.RoundTripV5

/-!
# Properties: decoding what was encoded

Every list of properties that the public constructors build and that its location allows, encoded by
`const_buffer_sequence` and decoded by `make_properties`. Constructors and decoders check the limits
on their own, and disagree about two kinds of properties: those are the exceptions in
`Property.Call.InRange`.

## Key results

- `Property.ReadBack`: a property is read back, whatever follows it
- `Property.readBack_of_build`: what a constructor builds from arguments in range is read back
- `Property.round_trips_iff`: the constructor calls whose list comes back
-/

namespace AsyncMqtt

open ByteReader

namespace Property

/-! ### Constructor calls -/

/-- A call of a public constructor of a property. -/
inductive Call where
  | payloadFormatIndicator (fmt : PayloadFormat)
  | messageExpiryInterval (val : UInt32)
  | contentType (val : Buffer)
  | responseTopic (val : Buffer)
  | correlationData (val : Buffer)
  | subscriptionIdentifier (val : UInt32)
  | sessionExpiryInterval (val : UInt32)
  | assignedClientIdentifier (val : Buffer)
  | serverKeepAlive (val : UInt16)
  | authenticationMethod (val : Buffer)
  | authenticationData (val : Buffer)
  | requestProblemInformation (value : Bool)
  | willDelayInterval (val : UInt32)
  | requestResponseInformation (value : Bool)
  | responseInformation (val : Buffer)
  | serverReference (val : Buffer)
  | reasonString (val : Buffer)
  | receiveMaximum (val : UInt16)
  | topicAliasMaximum (val : UInt16)
  | topicAlias (val : UInt16)
  | maximumQos (value : UInt8)
  | retainAvailable (value : Bool)
  | userProperty (key val : Buffer)
  | maximumPacketSize (val : UInt32)
  | wildcardSubscriptionAvailable (value : Bool)
  | subscriptionIdentifierAvailable (value : Bool)
  | sharedSubscriptionAvailable (value : Bool)

/-- The property that the call builds, or what it throws. -/
def Call.build : Call → Except Exception Property
  | payloadFormatIndicator fmt => .ok (Property.payloadFormatIndicator fmt)
  | messageExpiryInterval val => .ok (Property.messageExpiryInterval val.toNat)
  | contentType val => Property.contentType val
  | responseTopic val => Property.responseTopic val
  | correlationData val => Property.correlationData val
  | subscriptionIdentifier val => Property.subscriptionIdentifier val.toNat
  | sessionExpiryInterval val => .ok (Property.sessionExpiryInterval val.toNat)
  | assignedClientIdentifier val => Property.assignedClientIdentifier val
  | serverKeepAlive val => .ok (Property.serverKeepAlive val.toNat)
  | authenticationMethod val => Property.authenticationMethod val
  | authenticationData val => Property.authenticationData val
  | requestProblemInformation value => .ok (Property.requestProblemInformation value)
  | willDelayInterval val => .ok (Property.willDelayInterval val.toNat)
  | requestResponseInformation value => .ok (Property.requestResponseInformation value)
  | responseInformation val => Property.responseInformation val
  | serverReference val => Property.serverReference val
  | reasonString val => Property.reasonString val
  | receiveMaximum val => Property.receiveMaximum val.toNat
  | topicAliasMaximum val => .ok (Property.topicAliasMaximum val.toNat)
  | topicAlias val => .ok (Property.topicAlias val.toNat)
  | maximumQos value => Property.maximumQos value
  | retainAvailable value => .ok (Property.retainAvailable value)
  | userProperty key val => Property.userProperty key val
  | maximumPacketSize val => Property.maximumPacketSize val.toNat
  | wildcardSubscriptionAvailable value => .ok (Property.wildcardSubscriptionAvailable value)
  | subscriptionIdentifierAvailable value => .ok (Property.subscriptionIdentifierAvailable value)
  | sharedSubscriptionAvailable value => .ok (Property.sharedSubscriptionAvailable value)

/-- The arguments that the decoder takes too: a subscription identifier must fit into a variable byte
    integer, and the decoder counts the length bytes of a user property into its limit. -/
def Call.InRange : Call → Prop
  | subscriptionIdentifier val => val.toNat ≤ 268435455
  | userProperty key val => key.length ≤ 65533 ∧ val.length ≤ 65533
  | _ => True

/-! ### Reading a property back -/

/-- The property is read back in front of any bytes, wherever it is allowed. -/
def ReadBack (p : Property) : Prop :=
  ∀ loc rest, validateProperty loc p.id = true →
    (makePropertyVariant loc).run (p.constBufferSequence.flatten ++ rest) = .ok (p, rest)

/-! ### What the constructors build -/

theorem readBack_nBytes {n : Nat} {id : PropertyId} {bs : Buffer}
    (check : Buffer → Option ErrorCode) (hid : makePropertyOfId id = makeNBytesProperty n id check)
    (hlen : bs.length = n) (hcheck : check bs = none) : ReadBack (.nBytes id bs) := by
  intro loc rest hloc
  have hid' : validateProperty loc id = true := hloc
  simp only [constBufferSequence, List.flatten_cons, List.flatten_nil, List.append_nil,
    List.cons_append, List.nil_append]
  rw [run_makePropertyVariant_eq_ok]
  refine ⟨id, _, rfl, hid', ?_⟩
  rw [hid, run_makeNBytesProperty_eq_ok]
  exact ⟨bs, rfl, hlen, hcheck, rfl⟩

theorem readBack_flag {id : PropertyId} {value : Bool} (check : Buffer → Option ErrorCode)
    (hid : makePropertyOfId id = makeNBytesProperty 1 id check)
    (hcheck : check [if value then 1 else 0] = none) : ReadBack (flag id value) :=
  readBack_nBytes check hid rfl hcheck

theorem readBack_nonZero {n : Nat} {id : PropertyId} {val : Nat} {p : Property}
    (hid : makePropertyOfId id = makeNBytesProperty n id checkNonZero) (hval : val < 256 ^ n)
    (h : nonZero n id val = .ok p) : ReadBack p := by
  obtain ⟨hne, rfl⟩ := throwIf_pure_eq_ok.mp h
  refine readBack_nBytes checkNonZero hid (length_endianStore _ _) ?_
  rw [checkNonZero, length_endianStore, endianLoad_endianStore hval, if_neg hne]

theorem ofBinary_eq_ok {id : PropertyId} {buf : Buffer} {p : Property} :
    ofBinary id buf = .ok p ↔ buf.length < 2 ^ 16 ∧ p = .binary id (endianStore 2 buf.length) buf := by
  simp only [ofBinary, Except.bind_eq_ok, throwIf_eq_ok, numericCast16_eq_ok, Except.pure_eq_ok]
  constructor
  · rintro ⟨_, -, _, ⟨hlen, rfl⟩, rfl⟩
    exact ⟨hlen, rfl⟩
  · rintro ⟨hlen, rfl⟩
    exact ⟨(), by omega, _, ⟨hlen, rfl⟩, rfl⟩

theorem readBack_ofBinary {id : PropertyId} {buf : Buffer} {p : Property} (check : Buffer → Bool)
    (hid : makePropertyOfId id = makeBinaryProperty id check) (hcheck : check buf = true)
    (h : ofBinary id buf = .ok p) : ReadBack p := by
  obtain ⟨hlen, rfl⟩ := ofBinary_eq_ok.mp h
  intro loc rest hloc
  have hid' : validateProperty loc id = true := hloc
  simp only [constBufferSequence, List.flatten_cons, List.flatten_nil, List.append_nil,
    List.cons_append, List.nil_append, List.append_assoc]
  rw [run_makePropertyVariant_eq_ok]
  refine ⟨id, _, rfl, hid', ?_⟩
  rw [hid, run_makeBinaryProperty_eq_ok]
  exact ⟨buf, rfl, hlen, hcheck, rfl⟩

theorem readBack_ofString {id : PropertyId} {buf : Buffer} {p : Property}
    (hid : makePropertyOfId id = makeBinaryProperty id utf8StringCheck)
    (h : ofString id buf = .ok p) : ReadBack p := by
  simp only [ofString, Except.bind_eq_ok, throwIf_eq_ok, Except.pure_eq_ok] at h
  obtain ⟨q, hq, _, hutf8, rfl⟩ := h
  exact readBack_ofBinary utf8StringCheck hid (by simpa using hutf8) hq

theorem subscriptionIdentifier_eq_ok {val : Nat} {p : Property} :
    subscriptionIdentifier val = .ok p ↔
      val ≠ 0 ∧ p = .variableLen .subscriptionIdentifier (valToVariableBytes val) := by
  unfold subscriptionIdentifier
  rw [throwIf_pure_eq_ok, eq_comm (b := p)]

theorem lenStr_eq_ok {buf len s : Buffer} :
    lenStr buf = .ok (len, s) ↔ buf.length < 2 ^ 16 ∧ utf8StringCheck buf = true ∧
      len = endianStore 2 buf.length ∧ s = buf := by
  simp only [lenStr, Except.bind_eq_ok, numericCast16_eq_ok, throwIf_eq_ok, Except.pure_eq_ok,
    Prod.mk.injEq]
  constructor
  · rintro ⟨_, ⟨hlen, rfl⟩, _, hutf8, rfl, rfl⟩
    exact ⟨hlen, by simpa using hutf8, rfl, rfl⟩
  · rintro ⟨hlen, hutf8, rfl, rfl⟩
    exact ⟨_, ⟨hlen, rfl⟩, (), by simp [hutf8], rfl, rfl⟩

theorem userProperty_eq_ok {key val : Buffer} {p : Property} :
    userProperty key val = .ok p ↔
      (key.length < 2 ^ 16 ∧ utf8StringCheck key = true) ∧
      (val.length < 2 ^ 16 ∧ utf8StringCheck val = true) ∧
      p = .user (endianStore 2 key.length) key (endianStore 2 val.length) val := by
  simp only [userProperty, Except.bind_eq_ok, Except.pure_eq_ok, Prod.exists, lenStr_eq_ok]
  constructor
  · rintro ⟨_, _, ⟨hkey, hkey', rfl, rfl⟩, _, _, ⟨hval, hval', rfl, rfl⟩, rfl⟩
    exact ⟨⟨hkey, hkey'⟩, ⟨hval, hval'⟩, rfl⟩
  · rintro ⟨⟨hkey, hkey'⟩, ⟨hval, hval'⟩, rfl⟩
    exact ⟨_, _, ⟨hkey, hkey', rfl, rfl⟩, _, _, ⟨hval, hval', rfl, rfl⟩, rfl⟩

/-- What a constructor builds from arguments in range is read back. -/
theorem readBack_of_build {c : Call} {p : Property} (h : c.build = .ok p) (hc : c.InRange) :
    ReadBack p := by
  have h16 : ∀ val : UInt16, val.toNat < 256 ^ 2 := fun val => val.toNat_lt
  have h32 : ∀ val : UInt32, val.toNat < 256 ^ 4 := fun val => val.toNat_lt
  cases c with
  | payloadFormatIndicator fmt =>
    cases h
    exact readBack_flag checkPayloadFormat rfl (by cases fmt <;> rfl)
  -- the properties of one byte
  | requestProblemInformation value | requestResponseInformation value | retainAvailable value
  | wildcardSubscriptionAvailable value | subscriptionIdentifierAvailable value
  | sharedSubscriptionAvailable value =>
    cases h
    exact readBack_flag (fun _ => none) rfl rfl
  -- the properties of two and four bytes
  | messageExpiryInterval val | sessionExpiryInterval val | willDelayInterval val
  | serverKeepAlive val | topicAliasMaximum val | topicAlias val =>
    cases h
    exact readBack_nBytes (fun _ => none) rfl (length_endianStore _ _) rfl
  -- the strings
  | contentType val | responseTopic val | assignedClientIdentifier val | authenticationMethod val
  | responseInformation val | serverReference val | reasonString val =>
    exact readBack_ofString rfl h
  | correlationData val | authenticationData val => exact readBack_ofBinary (fun _ => true) rfl rfl h
  -- a maximum of 0 is refused by the constructor
  | receiveMaximum val => exact readBack_nonZero rfl (h16 val) h
  | maximumPacketSize val => exact readBack_nonZero rfl (h32 val) h
  | maximumQos value =>
    obtain ⟨hqos, rfl⟩ := throwIf_pure_eq_ok.mp h
    refine readBack_nBytes checkMaximumQos rfl rfl (if_neg ?_)
    simpa using hqos
  -- the identifier takes as many bytes as its value needs
  | subscriptionIdentifier val =>
    obtain ⟨hne, rfl⟩ := subscriptionIdentifier_eq_ok.mp h
    intro loc rest hloc
    have hid : validateProperty loc .subscriptionIdentifier = true := hloc
    simp only [constBufferSequence, List.flatten_cons, List.flatten_nil, List.append_nil,
      List.cons_append, List.nil_append]
    rw [run_makePropertyVariant_eq_ok]
    refine ⟨_, _, rfl, hid, run_makeSubscriptionIdentifier_eq_ok.mpr ?_⟩
    exact ⟨val.toNat, variableBytesToVal_append hc rest, hne, rfl⟩
  | userProperty key val =>
    obtain ⟨-, -, rfl⟩ := userProperty_eq_ok.mp h
    intro loc rest hloc
    have hid : validateProperty loc .userProperty = true := hloc
    simp only [constBufferSequence, List.flatten_cons, List.flatten_nil, List.append_nil,
      List.cons_append, List.nil_append, List.append_assoc]
    rw [run_makePropertyVariant_eq_ok]
    refine ⟨_, _, rfl, hid, run_makeUserProperty_eq_ok.mpr ?_⟩
    exact ⟨key, val, rfl, hc.1, hc.2, rfl⟩

/-- A list of such properties is read back. -/
theorem roundTrips_of_readBack {loc : PropertyLocation} {props : Properties}
    (hback : ∀ p ∈ props, ReadBack p) (hloc : ∀ p ∈ props, validateProperty loc p.id = true) :
    props.RoundTrips loc := by
  have hbytes : props.constBufferSequence.flatten =
      props.flatMap fun p => p.constBufferSequence.flatten := by
    rw [Properties.constBufferSequence, List.flatMap_def, List.flatten_flatten, List.map_map,
      List.flatMap_def]
    rfl
  rw [Properties.RoundTrips, makeProperties, hbytes]
  refine run_many_flatMap ?_ fun p hp rest => hback p hp loc rest (hloc p hp)
  -- the identifier is there, whatever the value is
  intro p _
  cases p <;> simp [constBufferSequence]

/-! ### What the decoder gives -/

/-- The limits that the decoder sets. -/
def Decodable : Property → Prop
  | variableLen _ value => value ≠ []
  | user _ keyBuf _ valBuf => keyBuf.length ≤ 65533 ∧ valBuf.length ≤ 65533
  | _ => True

theorem makePropertyOfId_decodable {id : PropertyId} {buf rest : List UInt8} {p : Property}
    (h : (makePropertyOfId id).run buf = .ok (p, rest)) : p.Decodable := by
  cases id with
  | subscriptionIdentifier =>
    obtain ⟨val, hval, -, rfl⟩ := run_makeSubscriptionIdentifier_eq_ok.mp h
    -- the value is written again, and it fits
    exact valToVariableBytes_ne_nil (variableBytesToVal_le hval)
  | userProperty =>
    obtain ⟨key, val, -, hkey, hval, rfl⟩ := run_makeUserProperty_eq_ok.mp h
    exact ⟨hkey, hval⟩
  | contentType | responseTopic | assignedClientIdentifier | authenticationMethod
  | responseInformation | serverReference | reasonString | correlationData
  | authenticationData =>
    simp only [makePropertyOfId] at h
    obtain ⟨_, -, -, -, rfl⟩ := run_makeBinaryProperty_eq_ok.mp h
    trivial
  | _ =>
    simp only [makePropertyOfId] at h
    obtain ⟨_, -, -, -, rfl⟩ := run_makeNBytesProperty_eq_ok.mp h
    trivial

theorem makePropertyVariant_decodable {loc : PropertyLocation} {buf rest : List UInt8}
    {p : Property} (h : (makePropertyVariant loc).run buf = .ok (p, rest)) : p.Decodable := by
  obtain ⟨id, tail, -, -, hp⟩ := run_makePropertyVariant_eq_ok.mp h
  exact makePropertyOfId_decodable hp

/-- The properties of a list that is read back are within the limits of the decoder. -/
theorem decodable_of_roundTrips {loc : PropertyLocation} {props : Properties}
    (h : props.RoundTrips loc) : ∀ p ∈ props, p.Decodable :=
  run_many_forall (fun _ _ _ hp => makePropertyVariant_decodable hp) h

/-- A constructor that built a property within these limits had arguments in range. -/
theorem inRange_of_decodable {c : Call} {p : Property} (h : c.build = .ok p) (hp : p.Decodable) :
    c.InRange := by
  cases c with
  | subscriptionIdentifier val =>
    obtain ⟨-, rfl⟩ := subscriptionIdentifier_eq_ok.mp h
    by_contra hval
    -- no bytes are written for a value above the limit
    refine hp ?_
    rw [valToVariableBytes, if_pos]
    simp only [Call.InRange] at hval
    omega
  | userProperty key val =>
    obtain ⟨-, -, rfl⟩ := userProperty_eq_ok.mp h
    exact hp
  | _ => exact trivial

/-! ### Lists of properties -/

/-- The properties that the public constructors build, in the order of the calls. -/
def buildAll : List Call → Except Exception Properties
  | [] => .ok []
  | c :: calls => do
    let p ← c.build
    let props ← buildAll calls
    pure (p :: props)

/-- Each call built one of the properties, and each property is from one of the calls. -/
theorem buildAll_eq_ok {calls : List Call} {props : Properties} (h : buildAll calls = .ok props) :
    (∀ c ∈ calls, ∃ p ∈ props, c.build = .ok p) ∧ ∀ p ∈ props, ∃ c ∈ calls, c.build = .ok p := by
  induction calls generalizing props with
  | nil =>
    cases h
    simp
  | cons c calls ih =>
    simp only [buildAll, Except.bind_eq_ok, Except.pure_eq_ok] at h
    obtain ⟨p, hp, props', hprops', rfl⟩ := h
    obtain ⟨hcalls, hprops⟩ := ih hprops'
    constructor
    · intro c' hc'
      rcases List.mem_cons.mp hc' with rfl | hc'
      · exact ⟨p, .head _, hp⟩
      · obtain ⟨p', hp', hbuild⟩ := hcalls c' hc'
        exact ⟨p', .tail _ hp', hbuild⟩
    · intro p' hp'
      rcases List.mem_cons.mp hp' with rfl | hp'
      · exact ⟨c, .head _, hp⟩
      · obtain ⟨c', hc', hbuild⟩ := hprops p' hp'
        exact ⟨c', .tail _ hc', hbuild⟩

/-- A list that the constructors build and the location allows has the announced size, and it is
    read back if and only if each constructor was called with arguments in range. -/
theorem round_trips_iff (loc : PropertyLocation) (calls : List Call) (props : Properties)
    (hbuild : buildAll calls = .ok props) (hloc : ∀ p ∈ props, validateProperty loc p.id = true) :
    (props.RoundTrips loc ∧ props.constBufferSequence.flatten.length = props.size) ↔
      ∀ c ∈ calls, c.InRange := by
  obtain ⟨hcalls, hprops⟩ := buildAll_eq_ok hbuild
  constructor
  · rintro ⟨hback, -⟩ c hc
    obtain ⟨p, hp, hbuilt⟩ := hcalls c hc
    exact inRange_of_decodable hbuilt (decodable_of_roundTrips hback p hp)
  · intro hrange
    refine ⟨roundTrips_of_readBack ?_ hloc, Properties.length_flatten_constBufferSequence props⟩
    intro p hp
    obtain ⟨c, hc, hbuilt⟩ := hprops p hp
    exact readBack_of_build hbuilt (hrange c hc)

/-- A user property, a topic alias and the largest subscription identifier are read back. -/
theorem round_trips_publish :
    ∃ props : Properties,
      (props.RoundTrips .publish ∧ props.constBufferSequence.flatten.length = props.size) ∧
        props.length = 3 := by
  have hbuild : buildAll [.userProperty [0x61] [0x62], .topicAlias 0,
      .subscriptionIdentifier 268435455] = .ok [.user [0, 1] [0x61] [0, 1] [0x62],
        .nBytes .topicAlias [0, 0], .variableLen .subscriptionIdentifier [0xff, 0xff, 0xff, 0x7f]] := by
    decide
  refine ⟨_, (round_trips_iff .publish _ _ hbuild ?_).mpr ?_, rfl⟩
  · decide
  · simp [Call.InRange]

/-- A subscription identifier above the range of a variable byte integer is accepted, no byte is
    written for it, and the list cannot be read. -/
theorem subscriptionIdentifier_not_read_back :
    buildAll [.subscriptionIdentifier 268435456] =
        .ok [.variableLen .subscriptionIdentifier []] ∧
      validateProperty .publish .subscriptionIdentifier = true ∧
      (makeProperties .publish).run
          (Properties.constBufferSequence [.variableLen .subscriptionIdentifier []]).flatten =
        .error (.error malformedPacket) := by
  decide

end Property

end AsyncMqtt
