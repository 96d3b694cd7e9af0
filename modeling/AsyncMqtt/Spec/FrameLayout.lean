import AsyncMqtt.Spec.PropertyDecode
import AsyncMqtt.Spec.RoundTripV5

/-!
# Where things are in a frame

The layout of an MQTT frame, without any check: where its property sections stand, where the fields
of a section stand, and where the packet identifier of a PUBLISH is. With it, what the public
constructors enforce is stated twice: for a packet, and for the bytes of a frame.

The decoders check most of it. What they leave out is three rules about the bytes of a frame, those
of `PropertyField.Rule` and `PublishIdRule`.

## Key results

- `rules_of_fields`: the properties that are decoded from a section follow the rules exactly when
  its fields do
-/

namespace AsyncMqtt

open ByteReader

/-! ### Parts of a frame -/

/-- What follows a variable byte integer. -/
def skipVarInt (buf : List UInt8) : List UInt8 :=
  match variableBytesToVal buf with
  | some (_, rest) => rest
  | none => []

/-- What follows a string or binary data. -/
def skipString (buf : List UInt8) : List UInt8 := buf.drop (2 + endianLoad 2 buf)

/-- The bytes of a string or of binary data. -/
def stringAt (buf : List UInt8) : List UInt8 := (buf.drop 2).take (endianLoad 2 buf)

/-- The properties behind their length. -/
def propertySection (buf : List UInt8) : List UInt8 :=
  match variableBytesToVal buf with
  | some (n, rest) => rest.take n
  | none => []

/-- What follows the properties. -/
def skipProperties (buf : List UInt8) : List UInt8 :=
  match variableBytesToVal buf with
  | some (n, rest) => rest.drop n
  | none => []

/-- What follows the remaining length. -/
def frameBody (frame : List UInt8) : List UInt8 := skipVarInt (frame.drop 1)

/-- What follows the packet identifier of a PUBLISH, or its topic if it has none. -/
def skipPublishId (pb : PacketIdBytes) (opts : UInt8) (buf : List UInt8) : List UInt8 :=
  if Pub.getQos opts = 0 then buf else buf.drop pb.bytes

/-- The property sections of a v5.0 frame, in the order of `PacketVariant.propertyLists`. -/
def propertySections (pb : PacketIdBytes) (type : ControlPacketType) (frame : List UInt8) :
    List (List UInt8) :=
  let body := frameBody frame
  match type with
  | .connect =>
    -- the protocol name and level, the flags and the keep alive time
    let props := body.drop 10
    let afterClientId := skipString (skipProperties props)
    [propertySection props,
      if ConnectFlags.hasWillFlag (body.getD 7 0) then propertySection afterClientId else []]
  | .connack => [propertySection (body.drop 2)]
  | .publish => [propertySection (skipPublishId pb (frame.headD 0) (skipString body))]
  | .puback | .pubrec | .pubrel | .pubcomp => [propertySection (body.drop (pb.bytes + 1))]
  | .subscribe | .suback | .unsubscribe | .unsuback => [propertySection (body.drop pb.bytes)]
  | .disconnect | .auth => [propertySection (body.drop 1)]
  | .pingreq | .pingresp => []

/-! ### Fields of a property section -/

/-- A property in a section: its identifier, and the bytes from its value on. -/
structure PropertyField where
  id : PropertyId
  value : List UInt8

namespace PropertyField

/-- What follows the value. -/
def skip (f : PropertyField) : List UInt8 :=
  match f.id with
  | .payloadFormatIndicator | .requestProblemInformation | .requestResponseInformation
  | .retainAvailable | .wildcardSubscriptionAvailable | .subscriptionIdentifierAvailable
  | .sharedSubscriptionAvailable | .maximumQos => f.value.drop 1
  | .serverKeepAlive | .topicAliasMaximum | .topicAlias | .receiveMaximum => f.value.drop 2
  | .messageExpiryInterval | .sessionExpiryInterval | .willDelayInterval | .maximumPacketSize =>
    f.value.drop 4
  | .contentType | .responseTopic | .assignedClientIdentifier | .authenticationMethod
  | .responseInformation | .serverReference | .reasonString | .correlationData
  | .authenticationData => skipString f.value
  | .subscriptionIdentifier => skipVarInt f.value
  | .userProperty => skipString (skipString f.value)

/-- The rules that the decoder leaves out: a flag is 0 or 1, and both halves of a user property are
    MQTT strings. -/
def Rule (f : PropertyField) : Prop :=
  match f.id with
  | .requestProblemInformation | .requestResponseInformation | .retainAvailable
  | .wildcardSubscriptionAvailable | .subscriptionIdentifierAvailable
  | .sharedSubscriptionAvailable => f.value.take 1 = [0] ∨ f.value.take 1 = [1]
  | .userProperty => utf8StringCheck (stringAt f.value) = true ∧
      utf8StringCheck (stringAt (skipString f.value)) = true
  | _ => True

end PropertyField

/-- The fields of a property section, of which there are no more than `fuel`. -/
def propertyFieldsOf : Nat → List UInt8 → List PropertyField
  | 0, _ => []
  | _ + 1, [] => []
  | fuel + 1, b :: value =>
    match PropertyId.ofUInt8 b with
    | none => []
    | some id => ⟨id, value⟩ :: propertyFieldsOf fuel (PropertyField.skip ⟨id, value⟩)

/-- The fields of a property section. -/
def sectionFields (buf : List UInt8) : List PropertyField := propertyFieldsOf buf.length buf

/-! ### Rules of the constructors -/

namespace Property

/-- What the public constructors enforce of a value: strings are MQTT strings, flags are 0 or 1,
    and the values that must not be 0 are not. -/
def Rule : Property → Prop
  | nBytes .payloadFormatIndicator bs | nBytes .requestProblemInformation bs
  | nBytes .requestResponseInformation bs | nBytes .maximumQos bs | nBytes .retainAvailable bs
  | nBytes .wildcardSubscriptionAvailable bs | nBytes .subscriptionIdentifierAvailable bs
  | nBytes .sharedSubscriptionAvailable bs => bs = [0] ∨ bs = [1]
  | nBytes .receiveMaximum bs | nBytes .maximumPacketSize bs => endianLoad bs.length bs ≠ 0
  | binary .contentType _ bs | binary .responseTopic _ bs | binary .assignedClientIdentifier _ bs
  | binary .authenticationMethod _ bs | binary .responseInformation _ bs
  | binary .serverReference _ bs | binary .reasonString _ bs => utf8StringCheck bs = true
  | variableLen .subscriptionIdentifier bs =>
    ∃ val, val ≠ 0 ∧ variableBytesToVal bs = some (val, [])
  | user _ key _ val => utf8StringCheck key = true ∧ utf8StringCheck val = true
  | _ => True

end Property

namespace PacketVariant

variable {pb : PacketIdBytes}

/-- The MQTT strings of a packet, apart from its properties. -/
def strings : PacketVariant pb → List Buffer
  | v311Connect p => [p.clientId, p.willTopic, p.userName]
  | v5Connect p => [p.clientId, p.willTopic, p.userName]
  | v311Publish p => [p.topicName]
  | v5Publish p => [p.topicName]
  | v311Subscribe p => p.entries.map TopicSubopts.allTopic
  | v5Subscribe p => p.entries.map TopicSubopts.allTopic
  | v311Unsubscribe p => p.entries.map TopicSharename.allTopic
  | v5Unsubscribe p => p.entries.map TopicSharename.allTopic
  | _ => []

/-- The packet identifier of a PUBLISH with QoS 1 or 2, the only class whose constructors reject 0. -/
def publishId : PacketVariant pb → Option Nat
  | v311Publish p => if Pub.getQos p.opts = 0 then none else some p.packetId
  | v5Publish p => if Pub.getQos p.opts = 0 then none else some p.packetId
  | _ => none

/-- What the public constructors enforce: strings are MQTT strings, a PUBLISH that needs a packet
    identifier has one, and properties are allowed where they are and follow their rules. -/
structure ConstructorRules (v : PacketVariant pb) : Prop where
  strings : ∀ s ∈ v.strings, utf8StringCheck s = true
  publishId : ∀ id ∈ v.publishId, id ≠ 0
  props : ∀ x ∈ v.propertyLists, ∀ p ∈ x.2, validateProperty x.1 p.id = true ∧ p.Rule

end PacketVariant

/-- A PUBLISH with QoS 1 or 2 does not have the packet identifier 0. -/
def PublishIdRule (pb : PacketIdBytes) (type : ControlPacketType) (frame : List UInt8) : Prop :=
  type = .publish → Pub.getQos (frame.headD 0) ≠ 0 →
    endianLoad pb.bytes (skipString (frameBody frame)) ≠ 0

/-- The rules that the decoder of a version leaves out, for a frame of the control packet type. -/
structure FrameRules (pb : PacketIdBytes) (v5 : Bool) (type : ControlPacketType)
    (frame : List UInt8) : Prop where
  publishId : PublishIdRule pb type frame
  fields : v5 = true → ∀ s ∈ propertySections pb type frame, ∀ f ∈ sectionFields s, f.Rule

/-- Whether the frame is one of v5.0. Where the version is not determined, a CONNECT says it. -/
def isV5Frame (ver : ProtocolVersion) (frame : List UInt8) : Bool :=
  match ver with
  | .v311 => false
  | .v5 => true
  | .undetermined => (frameBody frame)[6]? = some 5

/-- The frame follows the rules that its decoder leaves out. -/
def FrameFollowsRules (pb : PacketIdBytes) (ver : ProtocolVersion) (frame : List UInt8) : Prop :=
  ∀ type, getControlPacketType (frame.headD 0) = some type →
    FrameRules pb (isV5Frame ver frame) type frame

/-! ### Fields and decoded properties -/

theorem skipString_append {bs : Buffer} (hlen : bs.length < 2 ^ 16) (rest : List UInt8) :
    skipString (endianStore 2 bs.length ++ (bs ++ rest)) = rest := by
  have hload : endianLoad 2 (endianStore 2 bs.length ++ (bs ++ rest)) = bs.length := by
    rw [endianLoad, List.take_left' (length_endianStore _ _)]
    exact BigEndian.load_store hlen
  rw [skipString, hload, ← List.append_assoc]
  exact List.drop_left' (by simp)

theorem stringAt_append {bs : Buffer} (hlen : bs.length < 2 ^ 16) (rest : List UInt8) :
    stringAt (endianStore 2 bs.length ++ (bs ++ rest)) = bs := by
  have hload : endianLoad 2 (endianStore 2 bs.length ++ (bs ++ rest)) = bs.length := by
    rw [endianLoad, List.take_left' (length_endianStore _ _)]
    exact BigEndian.load_store hlen
  rw [stringAt, hload, List.drop_left' (length_endianStore _ _), List.take_left]

section Field

variable {id : PropertyId} {value rest : List UInt8} {p : Property}

/-- A decoded property ends where its field does, and follows the rules if its field does. -/
theorem field_of_decoded (h : (makePropertyOfId id).run value = .ok (p, rest)) :
    rest = PropertyField.skip ⟨id, value⟩ ∧ (p.Rule ↔ PropertyField.Rule ⟨id, value⟩) := by
  -- one case for each kind of field; the checks that were passed are its rules
  cases id with
  | requestProblemInformation | requestResponseInformation | retainAvailable
  | wildcardSubscriptionAvailable | subscriptionIdentifierAvailable
  | sharedSubscriptionAvailable =>
    simp only [makePropertyOfId] at h
    obtain ⟨bs, rfl, hlen, -, rfl⟩ := run_makeNBytesProperty_eq_ok.mp h
    simp [PropertyField.skip, PropertyField.Rule, Property.Rule, ← hlen]
  | payloadFormatIndicator =>
    simp only [makePropertyOfId] at h
    obtain ⟨bs, rfl, hlen, hcheck, rfl⟩ := run_makeNBytesProperty_eq_ok.mp h
    have hbit : bs = [0] ∨ bs = [1] := by
      by_contra hne
      rw [checkPayloadFormat, if_neg hne] at hcheck
      cases hcheck
    simp [PropertyField.skip, PropertyField.Rule, Property.Rule, ← hlen, hbit]
  | maximumQos =>
    simp only [makePropertyOfId] at h
    obtain ⟨bs, rfl, hlen, hcheck, rfl⟩ := run_makeNBytesProperty_eq_ok.mp h
    have hbit : bs = [0] ∨ bs = [1] := by
      by_contra hne
      have hneither : bs ≠ [Qos.atMostOnce] ∧ bs ≠ [Qos.atLeastOnce] := not_or.mp hne
      rw [checkMaximumQos, if_pos hneither] at hcheck
      cases hcheck
    simp [PropertyField.skip, PropertyField.Rule, Property.Rule, ← hlen, hbit]
  | receiveMaximum | maximumPacketSize =>
    simp only [makePropertyOfId] at h
    obtain ⟨bs, rfl, hlen, hcheck, rfl⟩ := run_makeNBytesProperty_eq_ok.mp h
    have hne : endianLoad bs.length bs ≠ 0 := by
      intro hzero
      rw [checkNonZero, if_pos hzero] at hcheck
      cases hcheck
    simp [PropertyField.skip, PropertyField.Rule, Property.Rule, ← hlen, hne]
  | serverKeepAlive | topicAliasMaximum | topicAlias | messageExpiryInterval
  | sessionExpiryInterval | willDelayInterval =>
    simp only [makePropertyOfId] at h
    obtain ⟨bs, rfl, hlen, -, rfl⟩ := run_makeNBytesProperty_eq_ok.mp h
    simp [PropertyField.skip, PropertyField.Rule, Property.Rule, ← hlen]
  | contentType | responseTopic | assignedClientIdentifier | authenticationMethod
  | responseInformation | serverReference | reasonString =>
    simp only [makePropertyOfId] at h
    obtain ⟨bs, rfl, hlen, hutf8, rfl⟩ := run_makeBinaryProperty_eq_ok.mp h
    simp [PropertyField.skip, PropertyField.Rule, Property.Rule, skipString_append hlen, hutf8]
  | correlationData | authenticationData =>
    simp only [makePropertyOfId] at h
    obtain ⟨bs, rfl, hlen, -, rfl⟩ := run_makeBinaryProperty_eq_ok.mp h
    simp [PropertyField.skip, PropertyField.Rule, Property.Rule, skipString_append hlen]
  | subscriptionIdentifier =>
    obtain ⟨val, hval, hne, rfl⟩ := run_makeSubscriptionIdentifier_eq_ok.mp h
    have hread := variableBytesToVal_append (variableBytesToVal_le hval) []
    rw [List.append_nil] at hread
    simp [PropertyField.skip, PropertyField.Rule, Property.Rule, skipVarInt, hval, hread, hne]
  | userProperty =>
    obtain ⟨key, val, rfl, hkey, hval, rfl⟩ := run_makeUserProperty_eq_ok.mp h
    have hkey' : key.length < 2 ^ 16 := by omega
    have hval' : val.length < 2 ^ 16 := by omega
    simp [PropertyField.skip, PropertyField.Rule, Property.Rule, skipString_append hkey',
      skipString_append hval', stringAt_append hkey', stringAt_append hval']

end Field

theorem rules_of_fields_go {loc : PropertyLocation} (fuel : Nat) :
    ∀ {buf left : List UInt8} {props : Properties},
      (many.go (makePropertyVariant loc) fuel).run buf = .ok (props, left) →
        (∀ p ∈ props, validateProperty loc p.id = true) ∧
        ((∀ p ∈ props, p.Rule) ↔ ∀ f ∈ propertyFieldsOf fuel buf, f.Rule) := by
  induction fuel with
  | zero =>
    intro buf left props h
    cases h
    simp [propertyFieldsOf]
  | succ fuel ih =>
    intro buf left props h
    simp only [many.go] at h
    rw [run_bind_of_ok (run_remaining _), run_ite] at h
    split at h
    · next hnil =>
      subst hnil
      cases h
      simp [propertyFieldsOf]
    · obtain ⟨p, mid, hp, hrest⟩ := run_bind_ok h
      obtain ⟨ps, _, hps, hpure⟩ := run_bind_ok hrest
      cases hpure
      -- the identifier, then the value, then the fields after it
      obtain ⟨id, value, rfl, hloc, hvalue⟩ := run_makePropertyVariant_eq_ok.mp hp
      obtain ⟨rfl, hrule⟩ := field_of_decoded hvalue
      obtain ⟨hlocs, hrules⟩ := ih hps
      rw [← makePropertyOfId_id hvalue] at hloc
      constructor
      · exact List.forall_mem_cons.mpr ⟨hloc, hlocs⟩
      · simp only [propertyFieldsOf, ofUInt8_toUInt8, List.forall_mem_cons, hrule, hrules]

/-- The properties that are decoded from a section are allowed at its location, and they follow the
    rules exactly when the fields of the section do. -/
theorem rules_of_fields {loc : PropertyLocation} {buf left : List UInt8} {props : Properties}
    (h : (makeProperties loc).run buf = .ok (props, left)) :
    (∀ p ∈ props, validateProperty loc p.id = true) ∧
      ((∀ p ∈ props, p.Rule) ↔ ∀ f ∈ sectionFields buf, f.Rule) := by
  rw [makeProperties, many, run_bind_of_ok (run_remaining _)] at h
  exact rules_of_fields_go buf.length h

end AsyncMqtt
