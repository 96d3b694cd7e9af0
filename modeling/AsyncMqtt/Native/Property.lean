import AsyncMqtt.Native.Wire

/-!
# MQTT v5.0 properties

`property_id.hpp`, `base_property.hpp`, `property.hpp`, `validate_property.hpp`
and `property_variant.ipp`. The 27 property classes of the source derive from
four base classes, so `Property` has one constructor for each of these; what a
class adds to its base is its identifier and the check in its constructors.
-/

namespace AsyncMqtt

open ByteReader

/-- `property::id` -/
inductive PropertyId where
  | payloadFormatIndicator
  | messageExpiryInterval
  | contentType
  | responseTopic
  | correlationData
  | subscriptionIdentifier
  | sessionExpiryInterval
  | assignedClientIdentifier
  | serverKeepAlive
  | authenticationMethod
  | authenticationData
  | requestProblemInformation
  | willDelayInterval
  | requestResponseInformation
  | responseInformation
  | serverReference
  | reasonString
  | receiveMaximum
  | topicAliasMaximum
  | topicAlias
  | maximumQos
  | retainAvailable
  | userProperty
  | maximumPacketSize
  | wildcardSubscriptionAvailable
  | subscriptionIdentifierAvailable
  | sharedSubscriptionAvailable
  deriving DecidableEq, Repr

namespace PropertyId

/-- The enumerator's value. -/
def toUInt8 : PropertyId → UInt8
  | payloadFormatIndicator => 1
  | messageExpiryInterval => 2
  | contentType => 3
  | responseTopic => 8
  | correlationData => 9
  | subscriptionIdentifier => 11
  | sessionExpiryInterval => 17
  | assignedClientIdentifier => 18
  | serverKeepAlive => 19
  | authenticationMethod => 21
  | authenticationData => 22
  | requestProblemInformation => 23
  | willDelayInterval => 24
  | requestResponseInformation => 25
  | responseInformation => 26
  | serverReference => 28
  | reasonString => 31
  | receiveMaximum => 33
  | topicAliasMaximum => 34
  | topicAlias => 35
  | maximumQos => 36
  | retainAvailable => 37
  | userProperty => 38
  | maximumPacketSize => 39
  | wildcardSubscriptionAvailable => 40
  | subscriptionIdentifierAvailable => 41
  | sharedSubscriptionAvailable => 42

/-- `static_cast<property::id>`; `none` when the byte is no enumerator. -/
def ofUInt8 (b : UInt8) : Option PropertyId :=
  match b.toNat with
  | 1 => some payloadFormatIndicator
  | 2 => some messageExpiryInterval
  | 3 => some contentType
  | 8 => some responseTopic
  | 9 => some correlationData
  | 11 => some subscriptionIdentifier
  | 17 => some sessionExpiryInterval
  | 18 => some assignedClientIdentifier
  | 19 => some serverKeepAlive
  | 21 => some authenticationMethod
  | 22 => some authenticationData
  | 23 => some requestProblemInformation
  | 24 => some willDelayInterval
  | 25 => some requestResponseInformation
  | 26 => some responseInformation
  | 28 => some serverReference
  | 31 => some reasonString
  | 33 => some receiveMaximum
  | 34 => some topicAliasMaximum
  | 35 => some topicAlias
  | 36 => some maximumQos
  | 37 => some retainAvailable
  | 38 => some userProperty
  | 39 => some maximumPacketSize
  | 40 => some wildcardSubscriptionAvailable
  | 41 => some subscriptionIdentifierAvailable
  | 42 => some sharedSubscriptionAvailable
  | _ => none

end PropertyId

/-- `property_location` -/
inductive PropertyLocation where
  | connect
  | will
  | connack
  | publish
  | puback
  | pubrec
  | pubrel
  | pubcomp
  | subscribe
  | suback
  | unsubscribe
  | unsuback
  | disconnect
  | auth
  deriving DecidableEq, Repr

/-- `validate_property` -/
def validateProperty (loc : PropertyLocation) (id : PropertyId) : Bool :=
  match loc with
  | .connect =>
    match id with
    | .sessionExpiryInterval | .authenticationMethod | .authenticationData
    | .requestProblemInformation | .requestResponseInformation | .receiveMaximum
    | .topicAliasMaximum | .userProperty | .maximumPacketSize => true
    | _ => false
  | .will =>
    match id with
    | .payloadFormatIndicator | .messageExpiryInterval | .contentType | .responseTopic
    | .correlationData | .willDelayInterval | .userProperty => true
    | _ => false
  | .connack =>
    match id with
    | .sessionExpiryInterval | .assignedClientIdentifier | .serverKeepAlive
    | .authenticationMethod | .authenticationData | .responseInformation | .serverReference
    | .reasonString | .receiveMaximum | .topicAliasMaximum | .maximumQos | .retainAvailable
    | .userProperty | .maximumPacketSize | .wildcardSubscriptionAvailable
    | .subscriptionIdentifierAvailable | .sharedSubscriptionAvailable => true
    | _ => false
  | .publish =>
    match id with
    | .payloadFormatIndicator | .messageExpiryInterval | .contentType | .responseTopic
    | .correlationData | .subscriptionIdentifier | .topicAlias | .userProperty => true
    | _ => false
  | .puback | .pubrec | .pubrel | .pubcomp | .suback | .unsuback =>
    match id with
    | .reasonString | .userProperty => true
    | _ => false
  | .subscribe =>
    match id with
    | .subscriptionIdentifier | .userProperty => true
    | _ => false
  | .unsubscribe =>
    match id with
    | .userProperty => true
    | _ => false
  | .disconnect =>
    match id with
    | .sessionExpiryInterval | .serverReference | .reasonString | .userProperty => true
    | _ => false
  | .auth =>
    match id with
    | .authenticationMethod | .authenticationData | .reasonString | .userProperty => true
    | _ => false

/-- `payload_format` -/
inductive PayloadFormat where
  | binary
  | string
  deriving DecidableEq, Repr

/-- `property_variant` -/
inductive Property where
  /-- `n_bytes_property<N>` -/
  | nBytes (id : PropertyId) (buf : Buffer)
  /-- `binary_property`, and `string_property`, which adds no member to it -/
  | binary (id : PropertyId) (length buf : Buffer)
  /-- `variable_property` -/
  | variableLen (id : PropertyId) (value : Buffer)
  /-- `user_property` -/
  | user (keyLen keyBuf valLen valBuf : Buffer)
  deriving DecidableEq, Repr

/-- `properties` -/
abbrev Properties := List Property

namespace Property

/-- `property_variant::id` -/
def id : Property → PropertyId
  | nBytes id _ | binary id _ _ | variableLen id _ => id
  | user .. => .userProperty

/-- `property_variant::const_buffer_sequence` -/
def constBufferSequence : Property → List Buffer
  | nBytes id buf => [[id.toUInt8], buf]
  | binary id length buf => [[id.toUInt8], length, buf]
  | variableLen id value => [[id.toUInt8], value]
  | user keyLen keyBuf valLen valBuf =>
    [[PropertyId.userProperty.toUInt8], keyLen, keyBuf, valLen, valBuf]

/-- `property_variant::size` -/
def size : Property → Nat
  | nBytes _ buf => 1 + buf.length
  | binary _ length buf => 1 + length.length + buf.length
  | variableLen _ value => 1 + value.length
  | user keyLen keyBuf valLen valBuf =>
    1 + (keyLen.length + keyBuf.length) + (valLen.length + valBuf.length)

/-- `num_of_const_buffer_sequence()` -/
def numOfConstBufferSequence : Property → Nat
  | nBytes .. => 2
  | binary .. => 3
  | variableLen .. => 2
  | user .. => 1 + 2 + 2

/-- `val()` of the properties with a numeric value of `N` bytes. -/
def val : Property → Nat
  | nBytes _ buf => endianLoad buf.length buf
  | _ => 0

/-! ### Public constructors -/

/-- A class over `n_bytes_property<1>` that is built from a `bool` -/
def flag (id : PropertyId) (value : Bool) : Property := .nBytes id [if value then 1 else 0]

/-- A class over `n_bytes_property<n>` that is built from a number and rejects 0 -/
def nonZero (n : Nat) (id : PropertyId) (val : Nat) : Except Exception Property := do
  throwIf (val = 0) protocolError
  pure (.nBytes id (endianStore n val))

/-- `binary_property(id, buf)` -/
def ofBinary (id : PropertyId) (buf : Buffer) : Except Exception Property := do
  throwIf (0xffff < buf.length) malformedPacket
  let length ← numericCast16 buf.length
  pure (.binary id (endianStore 2 length) buf)

/-- `string_property(id, buf)` -/
def ofString (id : PropertyId) (buf : Buffer) : Except Exception Property := do
  let p ← ofBinary id buf
  throwIf (utf8StringCheck buf = false) malformedPacket
  pure p

/-- `len_str`: the length bytes and the string -/
def lenStr (buf : Buffer) : Except Exception (Buffer × Buffer) := do
  let len ← numericCast16 buf.length
  throwIf (utf8StringCheck buf = false) malformedPacket
  pure (endianStore 2 len, buf)

/-- `property::payload_format_indicator` -/
def payloadFormatIndicator (fmt : PayloadFormat) : Property :=
  flag .payloadFormatIndicator (fmt ≠ .binary)

def messageExpiryInterval (val : Nat) : Property :=
  .nBytes .messageExpiryInterval (endianStore 4 val)

def contentType := ofString .contentType
def responseTopic := ofString .responseTopic
def correlationData := ofBinary .correlationData

/-- `property::subscription_identifier`. The bytes are built before the value is checked, and
    there are none for a value that a variable byte integer cannot hold. -/
def subscriptionIdentifier (val : Nat) : Except Exception Property := do
  let value := valToVariableBytes val
  throwIf (val = 0) protocolError
  pure (.variableLen .subscriptionIdentifier value)

def sessionExpiryInterval (val : Nat) : Property :=
  .nBytes .sessionExpiryInterval (endianStore 4 val)

def assignedClientIdentifier := ofString .assignedClientIdentifier
def serverKeepAlive (val : Nat) : Property := .nBytes .serverKeepAlive (endianStore 2 val)
def authenticationMethod := ofString .authenticationMethod
def authenticationData := ofBinary .authenticationData
def requestProblemInformation := flag .requestProblemInformation
def willDelayInterval (val : Nat) : Property := .nBytes .willDelayInterval (endianStore 4 val)
def requestResponseInformation := flag .requestResponseInformation
def responseInformation := ofString .responseInformation
def serverReference := ofString .serverReference
def reasonString := ofString .reasonString
def receiveMaximum := nonZero 2 .receiveMaximum
def topicAliasMaximum (val : Nat) : Property := .nBytes .topicAliasMaximum (endianStore 2 val)

/-- `property::topic_alias`, which accepts every value -/
def topicAlias (val : Nat) : Property := .nBytes .topicAlias (endianStore 2 val)

/-- `property::maximum_qos` -/
def maximumQos (value : UInt8) : Except Exception Property := do
  throwIf (value ≠ Qos.atMostOnce ∧ value ≠ Qos.atLeastOnce) protocolError
  pure (.nBytes .maximumQos [value])

def retainAvailable := flag .retainAvailable

/-- `property::user_property` -/
def userProperty (key val : Buffer) : Except Exception Property := do
  let (keyLen, keyBuf) ← lenStr key
  let (valLen, valBuf) ← lenStr val
  pure (.user keyLen keyBuf valLen valBuf)

def maximumPacketSize := nonZero 4 .maximumPacketSize
def wildcardSubscriptionAvailable := flag .wildcardSubscriptionAvailable
def subscriptionIdentifierAvailable := flag .subscriptionIdentifierAvailable
def sharedSubscriptionAvailable := flag .sharedSubscriptionAvailable

end Property

namespace Properties

/-- `const_buffer_sequence(properties const&)` -/
def constBufferSequence (props : Properties) : List Buffer :=
  props.flatMap Property.constBufferSequence

/-- `size(properties const&)` -/
def size (props : Properties) : Nat :=
  (props.map Property.size).sum

/-- `num_of_const_buffer_sequence(properties const&)` -/
def numOfConstBufferSequence (props : Properties) : Nat :=
  (props.map Property.numOfConstBufferSequence).sum

/-- The first property of the list with the given identifier. -/
def find (id : PropertyId) (props : Properties) : Option Property :=
  props.find? (·.id = id)

/-- The number of bytes that a property list announces is the number it has. -/
theorem length_flatten_constBufferSequence (props : Properties) :
    (constBufferSequence props).flatten.length = size props := by
  induction props with
  | nil => rfl
  | cons p props ih =>
    have hp : (p.constBufferSequence).flatten.length = p.size := by
      cases p <;> simp [Property.constBufferSequence, Property.size] <;> omega
    simp only [constBufferSequence, List.flatMap_cons, List.flatten_append, List.length_append,
      size, List.map_cons, List.sum_cons] at ih ⊢
    omega

end Properties

/-! ### make_property_variant -/

/-- A class over `n_bytes_property<n>` whose constructor reports the error of `check`. -/
def makeNBytesProperty (n : Nat) (id : PropertyId) (check : Buffer → Option ErrorCode) :
    Decoder Property := do
  let buf ← remaining
  failIf (buf.length < n) malformedPacket
  let bs ← substr 0 n
  match check bs with
  | some ec => fail ec
  | none =>
    removePrefix n
    pure (.nBytes id bs)

/-- A two-byte length and that many bytes, of which nothing is consumed. -/
def peekLengthPrefixed : Decoder Buffer := do
  let buf ← remaining
  failIf (buf.length < 2) malformedPacket
  let len ← endianLoadFront 2
  failIf (buf.length < 2 + len) malformedPacket
  substr 2 len

/-- A class over `binary_property` (with `check` always true) or `string_property`. -/
def makeBinaryProperty (id : PropertyId) (check : Buffer → Bool) : Decoder Property := do
  let bs ← peekLengthPrefixed
  failIf (check bs = false) malformedPacket
  removePrefix (2 + bs.length)
  pure (.binary id (endianStore 2 bs.length) bs)

/-- `property::subscription_identifier` -/
def makeSubscriptionIdentifier : Decoder Property := do
  let buf ← remaining
  match variableBytesToVal buf with
  | none => fail malformedPacket
  | some (val, rest) =>
    failIf (val = 0) protocolError
    removePrefix (buf.length - rest.length)
    pure (.variableLen .subscriptionIdentifier (valToVariableBytes val))

/-- `property::user_property`. The source checks both strings for UTF-8, but the
    last statement of the constructor clears the error. What remains is the
    check of the two sizes, each counted with its two-byte length. -/
def makeUserProperty : Decoder Property := do
  let key ← peekLengthPrefixed
  removePrefix (2 + key.length)
  let val ← peekLengthPrefixed
  failIf (0xffff < 2 + key.length) malformedPacket
  failIf (0xffff < 2 + val.length) malformedPacket
  removePrefix (2 + val.length)
  pure (.user (endianStore 2 key.length) key (endianStore 2 val.length) val)

/-- The check of `payload_format_indicator`. -/
def checkPayloadFormat (buf : Buffer) : Option ErrorCode :=
  if buf = [0] ∨ buf = [1] then none else some malformedPacket

/-- The check of `maximum_qos`. -/
def checkMaximumQos (buf : Buffer) : Option ErrorCode :=
  if buf ≠ [Qos.atMostOnce] ∧ buf ≠ [Qos.atLeastOnce] then some protocolError else none

/-- The check of `receive_maximum` and `maximum_packet_size`. -/
def checkNonZero (buf : Buffer) : Option ErrorCode :=
  if endianLoad buf.length buf = 0 then some protocolError else none

/-- The `switch (id)` of `make_property_variant`. -/
def makePropertyOfId (id : PropertyId) : Decoder Property :=
  match id with
  | .payloadFormatIndicator => makeNBytesProperty 1 id checkPayloadFormat
  | .requestProblemInformation | .requestResponseInformation | .retainAvailable
  | .wildcardSubscriptionAvailable | .subscriptionIdentifierAvailable
  | .sharedSubscriptionAvailable => makeNBytesProperty 1 id fun _ => none
  | .maximumQos => makeNBytesProperty 1 id checkMaximumQos
  | .serverKeepAlive | .topicAliasMaximum | .topicAlias => makeNBytesProperty 2 id fun _ => none
  | .receiveMaximum => makeNBytesProperty 2 id checkNonZero
  | .messageExpiryInterval | .sessionExpiryInterval | .willDelayInterval =>
    makeNBytesProperty 4 id fun _ => none
  | .maximumPacketSize => makeNBytesProperty 4 id checkNonZero
  | .contentType | .responseTopic | .assignedClientIdentifier | .authenticationMethod
  | .responseInformation | .serverReference | .reasonString =>
    makeBinaryProperty id utf8StringCheck
  | .correlationData | .authenticationData => makeBinaryProperty id fun _ => true
  | .subscriptionIdentifier => makeSubscriptionIdentifier
  | .userProperty => makeUserProperty

/-- `make_property_variant` -/
def makePropertyVariant (loc : PropertyLocation) : Decoder Property := do
  let buf ← remaining
  failIf (buf = []) malformedPacket
  let b ← front
  match PropertyId.ofUInt8 b with
  | none => fail malformedPacket
  | some id =>
    failIf (validateProperty loc id = false) malformedPacket
    removePrefix 1
    makePropertyOfId id

/-- `make_properties` -/
def makeProperties (loc : PropertyLocation) : Decoder Properties :=
  many (makePropertyVariant loc)

/-- The `// property` part of the packet decoders: the property length, the
    bytes it is written with, and the properties. -/
def readProperties (loc : PropertyLocation) (ec : ErrorCode) :
    Decoder (Nat × Buffer × Properties) := do
  let buf ← remaining
  match variableBytesToVal buf with
  | none => fail ec
  | some (propertyLength, rest) =>
    let n := buf.length - rest.length
    let propertyLengthBuf ← substr 0 n
    removePrefix n
    let buf ← remaining
    failIf (buf.length < propertyLength) ec
    let propBuf ← substr 0 propertyLength
    let props ← onBuffer propBuf (makeProperties loc)
    removePrefix propertyLength
    pure (propertyLength, propertyLengthBuf, props)

/-- `for (auto const& prop : props_) if (!validate_property(loc, prop.id())) throw ...` -/
def validateProperties (loc : PropertyLocation) (props : Properties) (ec : ErrorCode) :
    Except Exception Unit :=
  if props.all fun p => validateProperty loc p.id then .ok ()
  else .error (.systemError ec)

end AsyncMqtt
