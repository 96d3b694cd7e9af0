import AsyncMqtt.Native.Property

/-!
# The property parser and its references

`make_property_variant` and `make_properties` of `property_variant.ipp`, with the buffer and the
error code as the references that they are. A call changes both, and returns nothing or a property.
What it should not do has outcomes of its own: a failed assertion, an access outside of the buffer,
and an exception.
-/

namespace AsyncMqtt

namespace PropertyParser

/-- Why a call does not return -/
inductive Failure where
  | assertion
  | outOfBounds
  | badNumericCast
  deriving DecidableEq

/-- `std::optional<property_variant>`, and `buf` and `ec` after the call -/
structure Returned where
  pvOpt : Option Property
  buf : Buffer
  ec : Option ErrorCode

/-- A call of `make_property_variant` -/
abbrev Call := Except Failure Returned

/-- `ec = make_error_code(...); return std::nullopt;` -/
def fail (buf : Buffer) (ec : ErrorCode) : Call := .ok ⟨none, buf, some ec⟩

/-- `return property_variant(p);` -/
def done (p : Property) (buf : Buffer) (ec : Option ErrorCode) : Call := .ok ⟨some p, buf, ec⟩

/-! ### The buffer -/

/-- `buf.front()` -/
def front : Buffer → Except Failure UInt8
  | [] => .error .outOfBounds
  | b :: _ => .ok b

/-- `buf.remove_prefix(n)` -/
def removePrefix (n : Nat) (buf : Buffer) : Except Failure Buffer :=
  if n ≤ buf.length then .ok (buf.drop n) else .error .outOfBounds

/-- The bytes from `buf.begin()` to `std::next(buf.begin(), n)` -/
def firstBytes (n : Nat) (buf : Buffer) : Except Failure Buffer :=
  if n ≤ buf.length then .ok (buf.take n) else .error .outOfBounds

/-- `buf.substr(pos, count)` -/
def substr (pos count : Nat) (buf : Buffer) : Except Failure Buffer :=
  if pos ≤ buf.length then .ok ((buf.drop pos).take count) else .error .outOfBounds

/-- `endian_load<std::uint16_t>(buf.data())` -/
def loadLength (buf : Buffer) : Except Failure Nat := do
  let bs ← firstBytes 2 buf
  return endianLoad 2 bs

/-- `boost::numeric_cast<std::uint16_t>(buf.size())`, stored in two bytes -/
def storeLength (buf : Buffer) : Except Failure Buffer :=
  if buf.length < 2 ^ 16 then .ok (endianStore 2 buf.length) else .error .badNumericCast

/-! ### The branches of the switch -/

/-- A class over `n_bytes_property<n>` whose constructor takes no error code -/
def nBytesProperty (n : Nat) (id : PropertyId) (buf : Buffer) (ec : Option ErrorCode) : Call := do
  if buf.length < n then fail buf malformedPacket
  else
    let bs ← firstBytes n buf
    let rest ← removePrefix n buf
    done (.nBytes id bs) rest ec

/-- A class over `n_bytes_property<n>` whose constructor sets the error code to `check` -/
def checkedNBytesProperty (n : Nat) (id : PropertyId) (check : Buffer → Option ErrorCode)
    (buf : Buffer) : Call := do
  if buf.length < n then fail buf malformedPacket
  else
    let bs ← firstBytes n buf
    match check bs with
    | some ec => fail buf ec
    | none =>
      let rest ← removePrefix n buf
      done (.nBytes id bs) rest none

/-- The error code of `binary_property`, and of `string_property` with its `check` -/
def binaryError (check : Buffer → Bool) (bs : Buffer) : Option ErrorCode :=
  if 0xffff < bs.length then some malformedPacket
  else if check bs then none
  else some malformedPacket

/-- A class over `binary_property` or `string_property` -/
def binaryProperty (id : PropertyId) (check : Buffer → Bool) (buf : Buffer) : Call := do
  if buf.length < 2 then fail buf malformedPacket
  else
    let len ← loadLength buf
    if buf.length < 2 + len then fail buf malformedPacket
    else
      let bs ← substr 2 len buf
      match binaryError check bs with
      | some ec => fail buf ec
      | none =>
        let length ← storeLength bs
        let rest ← removePrefix (2 + len) buf
        done (.binary id length bs) rest none

/-- `property::subscription_identifier` -/
def subscriptionIdentifier (buf : Buffer) : Call := do
  match variableBytesToVal buf with
  | some (val, it) =>
    if val = 0 then fail buf protocolError
    else
      let rest ← removePrefix (buf.length - it.length) buf
      done (.variableLen .subscriptionIdentifier (valToVariableBytes val)) rest none
  | none => fail buf malformedPacket

/-- `property::user_property`. The error code of the UTF-8 checks is overwritten in each case. -/
def userProperty (buf : Buffer) : Call := do
  if buf.length < 2 then fail buf malformedPacket
  else
    let keylen ← loadLength buf
    if buf.length < 2 + keylen then fail buf malformedPacket
    else
      let key ← substr 2 keylen buf
      let buf ← removePrefix (2 + keylen) buf
      if buf.length < 2 then fail buf malformedPacket
      else
        let vallen ← loadLength buf
        if buf.length < 2 + vallen then fail buf malformedPacket
        else
          let val ← substr 2 vallen buf
          let keyLen ← storeLength key
          let valLen ← storeLength val
          if 0xffff < keyLen.length + key.length then fail buf malformedPacket
          else if 0xffff < valLen.length + val.length then fail buf malformedPacket
          else
            let rest ← removePrefix (2 + vallen) buf
            done (.user keyLen key valLen val) rest none

/-- `switch (id)`; a value that is no enumerator gets to the assertion behind it. -/
def switchId (id : Option PropertyId) (buf : Buffer) (ec : Option ErrorCode) : Call :=
  match id with
  | some .payloadFormatIndicator =>
    checkedNBytesProperty 1 .payloadFormatIndicator checkPayloadFormat buf
  | some .messageExpiryInterval => nBytesProperty 4 .messageExpiryInterval buf ec
  | some .contentType => binaryProperty .contentType utf8StringCheck buf
  | some .responseTopic => binaryProperty .responseTopic utf8StringCheck buf
  | some .correlationData => binaryProperty .correlationData (fun _ => true) buf
  | some .subscriptionIdentifier => subscriptionIdentifier buf
  | some .sessionExpiryInterval => nBytesProperty 4 .sessionExpiryInterval buf ec
  | some .assignedClientIdentifier => binaryProperty .assignedClientIdentifier utf8StringCheck buf
  | some .serverKeepAlive => nBytesProperty 2 .serverKeepAlive buf ec
  | some .authenticationMethod => binaryProperty .authenticationMethod utf8StringCheck buf
  | some .authenticationData => binaryProperty .authenticationData (fun _ => true) buf
  | some .requestProblemInformation => nBytesProperty 1 .requestProblemInformation buf ec
  | some .willDelayInterval => nBytesProperty 4 .willDelayInterval buf ec
  | some .requestResponseInformation => nBytesProperty 1 .requestResponseInformation buf ec
  | some .responseInformation => binaryProperty .responseInformation utf8StringCheck buf
  | some .serverReference => binaryProperty .serverReference utf8StringCheck buf
  | some .reasonString => binaryProperty .reasonString utf8StringCheck buf
  | some .receiveMaximum => checkedNBytesProperty 2 .receiveMaximum checkNonZero buf
  | some .topicAliasMaximum => nBytesProperty 2 .topicAliasMaximum buf ec
  | some .topicAlias => nBytesProperty 2 .topicAlias buf ec
  | some .maximumQos => checkedNBytesProperty 1 .maximumQos checkMaximumQos buf
  | some .retainAvailable => nBytesProperty 1 .retainAvailable buf ec
  | some .userProperty => userProperty buf
  | some .maximumPacketSize => checkedNBytesProperty 4 .maximumPacketSize checkNonZero buf
  | some .wildcardSubscriptionAvailable => nBytesProperty 1 .wildcardSubscriptionAvailable buf ec
  | some .subscriptionIdentifierAvailable =>
    nBytesProperty 1 .subscriptionIdentifierAvailable buf ec
  | some .sharedSubscriptionAvailable => nBytesProperty 1 .sharedSubscriptionAvailable buf ec
  | none => .error .assertion

/-- `validate_property`, whose switches have a default for what is no enumerator -/
def validateId (loc : PropertyLocation) (id : Option PropertyId) : Bool :=
  id.any (AsyncMqtt.validateProperty loc)

/-- `make_property_variant` -/
def makePropertyVariant (loc : PropertyLocation) (buf : Buffer) (ec : Option ErrorCode) :
    Call := do
  if buf = [] then fail buf malformedPacket
  else
    let b ← front buf
    let id := PropertyId.ofUInt8 b
    if validateId loc id = false then fail buf malformedPacket
    else
      let rest ← removePrefix 1 buf
      switchId id rest ec

/-! ### make_properties -/

/-- The variables of the loop of `make_properties` -/
structure Loop where
  props : Properties
  buf : Buffer
  ec : Option ErrorCode

/-- A round of the loop, which returns the properties and the error code, or goes on. -/
def Loop.round (loc : PropertyLocation) (s : Loop) :
    Except Failure (Loop ⊕ Properties × Option ErrorCode) := do
  if s.buf = [] then return .inr (s.props, s.ec)
  else
    let r ← makePropertyVariant loc s.buf s.ec
    if r.ec.isSome then return .inr ([], r.ec)
    else
      match r.pvOpt with
      | none => throw .assertion
      | some pv => return .inl ⟨s.props ++ [pv], r.buf, r.ec⟩

/-- At most `n` rounds of the loop; `none` if it has not returned by then. -/
def Loop.run (loc : PropertyLocation) :
    Nat → Loop → Option (Except Failure (Properties × Option ErrorCode))
  | 0, _ => none
  | n + 1, s =>
    match s.round loc with
    | .error failure => some (.error failure)
    | .ok (.inr result) => some (.ok result)
    | .ok (.inl s) => Loop.run loc n s

end PropertyParser

end AsyncMqtt
