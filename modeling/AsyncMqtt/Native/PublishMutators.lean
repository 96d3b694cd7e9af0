import AsyncMqtt.Native.PacketV5

/-!
# The members of PUBLISH that rewrite it

`remove_topic_add_topic_alias`, `add_topic_alias`, `add_topic`, `remove_topic_alias`,
`remove_topic_alias_add_topic` and `update_message_expiry_interval` of `v5_publish.ipp`,
statement by statement: the lengths are `std::size_t` and are changed by differences
modulo `2 ^ 64`, and the casts may throw.

`PublishPacket.addTopicAlias` and its like in `PacketV5` say what these members come to
for a packet whose lengths are right.
-/

namespace AsyncMqtt

namespace V5

/-- A compound assignment to a member of type `std::size_t`. -/
def sizeT (f : UInt64 → UInt64) (n : Nat) : Nat := (f (.ofNat n)).toNat

namespace PublishMutators

variable {pb : PacketIdBytes}

/-- `update_remaining_length_buf` -/
def updateRemainingLengthBuf (p : PublishPacket pb) : Except Exception (PublishPacket pb) := do
  let rb ← numericCast32 p.remainingLength
  pure { p with remainingLengthBuf := valToVariableBytes rb }

/-- `update_property_length_buf`: the old and the new size of the bytes, and the packet -/
def updatePropertyLengthBuf (p : PublishPacket pb) :
    Except Exception ((UInt64 × UInt64) × PublishPacket pb) := do
  let oldPropertyLengthBufSize := UInt64.ofNat p.propertyLengthBuf.length
  let pl ← numericCast32 p.propertyLength
  let p : PublishPacket pb := { p with propertyLengthBuf := valToVariableBytes pl }
  let newPropertyLengthBufSize := UInt64.ofNat p.propertyLengthBuf.length
  pure ((oldPropertyLengthBufSize, newPropertyLengthBufSize), p)

/-- The loop of `remove_topic_alias_impl`: `size` and the properties that stay -/
def removeTopicAliasImpl.go (size : UInt64) : Properties → UInt64 × Properties
  | [] => (size, [])
  | prop :: props =>
    if prop.id = .topicAlias then go (size + .ofNat prop.size) props
    else
      let (size, props) := go size props
      (size, prop :: props)

/-- `remove_topic_alias_impl` -/
def removeTopicAliasImpl (p : PublishPacket pb) : UInt64 × PublishPacket pb :=
  let (size, props) := removeTopicAliasImpl.go 0 p.props
  (size, { p with props := props })

/-- `add_topic_impl`. That the packet has no topic is an assertion of the source. -/
def addTopicImpl (topic : Buffer) (p : PublishPacket pb) :
    Except Exception (PublishPacket pb) := do
  let topicNameLength ← numericCast16 topic.length
  pure { p with topicName := topic, topicNameLengthBuf := endianStore 2 topicNameLength }

/-- `remove_topic_add_topic_alias` -/
def removeTopicAddTopicAlias (val : UInt16) (p : PublishPacket pb) :
    Except Exception (PublishPacket pb) := do
  -- add topic_alias property
  let prop := Property.topicAlias val.toNat
  let propSize := UInt64.ofNat prop.size
  let p : PublishPacket pb := { p with
    propertyLength := sizeT (· + propSize) p.propertyLength
    props := p.props ++ [prop] }
  let ((oldPropertyLengthBufSize, newPropertyLengthBufSize), p) ← updatePropertyLengthBuf p
  -- remove topic_name
  let oldTopicNameSize := UInt64.ofNat p.topicName.length
  let p : PublishPacket pb := { p with topicName := [], topicNameLengthBuf := endianStore 2 0 }
  let p : PublishPacket pb := { p with
    remainingLength := sizeT (· + (propSize +
      (newPropertyLengthBufSize - oldPropertyLengthBufSize) - oldTopicNameSize))
      p.remainingLength }
  updateRemainingLengthBuf p

/-- `add_topic_alias` -/
def addTopicAlias (val : UInt16) (p : PublishPacket pb) :
    Except Exception (PublishPacket pb) := do
  let prop := Property.topicAlias val.toNat
  let propSize := UInt64.ofNat prop.size
  let p : PublishPacket pb := { p with
    propertyLength := sizeT (· + propSize) p.propertyLength
    props := p.props ++ [prop] }
  let ((oldPropertyLengthBufSize, newPropertyLengthBufSize), p) ← updatePropertyLengthBuf p
  let p : PublishPacket pb := { p with
    remainingLength := sizeT (· + (propSize +
      (newPropertyLengthBufSize - oldPropertyLengthBufSize))) p.remainingLength }
  updateRemainingLengthBuf p

/-- `add_topic` -/
def addTopic (topic : Buffer) (p : PublishPacket pb) : Except Exception (PublishPacket pb) := do
  let p ← addTopicImpl topic p
  let p : PublishPacket pb := { p with
    remainingLength := sizeT (· + UInt64.ofNat p.topicName.length) p.remainingLength }
  updateRemainingLengthBuf p

/-- `remove_topic_alias` -/
def removeTopicAlias (p : PublishPacket pb) : Except Exception (PublishPacket pb) := do
  let (propSize, p) := removeTopicAliasImpl p
  let p : PublishPacket pb := { p with propertyLength := sizeT (· - propSize) p.propertyLength }
  let ((oldPropertyLengthBufSize, newPropertyLengthBufSize), p) ← updatePropertyLengthBuf p
  let p : PublishPacket pb := { p with
    remainingLength := sizeT (· + (-propSize +
      (newPropertyLengthBufSize - oldPropertyLengthBufSize))) p.remainingLength }
  updateRemainingLengthBuf p

/-- `remove_topic_alias_add_topic` -/
def removeTopicAliasAddTopic (topic : Buffer) (p : PublishPacket pb) :
    Except Exception (PublishPacket pb) := do
  let (propSize, p) := removeTopicAliasImpl p
  let p : PublishPacket pb := { p with propertyLength := sizeT (· - propSize) p.propertyLength }
  let p ← addTopicImpl topic p
  let ((oldPropertyLengthBufSize, newPropertyLengthBufSize), p) ← updatePropertyLengthBuf p
  let p : PublishPacket pb := { p with
    remainingLength := sizeT (· + (UInt64.ofNat p.topicName.length - propSize +
      (newPropertyLengthBufSize - oldPropertyLengthBufSize))) p.remainingLength }
  updateRemainingLengthBuf p

/-- The loop of `update_message_expiry_interval` -/
def updateMessageExpiryInterval.go (val : UInt32) : Properties → Properties
  | [] => []
  | prop :: props =>
    if prop.id = .messageExpiryInterval then
      -- `if (updated) return;`
      Property.messageExpiryInterval val.toNat :: props
    else prop :: go val props

/-- `update_message_expiry_interval`, which leaves all lengths as they are -/
def updateMessageExpiryInterval (val : UInt32) (p : PublishPacket pb) : PublishPacket pb :=
  { p with props := updateMessageExpiryInterval.go val p.props }

end PublishMutators

end V5

end AsyncMqtt
