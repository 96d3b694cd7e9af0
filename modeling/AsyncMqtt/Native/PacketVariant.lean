import AsyncMqtt.Native.PacketV5

/-!
# Packet variants

`packet_variant.hpp`, `packet_traits.hpp`, `store_packet_variant.hpp`,
`get_protocol_version.hpp` and `buffer_to_packet_variant.ipp`: the sum of all
packet classes, what the connection asks about a packet's class, and the
decoder that picks the class from the first byte.

`PacketVariant.view` collects the values of all public accessors of a packet.
-/

namespace AsyncMqtt

open ByteReader

/-- `basic_packet_variant<PacketIdBytes>` -/
inductive PacketVariant (pb : PacketIdBytes) where
  | v311Connect (p : V311.ConnectPacket)
  | v311Connack (p : V311.ConnackPacket)
  | v311Publish (p : V311.PublishPacket pb)
  | v311Puback (p : V311.AckPacket pb)
  | v311Pubrec (p : V311.AckPacket pb)
  | v311Pubrel (p : V311.AckPacket pb)
  | v311Pubcomp (p : V311.AckPacket pb)
  | v311Subscribe (p : V311.SubscribePacket pb)
  | v311Suback (p : V311.SubackPacket pb)
  | v311Unsubscribe (p : V311.UnsubscribePacket pb)
  | v311Unsuback (p : V311.AckPacket pb)
  | v311Pingreq (p : TwoBytePacket)
  | v311Pingresp (p : TwoBytePacket)
  | v311Disconnect (p : TwoBytePacket)
  | v5Connect (p : V5.ConnectPacket)
  | v5Connack (p : V5.ConnackPacket)
  | v5Publish (p : V5.PublishPacket pb)
  | v5Puback (p : V5.PubResponsePacket pb)
  | v5Pubrec (p : V5.PubResponsePacket pb)
  | v5Pubrel (p : V5.PubResponsePacket pb)
  | v5Pubcomp (p : V5.PubResponsePacket pb)
  | v5Subscribe (p : V5.SubscribePacket pb)
  | v5Suback (p : V5.SubResponsePacket pb)
  | v5Unsubscribe (p : V5.UnsubscribePacket pb)
  | v5Unsuback (p : V5.SubResponsePacket pb)
  | v5Pingreq (p : TwoBytePacket)
  | v5Pingresp (p : TwoBytePacket)
  | v5Disconnect (p : V5.ReasonPacket)
  | v5Auth (p : V5.ReasonPacket)
  deriving DecidableEq, Repr

namespace PacketVariant

variable {pb : PacketIdBytes}

/-- `is_v3_1_1` and `is_v5` -/
def version : PacketVariant pb → ProtocolVersion
  | v311Connect _ | v311Connack _ | v311Publish _ | v311Puback _ | v311Pubrec _ | v311Pubrel _
  | v311Pubcomp _ | v311Subscribe _ | v311Suback _ | v311Unsubscribe _ | v311Unsuback _
  | v311Pingreq _ | v311Pingresp _ | v311Disconnect _ => .v311
  | _ => .v5

/-- `type()` -/
def type : PacketVariant pb → ControlPacketType
  | v311Connect _ | v5Connect _ => .connect
  | v311Connack _ | v5Connack _ => .connack
  | v311Publish _ | v5Publish _ => .publish
  | v311Puback _ | v5Puback _ => .puback
  | v311Pubrec _ | v5Pubrec _ => .pubrec
  | v311Pubrel _ | v5Pubrel _ => .pubrel
  | v311Pubcomp _ | v5Pubcomp _ => .pubcomp
  | v311Subscribe _ | v5Subscribe _ => .subscribe
  | v311Suback _ | v5Suback _ => .suback
  | v311Unsubscribe _ | v5Unsubscribe _ => .unsubscribe
  | v311Unsuback _ | v5Unsuback _ => .unsuback
  | v311Pingreq _ | v5Pingreq _ => .pingreq
  | v311Pingresp _ | v5Pingresp _ => .pingresp
  | v311Disconnect _ | v5Disconnect _ => .disconnect
  | v5Auth _ => .auth

/-- `const_buffer_sequence()` -/
def constBufferSequence : PacketVariant pb → List Buffer
  | v311Connect p => p.constBufferSequence
  | v311Connack p => p.constBufferSequence
  | v311Publish p => p.constBufferSequence
  | v311Puback p | v311Pubrec p | v311Pubrel p | v311Pubcomp p | v311Unsuback p =>
    p.constBufferSequence
  | v311Subscribe p => p.constBufferSequence
  | v311Suback p => p.constBufferSequence
  | v311Unsubscribe p => p.constBufferSequence
  | v311Pingreq p | v311Pingresp p | v311Disconnect p | v5Pingreq p | v5Pingresp p =>
    p.constBufferSequence
  | v5Connect p => p.constBufferSequence
  | v5Connack p => p.constBufferSequence
  | v5Publish p => p.constBufferSequence
  | v5Puback p | v5Pubrec p | v5Pubrel p | v5Pubcomp p => p.constBufferSequence
  | v5Subscribe p => p.constBufferSequence
  | v5Suback p | v5Unsuback p => p.constBufferSequence
  | v5Unsubscribe p => p.constBufferSequence
  | v5Disconnect p | v5Auth p => p.constBufferSequence

/-- The concatenation of `const_buffer_sequence()`. -/
def bytes (p : PacketVariant pb) : Buffer := p.constBufferSequence.flatten

/-- `size()` -/
def size : PacketVariant pb → Nat
  | v311Connect p => p.size
  | v311Connack p => p.size
  | v311Publish p => p.size
  | v311Puback p | v311Pubrec p | v311Pubrel p | v311Pubcomp p | v311Unsuback p => p.size
  | v311Subscribe p => p.size
  | v311Suback p => p.size
  | v311Unsubscribe p => p.size
  | v311Pingreq p | v311Pingresp p | v311Disconnect p | v5Pingreq p | v5Pingresp p => p.size
  | v5Connect p => p.size
  | v5Connack p => p.size
  | v5Publish p => p.size
  | v5Puback p | v5Pubrec p | v5Pubrel p | v5Pubcomp p => p.size
  | v5Subscribe p => p.size
  | v5Suback p | v5Unsuback p => p.size
  | v5Unsubscribe p => p.size
  | v5Disconnect p | v5Auth p => p.size

/-- `num_of_const_buffer_sequence()` -/
def numOfConstBufferSequence : PacketVariant pb → Nat
  | v311Connect p => p.numOfConstBufferSequence
  | v311Connack p => p.numOfConstBufferSequence
  | v311Publish p => p.numOfConstBufferSequence
  | v311Puback p | v311Pubrec p | v311Pubrel p | v311Pubcomp p | v311Unsuback p =>
    p.numOfConstBufferSequence
  | v311Subscribe p => p.numOfConstBufferSequence
  | v311Suback p => p.numOfConstBufferSequence
  | v311Unsubscribe p => p.numOfConstBufferSequence
  | v311Pingreq p | v311Pingresp p | v311Disconnect p | v5Pingreq p | v5Pingresp p =>
    p.numOfConstBufferSequence
  | v5Connect p => p.numOfConstBufferSequence
  | v5Connack p => p.numOfConstBufferSequence
  | v5Publish p => p.numOfConstBufferSequence
  | v5Puback p | v5Pubrec p | v5Pubrel p | v5Pubcomp p => p.numOfConstBufferSequence
  | v5Subscribe p => p.numOfConstBufferSequence
  | v5Suback p | v5Unsuback p => p.numOfConstBufferSequence
  | v5Unsubscribe p => p.numOfConstBufferSequence
  | v5Disconnect p | v5Auth p => p.numOfConstBufferSequence

/-- `packet_id()`, and 0 for the classes that have none -/
def packetId : PacketVariant pb → Nat
  | v311Publish p => p.packetId
  | v311Puback p | v311Pubrec p | v311Pubrel p | v311Pubcomp p | v311Unsuback p => p.packetId
  | v311Subscribe p => p.packetId
  | v311Suback p => p.packetId
  | v311Unsubscribe p => p.packetId
  | v5Publish p => p.packetId
  | v5Puback p | v5Pubrec p | v5Pubrel p | v5Pubcomp p => p.packetId
  | v5Subscribe p => p.packetId
  | v5Suback p | v5Unsuback p => p.packetId
  | v5Unsubscribe p => p.packetId
  | _ => 0

/-- `is_client_sendable` -/
def isClientSendable (p : PacketVariant pb) : Bool :=
  match p.type with
  | .connect | .pingreq | .disconnect | .publish | .puback | .pubrec | .pubrel | .pubcomp
  | .subscribe | .unsubscribe | .auth => true
  | .connack | .suback | .unsuback | .pingresp => false

/-- `is_server_sendable` -/
def isServerSendable (p : PacketVariant pb) : Bool :=
  match p.type with
  | .connack | .pingresp | .publish | .puback | .pubrec | .pubrel | .pubcomp | .suback
  | .unsuback | .auth => true
  | .disconnect => p.version = .v5
  | .connect | .pingreq | .subscribe | .unsubscribe => false

/-- `own_packet_id` -/
def ownPacketId (p : PacketVariant pb) : Bool :=
  match p.type with
  | .publish | .pubrel | .subscribe | .unsubscribe => true
  | _ => false

end PacketVariant

/-! ### buffer_to_packet_variant.ipp -/

/-- `get_protocol_version`. The version is the byte at index 6, which is read as
    soon as there are six bytes. -/
def getProtocolVersion : Decoder UInt8 := do
  removePrefix 1
  match ← insertAdvanceVariableLength with
  | some _ => do
    let buf ← remaining
    if 6 ≤ buf.length then getAt 6 else pure 0
  | none => pure 0

/-- The `v3_1_1` cases of `buffer_to_basic_packet_variant`. -/
def decodeV311 (pb : PacketIdBytes) : ControlPacketType → Decoder (PacketVariant pb)
  | .connect => .v311Connect <$> V311.ConnectPacket.decode
  | .connack => .v311Connack <$> V311.ConnackPacket.decode
  | .publish => .v311Publish <$> V311.PublishPacket.decode pb
  | .puback => .v311Puback <$> V311.AckPacket.decode .puback pb
  | .pubrec => .v311Pubrec <$> V311.AckPacket.decode .pubrec pb
  | .pubrel => .v311Pubrel <$> V311.AckPacket.decode .pubrel pb
  | .pubcomp => .v311Pubcomp <$> V311.AckPacket.decode .pubcomp pb
  | .subscribe => .v311Subscribe <$> V311.SubscribePacket.decode pb
  | .suback => .v311Suback <$> V311.SubackPacket.decode pb
  | .unsubscribe => .v311Unsubscribe <$> V311.UnsubscribePacket.decode pb
  | .unsuback => .v311Unsuback <$> V311.AckPacket.decode .unsuback pb
  | .pingreq => .v311Pingreq <$> TwoBytePacket.decode .pingreq
  | .pingresp => .v311Pingresp <$> TwoBytePacket.decode .pingresp
  | .disconnect => .v311Disconnect <$> TwoBytePacket.decode .disconnect
  | .auth => fail protocolError

/-- The `v5` cases of `buffer_to_basic_packet_variant`. -/
def decodeV5 (pb : PacketIdBytes) : ControlPacketType → Decoder (PacketVariant pb)
  | .connect => .v5Connect <$> V5.ConnectPacket.decode
  | .connack => .v5Connack <$> V5.ConnackPacket.decode
  | .publish => .v5Publish <$> V5.PublishPacket.decode pb
  | .puback => .v5Puback <$> V5.PubResponsePacket.decode .puback V5.pubackReasonCodes pb
  | .pubrec => .v5Pubrec <$> V5.PubResponsePacket.decode .pubrec V5.pubackReasonCodes pb
  | .pubrel => .v5Pubrel <$> V5.PubResponsePacket.decode .pubrel V5.pubrelReasonCodes pb
  | .pubcomp => .v5Pubcomp <$> V5.PubResponsePacket.decode .pubcomp V5.pubrelReasonCodes pb
  | .subscribe => .v5Subscribe <$> V5.SubscribePacket.decode pb
  | .suback => .v5Suback <$> V5.SubResponsePacket.decode .suback .suback V5.subackReasonCodes pb
  | .unsubscribe => .v5Unsubscribe <$> V5.UnsubscribePacket.decode pb
  | .unsuback =>
    .v5Unsuback <$> V5.SubResponsePacket.decode .unsuback .unsuback V5.unsubackReasonCodes pb
  | .pingreq => .v5Pingreq <$> TwoBytePacket.decode .pingreq
  | .pingresp => .v5Pingresp <$> TwoBytePacket.decode .pingresp
  | .disconnect => .v5Disconnect <$> V5.ReasonPacket.decode .disconnect V5.disconnectReasonCodes
  | .auth => .v5Auth <$> V5.ReasonPacket.decode .auth V5.authReasonCodes

/-- The `connect` case for an undetermined protocol version. -/
def decodeUndeterminedConnect (pb : PacketIdBytes) : Decoder (PacketVariant pb) := do
  let buf ← remaining
  let version ← onBuffer buf getProtocolVersion
  if version = 4 then decodeV311 pb .connect
  else if version = 5 then decodeV5 pb .connect
  else fail (.connect ConnectReasonCode.unsupportedProtocolVersion)

/-- `buffer_to_basic_packet_variant` -/
def bufferToPacketVariant (pb : PacketIdBytes) (ver : ProtocolVersion) :
    Decoder (PacketVariant pb) := do
  let buf ← remaining
  failIf (buf.length < 2) malformedPacket
  let b ← getAt 0
  match getControlPacketType b with
  | none => fail malformedPacket
  | some cpt =>
    match ver with
    | .v311 => decodeV311 pb cpt
    | .v5 => decodeV5 pb cpt
    | .undetermined =>
      if cpt = .connect then decodeUndeterminedConnect pb else fail protocolError

/-! ### Public accessors -/

/-- The values of all public accessors of a packet. Those that a class does not
    have stand at their defaults. -/
structure PacketView where
  version : ProtocolVersion
  type : ControlPacketType
  size : Nat
  packetId : Nat
  /-- `opts()` of PUBLISH -/
  opts : UInt8 := 0
  topic : Buffer := []
  payload : Buffer := []
  /-- `clean_session()` of v3.1.1, `clean_start()` of v5.0 -/
  cleanStart : Bool := false
  keepAlive : Nat := 0
  clientId : Buffer := []
  userName : Option Buffer := none
  password : Option Buffer := none
  will : Option Will := none
  sessionPresent : Bool := false
  /-- `code()` -/
  code : UInt8 := 0
  /-- `entries()` of SUBACK and UNSUBACK -/
  codes : List UInt8 := []
  /-- `entries()` of SUBSCRIBE -/
  subscriptions : List TopicSubopts := []
  /-- `entries()` of UNSUBSCRIBE -/
  topics : List TopicSharename := []
  props : Properties := []
  deriving DecidableEq, Repr

namespace PacketVariant

variable {pb : PacketIdBytes}

/-- All public accessors of a packet. -/
def view (v : PacketVariant pb) : PacketView :=
  let base : PacketView := ⟨v.version, v.type, v.size, v.packetId, 0, [], [], false, 0, [], none,
    none, none, false, 0, [], [], [], []⟩
  match v with
  | v311Connect p =>
    { base with
      cleanStart := p.cleanSession, keepAlive := p.keepAlive, clientId := p.clientId,
      userName := p.getUserName, password := p.getPassword, will := p.getWill }
  | v311Connack p => { base with sessionPresent := p.sessionPresent, code := p.code }
  | v311Publish p => { base with opts := p.opts, topic := p.topicName, payload := p.payload }
  | v311Subscribe p => { base with subscriptions := p.entries }
  | v311Suback p => { base with codes := p.entries }
  | v311Unsubscribe p => { base with topics := p.entries }
  | v5Connect p =>
    { base with
      cleanStart := p.cleanStart, keepAlive := p.keepAlive, clientId := p.clientId,
      userName := p.getUserName, password := p.getPassword, will := p.getWill,
      props := p.props }
  | v5Connack p =>
    { base with sessionPresent := p.sessionPresent, code := p.code, props := p.props }
  | v5Publish p =>
    { base with opts := p.opts, topic := p.topicName, payload := p.payload, props := p.props }
  | v5Puback p | v5Pubrec p | v5Pubrel p | v5Pubcomp p =>
    { base with code := p.code, props := p.props }
  | v5Subscribe p => { base with subscriptions := p.entries, props := p.props }
  | v5Suback p | v5Unsuback p => { base with codes := p.entries, props := p.props }
  | v5Unsubscribe p => { base with topics := p.entries, props := p.props }
  | v5Disconnect p | v5Auth p => { base with code := p.code, props := p.props }
  | _ => base

end PacketVariant

/-! ### store_packet_variant.hpp -/

/-- `response_packet` -/
inductive ResponsePacket where
  | v311Puback
  | v311Pubrec
  | v311Pubcomp
  | v5Puback
  | v5Pubrec
  | v5Pubcomp
  deriving DecidableEq, Repr

/-- The variant type of `basic_store_packet_variant<PacketIdBytes>`. -/
inductive StorePacket (pb : PacketIdBytes) where
  | v311Publish (p : V311.PublishPacket pb)
  | v311Pubrel (p : V311.AckPacket pb)
  | v5Publish (p : V5.PublishPacket pb)
  | v5Pubrel (p : V5.PubResponsePacket pb)
  deriving DecidableEq, Repr

namespace StorePacket

variable {pb : PacketIdBytes}

/-- `packet_id()` -/
def packetId : StorePacket pb → Nat
  | v311Publish p => p.packetId
  | v311Pubrel p => p.packetId
  | v5Publish p => p.packetId
  | v5Pubrel p => p.packetId

/-- `size()` -/
def size : StorePacket pb → Nat
  | v311Publish p => p.size
  | v311Pubrel p => p.size
  | v5Publish p => p.size
  | v5Pubrel p => p.size

/-- `operator basic_packet_variant<PacketIdBytes>()` -/
def toPacketVariant : StorePacket pb → PacketVariant pb
  | v311Publish p => .v311Publish p
  | v311Pubrel p => .v311Pubrel p
  | v5Publish p => .v5Publish p
  | v5Pubrel p => .v5Pubrel p

/-- `get_message_expiry_interval()` -/
def messageExpiryInterval : StorePacket pb → Nat
  | v5Publish p =>
    match p.props.find .messageExpiryInterval with
    | some prop => prop.val
    | none => 0
  | _ => 0

/-- The response that the constructors of `basic_store_packet_variant` compute;
    `none` when they throw `packet_not_allowed_to_store`. -/
def response? : StorePacket pb → Option ResponsePacket
  | v311Publish p =>
    match (Pub.getQos p.opts).toNat with
    | 1 => some .v311Puback
    | 2 => some .v311Pubrec
    | _ => none
  | v311Pubrel _ => some .v311Pubcomp
  | v5Publish p =>
    match (Pub.getQos p.opts).toNat with
    | 1 => some .v5Puback
    | 2 => some .v5Pubrec
    | _ => none
  | v5Pubrel _ => some .v5Pubcomp

end StorePacket

/-- `basic_store_packet_variant<PacketIdBytes>`: a packet with the response that
    ends its stay in the store. -/
structure StorePacketVariant (pb : PacketIdBytes) where
  packet : StorePacket pb
  res : ResponsePacket
  isResponse : packet.response? = some res

namespace StorePacketVariant

variable {pb : PacketIdBytes}

instance : DecidableEq (StorePacketVariant pb) := fun a b =>
  decidable_of_iff (a.packet = b.packet) <| by
    refine ⟨fun h => ?_, fun h => h ▸ rfl⟩
    obtain ⟨p, r, hr⟩ := a
    obtain ⟨q, s, hs⟩ := b
    obtain rfl : p = q := h
    obtain rfl : r = s := Option.some.inj (hr.symm.trans hs)
    rfl

def packetId (v : StorePacketVariant pb) : Nat := v.packet.packetId

def size (v : StorePacketVariant pb) : Nat := v.packet.size

/-- `response_packet_type()` -/
def responsePacketType (v : StorePacketVariant pb) : ResponsePacket := v.res

/-- The constructors of `basic_store_packet_variant`. -/
def ofPacket? (p : StorePacket pb) : Option (StorePacketVariant pb) :=
  match h : p.response? with
  | some res => some ⟨p, res, h⟩
  | none => none

end StorePacketVariant

end AsyncMqtt
