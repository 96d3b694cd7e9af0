import Mathlib.Algebra.Group.Nat.Defs
import AsyncMqtt.ForStd.ByteReader

/-!
# Enumerations and error codes

The closed enumerations of the library (`role`, `protocol_version`,
`connection_status`, `control_packet_type`, timers) and `error_code`.

Enumerations whose values travel on the wire as a byte (`qos`, the reason and
return codes) have a fixed underlying type in the source, and the source casts
arbitrary bytes to them. They are kept as that byte, with a constant for each
enumerator.
-/

namespace AsyncMqtt

/-- A byte string: `buffer`, `std::string` and `static_vector<char, N>`. -/
abbrev Buffer := List UInt8

/-- The template argument `PacketIdBytes`; `basic_packet_id_type` exists for 2 and 4. -/
inductive PacketIdBytes where
  | two
  | four
  deriving DecidableEq, Repr

namespace PacketIdBytes

/-- The width of a packet identifier in bytes. -/
def bytes : PacketIdBytes → Nat
  | two => 2
  | four => 4

/-- The number of values of `basic_packet_id_type<PacketIdBytes>::type`. -/
def limit (pb : PacketIdBytes) : Nat := 256 ^ pb.bytes

theorem limit_pos (pb : PacketIdBytes) : 0 < pb.limit := Nat.pow_pos (by decide)

end PacketIdBytes

/-- `role` -/
inductive Role where
  | client
  | server
  | any
  deriving DecidableEq, Repr

/-- `protocol_version` -/
inductive ProtocolVersion where
  | undetermined
  | v311
  | v5
  deriving DecidableEq, Repr

/-- `connection_status` -/
inductive ConnectionStatus where
  | connecting
  | connected
  | disconnected
  deriving DecidableEq, Repr

/-- `timer_kind` -/
inductive TimerKind where
  | pingreqSend
  | pingreqRecv
  | pingrespRecv
  deriving DecidableEq, Repr

/-- `timer_op` -/
inductive TimerOp where
  | reset
  | cancel
  deriving DecidableEq, Repr

/-! ### Error codes -/

/-- The error categories that the connection and the packets report. -/
inductive ErrorCategory where
  | mqttError
  | connectReasonCode
  | disconnectReasonCode
  deriving DecidableEq, Repr

/-- `error_code` -/
structure ErrorCode where
  category : ErrorCategory
  value : Nat
  deriving DecidableEq, Repr

namespace ErrorCode

/-- `make_error_code(mqtt_error)` -/
def mqttError (v : Nat) : ErrorCode := ⟨.mqttError, v⟩

/-- `make_error_code(connect_reason_code)` -/
def connect (v : UInt8) : ErrorCode := ⟨.connectReasonCode, v.toNat⟩

/-- `make_error_code(disconnect_reason_code)` -/
def disconnect (v : UInt8) : ErrorCode := ⟨.disconnectReasonCode, v.toNat⟩

end ErrorCode

namespace MqttError

def packetIdentifierInvalid : ErrorCode := .mqttError 0x0183
def packetNotAllowedToSend : ErrorCode := .mqttError 0x0184
def packetNotRegulated : ErrorCode := .mqttError 0x0186

end MqttError

namespace ConnectReasonCode

def success : UInt8 := 0x00
def malformedPacket : UInt8 := 0x81
def unsupportedProtocolVersion : UInt8 := 0x84

end ConnectReasonCode

namespace DisconnectReasonCode

def normalDisconnection : UInt8 := 0x00
def disconnectWithWillMessage : UInt8 := 0x04
def malformedPacket : UInt8 := 0x81
def protocolError : UInt8 := 0x82
def keepAliveTimeout : UInt8 := 0x8d
def receiveMaximumExceeded : UInt8 := 0x93
def topicAliasInvalid : UInt8 := 0x94
def packetTooLarge : UInt8 := 0x95

end DisconnectReasonCode

/-- `malformed_packet` and `protocol_error` as the packet decoders report them. -/
def malformedPacket : ErrorCode := .disconnect DisconnectReasonCode.malformedPacket

@[inherit_doc malformedPacket]
def protocolError : ErrorCode := .disconnect DisconnectReasonCode.protocolError

/-- `failed` of every reason code category of MQTT v5.0. -/
def reasonCodeFailed (v : UInt8) : Bool := 0x80 ≤ v

/-- What a packet or property constructor throws. -/
inductive Exception where
  /-- `system_error` -/
  | systemError (ec : ErrorCode)
  /-- `boost::numeric::bad_numeric_cast` -/
  | badNumericCast
  deriving DecidableEq, Repr

/-! ### QoS and fixed headers -/

namespace Qos

def atMostOnce : UInt8 := 0
def atLeastOnce : UInt8 := 1
def exactlyOnce : UInt8 := 2

end Qos

namespace Pub

/-- `pub::get_qos`, and `pub::opts::get_qos` -/
def getQos (v : UInt8) : UInt8 := (v &&& 0b00000110) >>> 1

/-- `pub::opts::get_retain` (as a flag) -/
def getRetain (v : UInt8) : Bool := v &&& 0b00000001 != 0

/-- `pub::set_dup(fixed_header, true)` -/
def setDup (fixedHeader : UInt8) : UInt8 := fixedHeader ||| 0b00001000

end Pub

/-- `control_packet_type` -/
inductive ControlPacketType where
  | connect
  | connack
  | publish
  | puback
  | pubrec
  | pubrel
  | pubcomp
  | subscribe
  | suback
  | unsubscribe
  | unsuback
  | pingreq
  | pingresp
  | disconnect
  | auth
  deriving DecidableEq, Repr

namespace ControlPacketType

/-- The enumerator's value. -/
def toUInt8 : ControlPacketType → UInt8
  | connect => 0b00010000
  | connack => 0b00100000
  | publish => 0b00110000
  | puback => 0b01000000
  | pubrec => 0b01010000
  | pubrel => 0b01100000
  | pubcomp => 0b01110000
  | subscribe => 0b10000000
  | suback => 0b10010000
  | unsubscribe => 0b10100000
  | unsuback => 0b10110000
  | pingreq => 0b11000000
  | pingresp => 0b11010000
  | disconnect => 0b11100000
  | auth => 0b11110000

/-- `control_packet_reserved_bits`; PUBLISH has none. -/
def reservedBits : ControlPacketType → Option UInt8
  | publish => none
  | pubrel | subscribe | unsubscribe => some 0b0010
  | _ => some 0b0000

end ControlPacketType

/-- `get_control_packet_type`; `none` is the reserved type 0. -/
def getControlPacketType (v : UInt8) : Option ControlPacketType :=
  match (v &&& 0b11110000).toNat with
  | 0b00010000 => some .connect
  | 0b00100000 => some .connack
  | 0b00110000 => some .publish
  | 0b01000000 => some .puback
  | 0b01010000 => some .pubrec
  | 0b01100000 => some .pubrel
  | 0b01110000 => some .pubcomp
  | 0b10000000 => some .subscribe
  | 0b10010000 => some .suback
  | 0b10100000 => some .unsubscribe
  | 0b10110000 => some .unsuback
  | 0b11000000 => some .pingreq
  | 0b11010000 => some .pingresp
  | 0b11100000 => some .disconnect
  | 0b11110000 => some .auth
  | _ => none

/-- `get_control_packet_type_with_check` -/
def getControlPacketTypeWithCheck (v : UInt8) : Option ControlPacketType :=
  match getControlPacketType v with
  | none => none
  | some cpt =>
    match cpt.reservedBits with
    | none => some cpt
    | some rsv => if v &&& 0b00001111 = rsv then some cpt else none

/-- `detail::make_fixed_header` -/
def makeFixedHeader (type : ControlPacketType) (flags : UInt8) : UInt8 :=
  type.toUInt8 ||| (flags &&& 0x0f)

end AsyncMqtt
