import AsyncMqtt.Native.Property

/-!
# MQTT v3.1.1 packets

The packet classes of `v3_1_1_*.ipp`: their members, public constructors,
`const_buffer_sequence` and decoders (`packet(buffer, error_code&)`).

Classes that differ in their control packet type and flags only share one
definition, which each of them applies to its own values.
-/

namespace AsyncMqtt

open ByteReader

/-! ### Parts that both protocol versions use -/

/-- `will` -/
structure Will where
  topic : Buffer
  message : Buffer
  pubopts : UInt8
  props : Properties
  deriving DecidableEq, Repr

namespace ConnectFlags

def maskCleanSession : UInt8 := 0b00000010
def maskCleanStart : UInt8 := 0b00000010
def maskWillFlag : UInt8 := 0b00000100
def maskWillRetain : UInt8 := 0b00100000
def maskPasswordFlag : UInt8 := 0b01000000
def maskUserNameFlag : UInt8 := 0b10000000

def hasCleanSession (v : UInt8) : Bool := v &&& maskCleanSession ≠ 0
def hasCleanStart (v : UInt8) : Bool := v &&& maskCleanStart ≠ 0
def hasWillFlag (v : UInt8) : Bool := v &&& maskWillFlag ≠ 0
def willRetain (v : UInt8) : Bool := v &&& maskWillRetain ≠ 0
def hasPasswordFlag (v : UInt8) : Bool := v &&& maskPasswordFlag ≠ 0
def hasUserNameFlag (v : UInt8) : Bool := v &&& maskUserNameFlag ≠ 0

/-- `set_will_qos`: the bits it sets -/
def setWillQos (qos : UInt8) : UInt8 := qos <<< 3

def willQos (v : UInt8) : UInt8 := (v &&& 0b00011000) >>> 3

/-- The will bits that a CONNECT constructor sets. -/
def ofWill : Option Will → UInt8
  | none => 0
  | some w =>
    maskWillFlag ||| (if Pub.getRetain w.pubopts then maskWillRetain else 0) |||
      setWillQos (Pub.getQos w.pubopts)

/-- The flags that a CONNECT constructor builds. -/
def make (cleanSession : Bool) (w : Option Will) (userName password : Option Buffer) : UInt8 :=
  (if cleanSession then maskCleanSession else 0) |||
    (if userName.isSome then maskUserNameFlag else 0) |||
    (if password.isSome then maskPasswordFlag else 0) ||| ofWill w

/-- The `pub::opts` that `get_will` builds. -/
def willOpts (v : UInt8) : UInt8 := (if willRetain v then (1 : UInt8) else 0) ||| (willQos v <<< 1)

end ConnectFlags

/-- `is_session_present` -/
def isSessionPresent (v : UInt8) : Bool := v &&& 0b00000001 ≠ 0

/-- `malformed_packet` as the CONNECT packets report it -/
def connectMalformedPacket : ErrorCode := .connect ConnectReasonCode.malformedPacket

/-- An optional string of CONNECT: its length bytes and its bytes, both empty
    when it is absent. -/
def encodeOptional (check : Buffer → Bool) :
    Option Buffer → Except Exception (Buffer × Buffer)
  | none => .ok ([], [])
  | some s => do
    throwIf (check s = false) connectMalformedPacket
    let length ← numericCast16 s.length
    pure (endianStore 2 length, s)

/-- The will topic and message of CONNECT, each with its length bytes. -/
def encodeWill : Option Will → Except Exception ((Buffer × Buffer) × (Buffer × Buffer))
  | none => .ok (([], []), ([], []))
  | some w => do
    throwIf (utf8StringCheck w.topic = false) connectMalformedPacket
    let topicLength ← numericCast16 w.topic.length
    throwIf (0xffff < w.message.length) connectMalformedPacket
    let messageLength ← numericCast16 w.message.length
    pure ((endianStore 2 topicLength, w.topic), (endianStore 2 messageLength, w.message))

/-- The part of the remaining length of CONNECT that the optional strings take. -/
def optionalSize : Option Buffer → Nat
  | none => 0
  | some s => 2 + s.length

/-- `// connect_flags` of the CONNECT decoders -/
def readConnectFlags : Decoder UInt8 := do
  let buf ← remaining
  failIf (buf.length < 1) connectMalformedPacket
  let flags ← front
  failIf (flags &&& 0b00000001 ≠ 0) connectMalformedPacket
  removePrefix 1
  pure flags

/-- The check of the will QoS of a CONNECT that has a will. -/
def checkWillQos (flags : UInt8) : Decoder Unit :=
  let willQos := ConnectFlags.willQos flags
  failIf (willQos ≠ Qos.atMostOnce ∧ willQos ≠ Qos.atLeastOnce ∧ willQos ≠ Qos.exactlyOnce)
    connectMalformedPacket

/-- The checks of a CONNECT that has no will. -/
def checkNoWill (flags : UInt8) : Decoder Unit := do
  failIf (ConnectFlags.willRetain flags = true) connectMalformedPacket
  failIf (ConnectFlags.willQos flags ≠ Qos.atMostOnce) connectMalformedPacket

/-- `// user_name` of the CONNECT decoders -/
def readUserName (flags : UInt8) : Decoder (Buffer × Buffer) :=
  if ConnectFlags.hasUserNameFlag flags then
    readLengthPrefixed utf8StringCheck connectMalformedPacket
  else pure ([], [])

/-- `// password` of the CONNECT decoders: it ends the packet -/
def readPassword (flags : UInt8) : Decoder (Buffer × Buffer) :=
  if ConnectFlags.hasPasswordFlag flags then do
    let lengthBuf ← readBytes 2 connectMalformedPacket
    let length := endianLoad 2 lengthBuf
    let buf ← remaining
    failIf (buf.length ≠ length) connectMalformedPacket
    let password ← substr 0 length
    removePrefix length
    pure (lengthBuf, password)
  else pure ([], [])

/-- `// packet_id` of the PUBLISH decoders -/
def readPublishPacketId (pb : PacketIdBytes) (fixedHeader : UInt8) : Decoder Buffer :=
  match (Pub.getQos fixedHeader).toNat with
  | 0 => pure (endianStore pb.bytes 0)
  | 1 | 2 => readBytes pb.bytes malformedPacket
  | _ => fail malformedPacket

/-- `if (!buf.empty()) payloads_.emplace_back(buf)` -/
def payloadsOf (buf : Buffer) : List Buffer := if buf = [] then [] else [buf]

/-- `// payload` of the PUBLISH decoders -/
def readPayloads : Decoder (List Buffer) := do
  let buf ← remaining
  removePrefix buf.length
  pure (payloadsOf buf)

/-- `topic_sharename`: a topic filter as it is written in SUBSCRIBE and UNSUBSCRIBE -/
structure TopicSharename where
  allTopic : Buffer
  deriving DecidableEq, Repr

namespace TopicSharename

/-- The bytes of `$share/`. -/
def sharedPrefix : Buffer := [0x24, 0x73, 0x68, 0x61, 0x72, 0x65, 0x2f]

/-- `sharename()` -/
def sharename (t : TopicSharename) : Buffer :=
  if t.allTopic.take sharedPrefix.length = sharedPrefix then
    let name := t.allTopic.drop sharedPrefix.length
    match name.idxOf? 0x2f with
    | none | some 0 => name
    | some idx => name.take idx
  else []

end TopicSharename

/-- `topic_subopts` -/
structure TopicSubopts where
  topicSharename : TopicSharename
  opts : UInt8
  deriving DecidableEq, Repr

namespace TopicSubopts

def allTopic (e : TopicSubopts) : Buffer := e.topicSharename.allTopic
def sharename (e : TopicSubopts) : Buffer := e.topicSharename.sharename

end TopicSubopts

namespace SubOpts

def getRetainHandling (opts : UInt8) : UInt8 := opts &&& 0b00110000
def getNl (opts : UInt8) : UInt8 := opts &&& 0b00000100
def getQos (opts : UInt8) : UInt8 := opts &&& 0b00000011

end SubOpts

/-- The first loop of the SUBSCRIBE and UNSUBSCRIBE constructors. -/
def checkTopicSizes (topics : List Buffer) : Except Exception Unit :=
  forEach (fun topic => throwIf (0xffff < topic.length) malformedPacket) topics

/-- `topic_length_buf_entries_` as the first loop fills it -/
def topicLengthBufs (topics : List Buffer) : List Buffer :=
  topics.map fun topic => endianStore 2 topic.length

/-- `if (buf.empty()) { ec = protocol_error; return; }` -/
def checkEntries : Decoder Unit := do
  let buf ← remaining
  failIf (buf = []) protocolError

/-- The body of the entry loop of the SUBACK and UNSUBACK decoders. -/
def readCode (accepted : List UInt8) : Decoder UInt8 := do
  let code ← readByte malformedPacket
  failIf (code ∉ accepted) malformedPacket
  pure code

/-- The two-byte packets: PINGREQ and PINGRESP of both versions, DISCONNECT of v3.1.1. -/
structure TwoBytePacket where
  all : Buffer
  deriving DecidableEq, Repr

namespace TwoBytePacket

/-- The constructor of each of them, applied to its type. -/
def make (type : ControlPacketType) : TwoBytePacket := ⟨[makeFixedHeader type 0b0000, 0]⟩

def constBufferSequence (p : TwoBytePacket) : List Buffer := [p.all]

def size (p : TwoBytePacket) : Nat := p.all.length

def numOfConstBufferSequence (_ : TwoBytePacket) : Nat := 1

/-- The decoder of each of them. What follows the second byte is not looked at. -/
def decode (type : ControlPacketType) : Decoder TwoBytePacket := do
  let fixedHeader ← readFixedHeaderWithCheck type malformedPacket
  let buf ← remaining
  failIf (buf = []) malformedPacket
  let remainingLength ← front
  failIf (remainingLength ≠ 0) malformedPacket
  pure ⟨[fixedHeader, remainingLength]⟩

end TwoBytePacket

namespace V311

/-! ### CONNECT -/

/-- `v3_1_1::connect_packet` -/
structure ConnectPacket where
  fixedHeader : UInt8
  connectFlags : UInt8
  remainingLength : Nat
  remainingLengthBuf : Buffer
  protocolNameAndLevel : Buffer
  clientId : Buffer
  clientIdLengthBuf : Buffer
  willTopic : Buffer
  willTopicLengthBuf : Buffer
  willMessage : Buffer
  willMessageLengthBuf : Buffer
  userName : Buffer
  userNameLengthBuf : Buffer
  password : Buffer
  passwordLengthBuf : Buffer
  keepAliveBuf : Buffer
  deriving DecidableEq, Repr

/-- `{0x00, 0x04, 'M', 'Q', 'T', 'T', 0x04}` -/
def protocolNameAndLevel : Buffer := [0x00, 0x04, 0x4d, 0x51, 0x54, 0x54, 0x04]

/-- The part of the remaining length that a will takes. -/
def willSize : Option Will → Nat
  | none => 0
  | some w => 2 + w.topic.length + 2 + w.message.length

/-- `connect_packet(clean_session, keep_alive_sec, client_id, w, user_name, password)`;
    the constructor without a will passes `std::nullopt` for it. -/
def connectPacket (cleanSession : Bool) (keepAliveSec : UInt16) (clientId : Buffer)
    (w : Option Will) (userName password : Option Buffer) : Except Exception ConnectPacket := do
  let clientIdLength ← numericCast16 clientId.length
  throwIf (utf8StringCheck clientId = false) connectMalformedPacket
  let (userNameLengthBuf, userNameBuf) ← encodeOptional utf8StringCheck userName
  let (passwordLengthBuf, passwordBuf) ← encodeOptional (fun _ => true) password
  let ((willTopicLengthBuf, willTopic), (willMessageLengthBuf, willMessage)) ← encodeWill w
  let remainingLength := 2 + 4 + 1 + 1 + 2 + 2 + clientId.length + optionalSize userName +
    optionalSize password + willSize w
  let rb ← numericCast32 remainingLength
  pure {
    fixedHeader := makeFixedHeader .connect 0b0000
    connectFlags := ConnectFlags.make cleanSession w userName password
    remainingLength := remainingLength
    remainingLengthBuf := valToVariableBytes rb
    protocolNameAndLevel := protocolNameAndLevel
    clientId := clientId
    clientIdLengthBuf := endianStore 2 clientIdLength
    willTopic := willTopic
    willTopicLengthBuf := willTopicLengthBuf
    willMessage := willMessage
    willMessageLengthBuf := willMessageLengthBuf
    userName := userNameBuf
    userNameLengthBuf := userNameLengthBuf
    password := passwordBuf
    passwordLengthBuf := passwordLengthBuf
    keepAliveBuf := endianStore 2 keepAliveSec.toNat }

namespace ConnectPacket

def constBufferSequence (p : ConnectPacket) : List Buffer :=
  [[p.fixedHeader], p.remainingLengthBuf, p.protocolNameAndLevel, [p.connectFlags],
    p.keepAliveBuf, p.clientIdLengthBuf, p.clientId] ++
  (if ConnectFlags.hasWillFlag p.connectFlags then
    [p.willTopicLengthBuf, p.willTopic, p.willMessageLengthBuf, p.willMessage] else []) ++
  (if ConnectFlags.hasUserNameFlag p.connectFlags then
    [p.userNameLengthBuf, p.userName] else []) ++
  (if ConnectFlags.hasPasswordFlag p.connectFlags then
    [p.passwordLengthBuf, p.password] else [])

def size (p : ConnectPacket) : Nat := 1 + p.remainingLengthBuf.length + p.remainingLength

def numOfConstBufferSequence (p : ConnectPacket) : Nat :=
  1 + 1 + 1 + 1 + 1 + 2 +
  (if ConnectFlags.hasWillFlag p.connectFlags then 2 + 2 else 0) +
  (if ConnectFlags.hasUserNameFlag p.connectFlags then 2 else 0) +
  (if ConnectFlags.hasPasswordFlag p.connectFlags then 2 else 0)

def cleanSession (p : ConnectPacket) : Bool := ConnectFlags.hasCleanSession p.connectFlags

def keepAlive (p : ConnectPacket) : Nat := endianLoad 2 p.keepAliveBuf

/-- `user_name()` -/
def getUserName (p : ConnectPacket) : Option Buffer :=
  if ConnectFlags.hasUserNameFlag p.connectFlags then some p.userName else none

/-- `password()` -/
def getPassword (p : ConnectPacket) : Option Buffer :=
  if ConnectFlags.hasPasswordFlag p.connectFlags then some p.password else none

def getWill (p : ConnectPacket) : Option Will :=
  if ConnectFlags.hasWillFlag p.connectFlags then
    some ⟨p.willTopic, p.willMessage, ConnectFlags.willOpts p.connectFlags, []⟩
  else none

/-- `// will` of the decoder -/
def readWill (flags : UInt8) : Decoder ((Buffer × Buffer) × (Buffer × Buffer)) :=
  if ConnectFlags.hasWillFlag flags then do
    checkWillQos flags
    let willTopic ← readLengthPrefixed utf8StringCheck connectMalformedPacket
    let willMessage ← readLengthPrefixed (fun _ => true) connectMalformedPacket
    pure (willTopic, willMessage)
  else do
    checkNoWill flags
    pure (([], []), ([], []))

def decode : Decoder ConnectPacket := do
  let fixedHeader ← readFixedHeaderWithCheck .connect connectMalformedPacket
  let (remainingLength, remainingLengthBuf) ← readRemainingLength connectMalformedPacket
  checkRemainingLength remainingLength connectMalformedPacket
  let protocolNameAndLevel ← readBytes 7 connectMalformedPacket
  failIf (protocolNameAndLevel ≠ V311.protocolNameAndLevel)
    (.connect ConnectReasonCode.unsupportedProtocolVersion)
  let connectFlags ← readConnectFlags
  let keepAliveBuf ← readBytes 2 connectMalformedPacket
  let (clientIdLengthBuf, clientId) ← readLengthPrefixed utf8StringCheck connectMalformedPacket
  let ((willTopicLengthBuf, willTopic), (willMessageLengthBuf, willMessage)) ←
    readWill connectFlags
  let (userNameLengthBuf, userName) ← readUserName connectFlags
  let (passwordLengthBuf, password) ← readPassword connectFlags
  pure {
    fixedHeader, connectFlags, remainingLength, remainingLengthBuf, protocolNameAndLevel,
    clientId, clientIdLengthBuf, willTopic, willTopicLengthBuf, willMessage,
    willMessageLengthBuf, userName, userNameLengthBuf, password, passwordLengthBuf,
    keepAliveBuf }

end ConnectPacket

/-! ### CONNACK -/

/-- `v3_1_1::connack_packet` -/
structure ConnackPacket where
  all : Buffer
  deriving DecidableEq, Repr

/-- `connack_packet(session_present, return_code)` -/
def connackPacket (sessionPresent : Bool) (returnCode : UInt8) : ConnackPacket :=
  ⟨[makeFixedHeader .connack 0b0000, 0b0010, if sessionPresent then 1 else 0, returnCode]⟩

namespace ConnackPacket

def constBufferSequence (p : ConnackPacket) : List Buffer := [p.all]

def size (p : ConnackPacket) : Nat := p.all.length

def numOfConstBufferSequence (_ : ConnackPacket) : Nat := 1

def sessionPresent (p : ConnackPacket) : Bool := isSessionPresent (p.all.getD 2 0)

def code (p : ConnackPacket) : UInt8 := p.all.getD 3 0

def decode : Decoder ConnackPacket := do
  let fixedHeader ← readFixedHeaderWithCheck .connack malformedPacket
  let remainingLength ← readByte malformedPacket
  failIf (remainingLength ≠ 0b00000010) malformedPacket
  let buf ← remaining
  failIf (buf.length ≠ 2) malformedPacket
  let flags ← front
  removePrefix 1
  failIf (flags &&& 0b11111110 ≠ 0) malformedPacket
  let returnCode ← front
  failIf (5 < returnCode) malformedPacket
  pure ⟨[fixedHeader, remainingLength, flags, returnCode]⟩

end ConnackPacket

/-! ### PUBLISH -/

/-- `v3_1_1::basic_publish_packet`. `packetIdBuf` is what was written at
    `packet_id_.data()`; the vector itself has `pb.bytes` elements. -/
structure PublishPacket (pb : PacketIdBytes) where
  fixedHeader : UInt8
  topicName : Buffer
  topicNameLengthBuf : Buffer
  packetIdBuf : Buffer
  payloads : List Buffer
  remainingLength : Nat
  remainingLengthBuf : Buffer
  deriving DecidableEq, Repr

/-- `sizeof(int)`: the literal `0` of the QoS 0 branch is stored as an `int`. -/
def sizeofInt : Nat := 4

/-- The `switch` of the PUBLISH constructor: what it stores at `packet_id_.data()`. -/
def storePublishPacketId (pb : PacketIdBytes) (packetId : Nat) (pubopts : UInt8) :
    Except Exception Buffer :=
  match (Pub.getQos pubopts).toNat with
  | 0 => do
    throwIf (packetId ≠ 0) malformedPacket
    pure (endianStore sizeofInt 0)
  | 1 | 2 => do
    throwIf (packetId = 0) malformedPacket
    pure (endianStore pb.bytes packetId)
  | _ => .error (.systemError malformedPacket)

/-- The bytes that a packet identifier takes in a PUBLISH with these options. -/
def publishPacketIdSize (pb : PacketIdBytes) (pubopts : UInt8) : Nat :=
  if Pub.getQos pubopts = Qos.atLeastOnce ∨ Pub.getQos pubopts = Qos.exactlyOnce then pb.bytes
  else 0

/-- `basic_publish_packet(packet_id, topic_name, payloads, pubopts)`; the
    constructor without a packet identifier passes 0 for it. -/
def publishPacket (pb : PacketIdBytes) (packetId : Nat) (topicName : Buffer)
    (payloads : List Buffer) (pubopts : UInt8) : Except Exception (PublishPacket pb) := do
  throwIf (0xffff < topicName.length) malformedPacket
  let topicNameLength ← numericCast16 topicName.length
  let remainingLength := 2 + topicName.length + publishPacketIdSize pb pubopts +
    (payloads.map List.length).sum
  throwIf (utf8StringCheck topicName = false) malformedPacket
  let rb ← numericCast32 remainingLength
  let packetIdBuf ← storePublishPacketId pb packetId pubopts
  pure {
    fixedHeader := makeFixedHeader .publish 0b0000 ||| pubopts
    topicName := topicName
    topicNameLengthBuf := endianStore 2 topicNameLength
    packetIdBuf := packetIdBuf
    payloads := payloads
    remainingLength := remainingLength
    remainingLengthBuf := valToVariableBytes rb }

namespace PublishPacket

variable {pb : PacketIdBytes}

def packetId (p : PublishPacket pb) : Nat := endianLoad pb.bytes p.packetIdBuf

def opts (p : PublishPacket pb) : UInt8 := p.fixedHeader

def payload (p : PublishPacket pb) : Buffer := p.payloads.flatten

def size (p : PublishPacket pb) : Nat := 1 + p.remainingLengthBuf.length + p.remainingLength

def numOfConstBufferSequence (p : PublishPacket pb) : Nat :=
  1 + 1 + 2 + (if p.packetId = 0 then 0 else 1) + p.payloads.length

def constBufferSequence (p : PublishPacket pb) : List Buffer :=
  [[p.fixedHeader], p.remainingLengthBuf, p.topicNameLengthBuf, p.topicName] ++
  (if p.packetId ≠ 0 then [p.packetIdBuf.take pb.bytes] else []) ++ p.payloads

/-- `set_dup(true)` -/
def setDup (p : PublishPacket pb) : PublishPacket pb :=
  { p with fixedHeader := Pub.setDup p.fixedHeader }

def decode (pb : PacketIdBytes) : Decoder (PublishPacket pb) := do
  let fixedHeader ← readFixedHeaderWithCheck .publish malformedPacket
  let (remainingLength, remainingLengthBuf) ← readRemainingLength malformedPacket
  checkRemainingLength remainingLength malformedPacket
  let (topicNameLengthBuf, topicName) ← readLengthPrefixed utf8StringCheck malformedPacket
  let packetIdBuf ← readPublishPacketId pb fixedHeader
  let payloads ← readPayloads
  pure {
    fixedHeader, topicName, topicNameLengthBuf, packetIdBuf, payloads, remainingLength,
    remainingLengthBuf }

end PublishPacket

/-! ### PUBACK, PUBREC, PUBREL, PUBCOMP and UNSUBACK -/

/-- `v3_1_1::basic_puback_packet` and the four classes that are written like it. -/
structure AckPacket (pb : PacketIdBytes) where
  all : Buffer
  deriving DecidableEq, Repr

/-- The constructor of each of them, applied to its type and flags. -/
def ackPacket (type : ControlPacketType) (flags : UInt8) (pb : PacketIdBytes) (packetId : Nat) :
    AckPacket pb :=
  ⟨[makeFixedHeader type flags, UInt8.ofNat pb.bytes] ++ endianStore pb.bytes packetId⟩

def pubackPacket := ackPacket .puback 0b0000
def pubrecPacket := ackPacket .pubrec 0b0000
def pubrelPacket := ackPacket .pubrel 0b0010
def pubcompPacket := ackPacket .pubcomp 0b0000
def unsubackPacket := ackPacket .unsuback 0b0000

namespace AckPacket

variable {pb : PacketIdBytes}

def constBufferSequence (p : AckPacket pb) : List Buffer := [p.all]

def size (p : AckPacket pb) : Nat := p.all.length

def numOfConstBufferSequence (_ : AckPacket pb) : Nat := 1

def packetId (p : AckPacket pb) : Nat := endianLoad pb.bytes (p.all.drop 2)

/-- The decoder of each of them, applied to its type. -/
def decode (type : ControlPacketType) (pb : PacketIdBytes) : Decoder (AckPacket pb) := do
  let fixedHeader ← readFixedHeaderWithCheck type malformedPacket
  let remainingLength ← readByte malformedPacket
  failIf (remainingLength.toNat ≠ pb.bytes) malformedPacket
  let buf ← remaining
  failIf (buf.length ≠ pb.bytes) malformedPacket
  pure ⟨[fixedHeader, remainingLength] ++ buf⟩

end AckPacket

/-! ### SUBSCRIBE -/

/-- `v3_1_1::basic_subscribe_packet` -/
structure SubscribePacket (pb : PacketIdBytes) where
  fixedHeader : UInt8
  entries : List TopicSubopts
  topicLengthBufEntries : List Buffer
  packetIdBuf : Buffer
  remainingLength : Nat
  remainingLengthBuf : Buffer
  deriving DecidableEq, Repr

/-- The checks of the options of an entry, which the decoder makes too. -/
def SubscribePacket.optsAccepted (opts : UInt8) : Bool :=
  opts &&& 0b11111100 = 0 ∧ (SubOpts.getQos opts = Qos.atMostOnce ∨
    SubOpts.getQos opts = Qos.atLeastOnce ∨ SubOpts.getQos opts = Qos.exactlyOnce)

/-- `basic_subscribe_packet(packet_id, params)` -/
def subscribePacket (pb : PacketIdBytes) (packetId : Nat) (params : List TopicSubopts) :
    Except Exception (SubscribePacket pb) := do
  checkTopicSizes (params.map TopicSubopts.allTopic)
  throwIf (params = []) protocolError
  forEach (fun e => do
    throwIf (SubscribePacket.optsAccepted e.opts = false) malformedPacket
    throwIf (utf8StringCheck e.allTopic = false) malformedPacket) params
  let remainingLength := pb.bytes + (params.map fun e => 2 + e.allTopic.length + 1).sum
  let rb ← numericCast32 remainingLength
  pure {
    fixedHeader := makeFixedHeader .subscribe 0b0010
    entries := params
    topicLengthBufEntries := topicLengthBufs (params.map TopicSubopts.allTopic)
    packetIdBuf := endianStore pb.bytes packetId
    remainingLength := remainingLength
    remainingLengthBuf := valToVariableBytes rb }

namespace SubscribePacket

variable {pb : PacketIdBytes}

def packetId (p : SubscribePacket pb) : Nat := endianLoad pb.bytes p.packetIdBuf

def size (p : SubscribePacket pb) : Nat := 1 + p.remainingLengthBuf.length + p.remainingLength

def numOfConstBufferSequence (p : SubscribePacket pb) : Nat := 1 + 1 + 1 + p.entries.length * 3

def constBufferSequence (p : SubscribePacket pb) : List Buffer :=
  [[p.fixedHeader], p.remainingLengthBuf, p.packetIdBuf] ++
  (p.topicLengthBufEntries.zip p.entries).flatMap fun (lengthBuf, e) =>
    [lengthBuf, e.allTopic, [e.opts]]

/-- The body of the entry loop of the decoder. -/
def readEntry : Decoder (Buffer × TopicSubopts) := do
  let (topicLengthBuf, topic) ← readLengthPrefixed utf8StringCheck malformedPacket
  let buf ← remaining
  failIf (buf = []) malformedPacket
  let opts ← front
  failIf (optsAccepted opts = false) malformedPacket
  removePrefix 1
  pure (topicLengthBuf, ⟨⟨topic⟩, opts⟩)

def decode (pb : PacketIdBytes) : Decoder (SubscribePacket pb) := do
  let fixedHeader ← readFixedHeaderWithCheck .subscribe malformedPacket
  let (remainingLength, remainingLengthBuf) ← readRemainingLength malformedPacket
  checkRemainingLength remainingLength malformedPacket
  let packetIdBuf ← readBytes pb.bytes malformedPacket
  checkEntries
  let entries ← many readEntry
  pure {
    fixedHeader, entries := entries.map Prod.snd, topicLengthBufEntries := entries.map Prod.fst,
    packetIdBuf, remainingLength, remainingLengthBuf }

end SubscribePacket

/-! ### SUBACK -/

/-- `v3_1_1::basic_suback_packet` -/
structure SubackPacket (pb : PacketIdBytes) where
  fixedHeader : UInt8
  entries : List UInt8
  packetIdBuf : Buffer
  remainingLength : Nat
  remainingLengthBuf : Buffer
  deriving DecidableEq, Repr

/-- `basic_suback_packet(packet_id, params)` -/
def subackPacket (pb : PacketIdBytes) (packetId : Nat) (params : List UInt8) :
    Except Exception (SubackPacket pb) := do
  let remainingLength := pb.bytes + params.length
  let rb ← numericCast32 remainingLength
  pure {
    fixedHeader := makeFixedHeader .suback 0b0000
    entries := params
    packetIdBuf := endianStore pb.bytes packetId
    remainingLength := remainingLength
    remainingLengthBuf := valToVariableBytes rb }

namespace SubackPacket

variable {pb : PacketIdBytes}

/-- The enumerators of `suback_return_code`. -/
def returnCodes : List UInt8 := [0x00, 0x01, 0x02, 0x80]

def packetId (p : SubackPacket pb) : Nat := endianLoad pb.bytes p.packetIdBuf

def size (p : SubackPacket pb) : Nat := 1 + p.remainingLengthBuf.length + p.remainingLength

def numOfConstBufferSequence (_ : SubackPacket pb) : Nat := 1 + 1 + 1 + 1

def constBufferSequence (p : SubackPacket pb) : List Buffer :=
  [[p.fixedHeader], p.remainingLengthBuf, p.packetIdBuf, p.entries]

def decode (pb : PacketIdBytes) : Decoder (SubackPacket pb) := do
  let fixedHeader ← readFixedHeaderWithCheck .suback malformedPacket
  let (remainingLength, remainingLengthBuf) ← readRemainingLength malformedPacket
  checkRemainingLength remainingLength malformedPacket
  let packetIdBuf ← readBytes pb.bytes malformedPacket
  checkEntries
  let entries ← many (readCode returnCodes)
  pure { fixedHeader, entries, packetIdBuf, remainingLength, remainingLengthBuf }

end SubackPacket

/-! ### UNSUBSCRIBE -/

/-- `v3_1_1::basic_unsubscribe_packet` -/
structure UnsubscribePacket (pb : PacketIdBytes) where
  fixedHeader : UInt8
  entries : List TopicSharename
  topicLengthBufEntries : List Buffer
  packetIdBuf : Buffer
  remainingLength : Nat
  remainingLengthBuf : Buffer
  deriving DecidableEq, Repr

/-- `basic_unsubscribe_packet(packet_id, params)` -/
def unsubscribePacket (pb : PacketIdBytes) (packetId : Nat) (params : List TopicSharename) :
    Except Exception (UnsubscribePacket pb) := do
  checkTopicSizes (params.map TopicSharename.allTopic)
  forEach (fun e => throwIf (utf8StringCheck e.allTopic = false) malformedPacket) params
  let remainingLength := pb.bytes + (params.map fun e => 2 + e.allTopic.length).sum
  let rb ← numericCast32 remainingLength
  pure {
    fixedHeader := makeFixedHeader .unsubscribe 0b0010
    entries := params
    topicLengthBufEntries := topicLengthBufs (params.map TopicSharename.allTopic)
    packetIdBuf := endianStore pb.bytes packetId
    remainingLength := remainingLength
    remainingLengthBuf := valToVariableBytes rb }

namespace UnsubscribePacket

variable {pb : PacketIdBytes}

def packetId (p : UnsubscribePacket pb) : Nat := endianLoad pb.bytes p.packetIdBuf

def size (p : UnsubscribePacket pb) : Nat := 1 + p.remainingLengthBuf.length + p.remainingLength

def numOfConstBufferSequence (p : UnsubscribePacket pb) : Nat := 1 + 1 + 1 + p.entries.length * 2

def constBufferSequence (p : UnsubscribePacket pb) : List Buffer :=
  [[p.fixedHeader], p.remainingLengthBuf, p.packetIdBuf] ++
  (p.topicLengthBufEntries.zip p.entries).flatMap fun (lengthBuf, e) => [lengthBuf, e.allTopic]

/-- The body of the entry loop of the decoder. -/
def readEntry : Decoder (Buffer × TopicSharename) := do
  let (topicLengthBuf, topic) ← readLengthPrefixed utf8StringCheck malformedPacket
  pure (topicLengthBuf, ⟨topic⟩)

def decode (pb : PacketIdBytes) : Decoder (UnsubscribePacket pb) := do
  let fixedHeader ← readFixedHeaderWithCheck .unsubscribe malformedPacket
  let (remainingLength, remainingLengthBuf) ← readRemainingLength malformedPacket
  checkRemainingLength remainingLength malformedPacket
  let packetIdBuf ← readBytes pb.bytes malformedPacket
  checkEntries
  let entries ← many readEntry
  pure {
    fixedHeader, entries := entries.map Prod.snd, topicLengthBufEntries := entries.map Prod.fst,
    packetIdBuf, remainingLength, remainingLengthBuf }

end UnsubscribePacket

end V311

end AsyncMqtt
