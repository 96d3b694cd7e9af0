import AsyncMqtt.Native.PacketV311

/-!
# MQTT v5.0 packets

The packet classes of `v5_*.ipp`: their members, public constructors,
`const_buffer_sequence` and decoders, and the members of PUBLISH that the
connection uses to change a topic alias in place.

As for v3.1.1, classes that are written alike share one definition.
-/

namespace AsyncMqtt

namespace V5

open ByteReader

/-- `if (!buf.empty()) { ec = malformed_packet; return; }` -/
def checkEnd : Decoder Unit := do
  let buf ← remaining
  failIf (buf ≠ []) malformedPacket

/-! ### CONNECT -/

/-- `v5::connect_packet` -/
structure ConnectPacket where
  fixedHeader : UInt8
  connectFlags : UInt8
  remainingLength : Nat
  remainingLengthBuf : Buffer
  protocolNameAndLevel : Buffer
  clientId : Buffer
  clientIdLengthBuf : Buffer
  willTopic : Buffer
  willTopicLengthBuf : Buffer
  willMessage : Buffer
  willMessageLengthBuf : Buffer
  willPropertyLength : Nat
  willPropertyLengthBuf : Buffer
  willProps : Properties
  userName : Buffer
  userNameLengthBuf : Buffer
  password : Buffer
  passwordLengthBuf : Buffer
  keepAliveBuf : Buffer
  propertyLength : Nat
  propertyLengthBuf : Buffer
  props : Properties
  deriving DecidableEq, Repr

/-- `{0x00, 0x04, 'M', 'Q', 'T', 'T', 0x05}` -/
def protocolNameAndLevel : Buffer := [0x00, 0x04, 0x4d, 0x51, 0x54, 0x54, 0x05]

/-- The will properties of CONNECT: their length, its bytes and the list. -/
def encodeWillProps : Option Will → Except Exception (Nat × Buffer × Properties)
  | none => .ok (0, [], [])
  | some w => do
    let willPropertyLength ← numericCast32 w.props.size
    validateProperties .will w.props connectMalformedPacket
    pure (willPropertyLength, valToVariableBytes willPropertyLength, w.props)

/-- The part of the remaining length that a will takes. -/
def willSize : Option Will → Nat
  | none => 0
  | some w => (valToVariableBytes w.props.size).length + w.props.size +
      2 + w.topic.length + 2 + w.message.length

/-- `connect_packet(clean_start, keep_alive_sec, client_id, w, user_name, password, props)`;
    the constructor without a will passes `std::nullopt` for it. -/
def connectPacket (cleanStart : Bool) (keepAliveSec : UInt16) (clientId : Buffer)
    (w : Option Will) (userName password : Option Buffer) (props : Properties) :
    Except Exception ConnectPacket := do
  let fixedLength ← numericCast32 (2 + 4 + 1 + 1 + 2 + 2 + clientId.length)
  let propertyLength ← numericCast32 props.size
  let clientIdLength ← numericCast16 clientId.length
  throwIf (utf8StringCheck clientId = false) connectMalformedPacket
  let (userNameLengthBuf, userNameBuf) ← encodeOptional utf8StringCheck userName
  let (passwordLengthBuf, passwordBuf) ← encodeOptional (fun _ => true) password
  validateProperties .connect props connectMalformedPacket
  let ((willTopicLengthBuf, willTopic), (willMessageLengthBuf, willMessage)) ← encodeWill w
  let (willPropertyLength, willPropertyLengthBuf, willProps) ← encodeWillProps w
  let remainingLength := fixedLength + optionalSize userName + optionalSize password +
    ((valToVariableBytes propertyLength).length + propertyLength) + willSize w
  let rb ← numericCast32 remainingLength
  pure {
    fixedHeader := makeFixedHeader .connect 0b0000
    connectFlags := ConnectFlags.make cleanStart w userName password
    remainingLength := remainingLength
    remainingLengthBuf := valToVariableBytes rb
    protocolNameAndLevel := protocolNameAndLevel
    clientId := clientId
    clientIdLengthBuf := endianStore 2 clientIdLength
    willTopic := willTopic
    willTopicLengthBuf := willTopicLengthBuf
    willMessage := willMessage
    willMessageLengthBuf := willMessageLengthBuf
    willPropertyLength := willPropertyLength
    willPropertyLengthBuf := willPropertyLengthBuf
    willProps := willProps
    userName := userNameBuf
    userNameLengthBuf := userNameLengthBuf
    password := passwordBuf
    passwordLengthBuf := passwordLengthBuf
    keepAliveBuf := endianStore 2 keepAliveSec.toNat
    propertyLength := propertyLength
    propertyLengthBuf := valToVariableBytes propertyLength
    props := props }

namespace ConnectPacket

def constBufferSequence (p : ConnectPacket) : List Buffer :=
  [[p.fixedHeader], p.remainingLengthBuf, p.protocolNameAndLevel, [p.connectFlags],
    p.keepAliveBuf, p.propertyLengthBuf] ++ p.props.constBufferSequence ++
  [p.clientIdLengthBuf, p.clientId] ++
  (if ConnectFlags.hasWillFlag p.connectFlags then
    [p.willPropertyLengthBuf] ++ p.willProps.constBufferSequence ++
    [p.willTopicLengthBuf, p.willTopic, p.willMessageLengthBuf, p.willMessage] else []) ++
  (if ConnectFlags.hasUserNameFlag p.connectFlags then
    [p.userNameLengthBuf, p.userName] else []) ++
  (if ConnectFlags.hasPasswordFlag p.connectFlags then
    [p.passwordLengthBuf, p.password] else [])

def size (p : ConnectPacket) : Nat := 1 + p.remainingLengthBuf.length + p.remainingLength

def numOfConstBufferSequence (p : ConnectPacket) : Nat :=
  1 + 1 + 1 + 1 + 1 + 1 + p.props.numOfConstBufferSequence + 2 +
  (if ConnectFlags.hasWillFlag p.connectFlags then
    1 + p.willProps.numOfConstBufferSequence + 2 + 2 else 0) +
  (if ConnectFlags.hasUserNameFlag p.connectFlags then 2 else 0) +
  (if ConnectFlags.hasPasswordFlag p.connectFlags then 2 else 0)

def cleanStart (p : ConnectPacket) : Bool := ConnectFlags.hasCleanStart p.connectFlags

def keepAlive (p : ConnectPacket) : Nat := endianLoad 2 p.keepAliveBuf

/-- `user_name()` -/
def getUserName (p : ConnectPacket) : Option Buffer :=
  if ConnectFlags.hasUserNameFlag p.connectFlags then some p.userName else none

/-- `password()` -/
def getPassword (p : ConnectPacket) : Option Buffer :=
  if ConnectFlags.hasPasswordFlag p.connectFlags then some p.password else none

def getWill (p : ConnectPacket) : Option Will :=
  if ConnectFlags.hasWillFlag p.connectFlags then
    some ⟨p.willTopic, p.willMessage, ConnectFlags.willOpts p.connectFlags, p.willProps⟩
  else none

/-- `// will` of the decoder -/
def readWill (flags : UInt8) :
    Decoder ((Nat × Buffer × Properties) × (Buffer × Buffer) × (Buffer × Buffer)) :=
  if ConnectFlags.hasWillFlag flags then do
    checkWillQos flags
    let willProperty ← readProperties .will connectMalformedPacket
    let willTopic ← readLengthPrefixed utf8StringCheck connectMalformedPacket
    let willMessage ← readLengthPrefixed (fun _ => true) connectMalformedPacket
    pure (willProperty, willTopic, willMessage)
  else do
    checkNoWill flags
    pure ((0, [], []), ([], []), ([], []))

def decode : Decoder ConnectPacket := do
  let fixedHeader ← readFixedHeaderWithCheck .connect connectMalformedPacket
  let (remainingLength, remainingLengthBuf) ← readRemainingLength connectMalformedPacket
  checkRemainingLength remainingLength connectMalformedPacket
  let protocolNameAndLevel ← readBytes 7 connectMalformedPacket
  failIf (protocolNameAndLevel ≠ V5.protocolNameAndLevel)
    (.connect ConnectReasonCode.unsupportedProtocolVersion)
  let connectFlags ← readConnectFlags
  let keepAliveBuf ← readBytes 2 connectMalformedPacket
  let (propertyLength, propertyLengthBuf, props) ←
    readProperties .connect connectMalformedPacket
  let (clientIdLengthBuf, clientId) ← readLengthPrefixed utf8StringCheck connectMalformedPacket
  let ((willPropertyLength, willPropertyLengthBuf, willProps), (willTopicLengthBuf, willTopic),
    (willMessageLengthBuf, willMessage)) ← readWill connectFlags
  let (userNameLengthBuf, userName) ← readUserName connectFlags
  let (passwordLengthBuf, password) ← readPassword connectFlags
  pure {
    fixedHeader, connectFlags, remainingLength, remainingLengthBuf, protocolNameAndLevel,
    clientId, clientIdLengthBuf, willTopic, willTopicLengthBuf, willMessage,
    willMessageLengthBuf, willPropertyLength, willPropertyLengthBuf, willProps, userName,
    userNameLengthBuf, password, passwordLengthBuf, keepAliveBuf, propertyLength,
    propertyLengthBuf, props }

end ConnectPacket

/-! ### CONNACK -/

/-- `v5::connack_packet` -/
structure ConnackPacket where
  fixedHeader : UInt8
  remainingLength : Nat
  remainingLengthBuf : Buffer
  connectAcknowledgeFlags : UInt8
  reasonCode : UInt8
  propertyLength : Nat
  propertyLengthBuf : Buffer
  props : Properties
  deriving DecidableEq, Repr

/-- `connack_packet(session_present, reason_code, props)` -/
def connackPacket (sessionPresent : Bool) (reasonCode : UInt8) (props : Properties) :
    Except Exception ConnackPacket := do
  let propertyLength ← numericCast32 props.size
  validateProperties .connack props malformedPacket
  let remainingLength := 1 + 1 + ((valToVariableBytes propertyLength).length + propertyLength)
  let rb ← numericCast32 remainingLength
  pure {
    fixedHeader := makeFixedHeader .connack 0b0000
    remainingLength := remainingLength
    remainingLengthBuf := valToVariableBytes rb
    connectAcknowledgeFlags := if sessionPresent then 1 else 0
    reasonCode := reasonCode
    propertyLength := propertyLength
    propertyLengthBuf := valToVariableBytes propertyLength
    props := props }

namespace ConnackPacket

/-- The enumerators of `connect_reason_code`. -/
def reasonCodes : List UInt8 :=
  [0x00, 0x80, 0x81, 0x82, 0x83, 0x84, 0x85, 0x86, 0x87, 0x88, 0x89, 0x8a, 0x8c, 0x90, 0x95,
    0x97, 0x99, 0x9a, 0x9b, 0x9c, 0x9d, 0x9f]

def constBufferSequence (p : ConnackPacket) : List Buffer :=
  [[p.fixedHeader], p.remainingLengthBuf, [p.connectAcknowledgeFlags], [p.reasonCode],
    p.propertyLengthBuf] ++ p.props.constBufferSequence

def size (p : ConnackPacket) : Nat := 1 + p.remainingLengthBuf.length + p.remainingLength

def numOfConstBufferSequence (p : ConnackPacket) : Nat :=
  1 + 1 + 1 + 1 + 1 + p.props.numOfConstBufferSequence

def sessionPresent (p : ConnackPacket) : Bool := isSessionPresent p.connectAcknowledgeFlags

def code (p : ConnackPacket) : UInt8 := p.reasonCode

def decode : Decoder ConnackPacket := do
  let fixedHeader ← readFixedHeaderWithCheck .connack malformedPacket
  let (remainingLength, remainingLengthBuf) ← readRemainingLength malformedPacket
  checkRemainingLength remainingLength malformedPacket
  let connectAcknowledgeFlags ← readByte malformedPacket
  failIf (connectAcknowledgeFlags &&& 0b11111110 ≠ 0) malformedPacket
  -- the source does not check that there is a byte left for the reason code
  let reasonCode ← front
  removePrefix 1
  failIf (reasonCode ∉ reasonCodes) malformedPacket
  let (propertyLength, propertyLengthBuf, props) ← readProperties .connack malformedPacket
  checkEnd
  pure {
    fixedHeader, remainingLength, remainingLengthBuf, connectAcknowledgeFlags, reasonCode,
    propertyLength, propertyLengthBuf, props }

end ConnackPacket

/-! ### PUBLISH -/

/-- `v5::basic_publish_packet` -/
structure PublishPacket (pb : PacketIdBytes) where
  fixedHeader : UInt8
  topicName : Buffer
  topicNameLengthBuf : Buffer
  packetIdBuf : Buffer
  propertyLength : Nat
  propertyLengthBuf : Buffer
  props : Properties
  payloads : List Buffer
  remainingLength : Nat
  remainingLengthBuf : Buffer
  deriving DecidableEq, Repr

/-- The end of the PUBLISH constructor: what it stores at `packet_id_.data()`.
    Unlike v3.1.1, QoS 3 is treated as QoS 0. -/
def storePublishPacketId (pb : PacketIdBytes) (packetId : Nat) (pubopts : UInt8) :
    Except Exception Buffer :=
  if Pub.getQos pubopts = Qos.atLeastOnce ∨ Pub.getQos pubopts = Qos.exactlyOnce then do
    throwIf (packetId = 0) protocolError
    pure (endianStore pb.bytes packetId)
  else do
    throwIf (packetId ≠ 0) protocolError
    pure (endianStore pb.bytes 0)

/-- `basic_publish_packet(packet_id, topic_name, payloads, pubopts, props)`; the
    constructor without a packet identifier passes 0 for it. -/
def publishPacket (pb : PacketIdBytes) (packetId : Nat) (topicName : Buffer)
    (payloads : List Buffer) (pubopts : UInt8) (props : Properties) :
    Except Exception (PublishPacket pb) := do
  throwIf (0xffff < topicName.length) malformedPacket
  let topicNameLength ← numericCast16 topicName.length
  throwIf (utf8StringCheck topicName = false) malformedPacket
  let propertyLength ← numericCast32 props.size
  validateProperties .publish props malformedPacket
  let remainingLength := 2 + topicName.length + V311.publishPacketIdSize pb pubopts +
    (payloads.map List.length).sum +
    ((valToVariableBytes propertyLength).length + propertyLength)
  let rb ← numericCast32 remainingLength
  let packetIdBuf ← storePublishPacketId pb packetId pubopts
  pure {
    fixedHeader := makeFixedHeader .publish 0b0000 ||| pubopts
    topicName := topicName
    topicNameLengthBuf := endianStore 2 topicNameLength
    packetIdBuf := packetIdBuf
    propertyLength := propertyLength
    propertyLengthBuf := valToVariableBytes propertyLength
    props := props
    payloads := payloads
    remainingLength := remainingLength
    remainingLengthBuf := valToVariableBytes rb }

namespace PublishPacket

variable {pb : PacketIdBytes}

def packetId (p : PublishPacket pb) : Nat := endianLoad pb.bytes p.packetIdBuf

def opts (p : PublishPacket pb) : UInt8 := p.fixedHeader

/-- `topic()` -/
def topic (p : PublishPacket pb) : Buffer := p.topicName

def payload (p : PublishPacket pb) : Buffer := p.payloads.flatten

def size (p : PublishPacket pb) : Nat := 1 + p.remainingLengthBuf.length + p.remainingLength

def numOfConstBufferSequence (p : PublishPacket pb) : Nat :=
  1 + 1 + 2 + (if p.packetId = 0 then 0 else 1) + 1 + p.props.numOfConstBufferSequence +
  p.payloads.length

def constBufferSequence (p : PublishPacket pb) : List Buffer :=
  [[p.fixedHeader], p.remainingLengthBuf, p.topicNameLengthBuf, p.topicName] ++
  (if p.packetId ≠ 0 then [p.packetIdBuf.take pb.bytes] else []) ++
  [p.propertyLengthBuf] ++ p.props.constBufferSequence ++ p.payloads

/-- `set_dup(true)` -/
def setDup (p : PublishPacket pb) : PublishPacket pb :=
  { p with fixedHeader := Pub.setDup p.fixedHeader }

/-- The lengths and their bytes after the properties and the topic were replaced,
    as every member that changes the properties in place leaves them. -/
def update (p : PublishPacket pb) (topicName : Buffer) (props : Properties) : PublishPacket pb :=
  let propertyLength := p.propertyLength + props.size - p.props.size
  let propertyLengthBuf := valToVariableBytes propertyLength
  let remainingLength := p.remainingLength + props.size + propertyLengthBuf.length +
    topicName.length - (p.props.size + p.propertyLengthBuf.length + p.topicName.length)
  { p with
    topicName := topicName
    topicNameLengthBuf := endianStore 2 topicName.length
    propertyLength := propertyLength
    propertyLengthBuf := propertyLengthBuf
    props := props
    remainingLength := remainingLength
    remainingLengthBuf := valToVariableBytes remainingLength }

/-- `remove_topic_add_topic_alias` -/
def removeTopicAddTopicAlias (val : Nat) (p : PublishPacket pb) : PublishPacket pb :=
  p.update [] (p.props ++ [.topicAlias val])

/-- `add_topic_alias` -/
def addTopicAlias (val : Nat) (p : PublishPacket pb) : PublishPacket pb :=
  p.update p.topicName (p.props ++ [.topicAlias val])

/-- `add_topic`, for a packet without a topic; the property length is left as it is. -/
def addTopic (topic : Buffer) (p : PublishPacket pb) : PublishPacket pb :=
  let remainingLength := p.remainingLength + topic.length
  { p with
    topicName := topic
    topicNameLengthBuf := endianStore 2 topic.length
    remainingLength := remainingLength
    remainingLengthBuf := valToVariableBytes remainingLength }

/-- `remove_topic_alias_impl` -/
def propsWithoutTopicAlias (p : PublishPacket pb) : Properties :=
  p.props.filter (·.id ≠ .topicAlias)

/-- `remove_topic_alias` -/
def removeTopicAlias (p : PublishPacket pb) : PublishPacket pb :=
  p.update p.topicName p.propsWithoutTopicAlias

/-- `remove_topic_alias_add_topic` -/
def removeTopicAliasAddTopic (topic : Buffer) (p : PublishPacket pb) : PublishPacket pb :=
  p.update topic p.propsWithoutTopicAlias

def decode (pb : PacketIdBytes) : Decoder (PublishPacket pb) := do
  let fixedHeader ← readByte malformedPacket
  let (remainingLength, remainingLengthBuf) ← readRemainingLength malformedPacket
  let (topicNameLengthBuf, topicName) ← readLengthPrefixed utf8StringCheck malformedPacket
  let packetIdBuf ← readPublishPacketId pb fixedHeader
  let (propertyLength, propertyLengthBuf, props) ← readProperties .publish malformedPacket
  let payloads ← readPayloads
  pure {
    fixedHeader, topicName, topicNameLengthBuf, packetIdBuf, propertyLength, propertyLengthBuf,
    props, payloads, remainingLength, remainingLengthBuf }

end PublishPacket

/-! ### PUBACK, PUBREC, PUBREL and PUBCOMP; DISCONNECT and AUTH

These six have an optional reason code and, after it, optional properties. The
first four also carry a packet identifier. -/

/-- The reason code and the properties of such a packet. -/
structure ReasonTail where
  reasonCode : Option UInt8
  propertyLength : Nat
  propertyLengthBuf : Buffer
  props : Properties
  deriving DecidableEq, Repr

namespace ReasonTail

/-- The body of the constructors: the tail and its size. -/
def make (loc : PropertyLocation) (reasonCode : Option UInt8) (props : Properties) :
    Except Exception (ReasonTail × Nat) :=
  match reasonCode with
  | none => .ok (⟨none, props.size, [], props⟩, 0)
  | some code =>
    if props.size = 0 then .ok (⟨some code, props.size, [], props⟩, 1)
    else do
      let propertyLength ← numericCast32 props.size
      validateProperties loc props malformedPacket
      let propertyLengthBuf := valToVariableBytes propertyLength
      pure (⟨some code, props.size, propertyLengthBuf, props⟩,
        1 + (propertyLengthBuf.length + props.size))

/-- The end of `const_buffer_sequence`. -/
def constBufferSequence (t : ReasonTail) : List Buffer :=
  match t.reasonCode with
  | none => []
  | some code =>
    [code] :: if t.propertyLengthBuf.length ≠ 0 then
      t.propertyLengthBuf :: t.props.constBufferSequence else []

/-- The end of `num_of_const_buffer_sequence`. -/
def numOfConstBufferSequence (t : ReasonTail) : Nat :=
  match t.reasonCode with
  | none => 0
  | some _ =>
    1 + if t.propertyLengthBuf.length = 0 then 0 else 1 + t.props.numOfConstBufferSequence

/-- `code()`, where the enumerator 0 stands for an absent reason code -/
def code (t : ReasonTail) : UInt8 := t.reasonCode.getD 0

/-- The end of the decoders. A remaining length of `noCode` means that there is no
    reason code, one of `noProps` that there are no properties. -/
def decode (loc : PropertyLocation) (reasonCodes : List UInt8)
    (remainingLength noCode noProps : Nat) : Decoder ReasonTail :=
  if remainingLength = noCode then do
    checkEnd
    pure ⟨none, 0, [], []⟩
  else do
    let reasonCode ← front
    removePrefix 1
    failIf (reasonCode ∉ reasonCodes) malformedPacket
    if remainingLength = noProps then do
      checkEnd
      pure ⟨some reasonCode, 0, [], []⟩
    else do
      let (propertyLength, propertyLengthBuf, props) ← readProperties loc malformedPacket
      checkEnd
      pure ⟨some reasonCode, propertyLength, propertyLengthBuf, props⟩

end ReasonTail

/-- `v5::basic_puback_packet` and the three classes that are written like it. -/
structure PubResponsePacket (pb : PacketIdBytes) where
  fixedHeader : UInt8
  remainingLength : Nat
  remainingLengthBuf : Buffer
  packetIdBuf : Buffer
  tail : ReasonTail
  deriving DecidableEq, Repr

/-- `basic_puback_packet(packet_id, reason_code, props)` and its like. The public
    constructors pass a reason code and properties, a reason code, or neither. -/
def pubResponsePacket (type : ControlPacketType) (flags : UInt8) (loc : PropertyLocation)
    (pb : PacketIdBytes) (packetId : Nat) (reasonCode : Option UInt8) (props : Properties) :
    Except Exception (PubResponsePacket pb) := do
  let (tail, tailSize) ← ReasonTail.make loc reasonCode props
  let rb ← numericCast32 (pb.bytes + tailSize)
  pure {
    fixedHeader := makeFixedHeader type flags
    remainingLength := pb.bytes + tailSize
    remainingLengthBuf := valToVariableBytes rb
    packetIdBuf := endianStore pb.bytes packetId
    tail := tail }

def pubackPacket := pubResponsePacket .puback 0b0000 .puback
def pubrecPacket := pubResponsePacket .pubrec 0b0000 .pubrec
def pubrelPacket := pubResponsePacket .pubrel 0b0010 .pubrel
def pubcompPacket := pubResponsePacket .pubcomp 0b0000 .pubcomp

/-- The enumerators of `puback_reason_code` and of `pubrec_reason_code`. -/
def pubackReasonCodes : List UInt8 := [0x00, 0x10, 0x80, 0x83, 0x87, 0x90, 0x91, 0x97, 0x99]

/-- The enumerators of `pubrel_reason_code` and of `pubcomp_reason_code`. -/
def pubrelReasonCodes : List UInt8 := [0x00, 0x92]

namespace PubResponsePacket

variable {pb : PacketIdBytes}

def packetId (p : PubResponsePacket pb) : Nat := endianLoad pb.bytes p.packetIdBuf

def code (p : PubResponsePacket pb) : UInt8 := p.tail.code

def props (p : PubResponsePacket pb) : Properties := p.tail.props

def size (p : PubResponsePacket pb) : Nat := 1 + p.remainingLengthBuf.length + p.remainingLength

def numOfConstBufferSequence (p : PubResponsePacket pb) : Nat :=
  1 + 1 + 1 + p.tail.numOfConstBufferSequence

def constBufferSequence (p : PubResponsePacket pb) : List Buffer :=
  [[p.fixedHeader], p.remainingLengthBuf, p.packetIdBuf] ++ p.tail.constBufferSequence

/-- The decoder of each of them. The remaining length of a packet without
    properties is the literal 3 in the source, whatever `PacketIdBytes` is. -/
def decode (loc : PropertyLocation) (reasonCodes : List UInt8) (pb : PacketIdBytes) :
    Decoder (PubResponsePacket pb) := do
  let fixedHeader ← readByte malformedPacket
  let (remainingLength, remainingLengthBuf) ← readRemainingLength malformedPacket
  let packetIdBuf ← readBytes pb.bytes malformedPacket
  let tail ← ReasonTail.decode loc reasonCodes remainingLength pb.bytes 3
  pure { fixedHeader, remainingLength, remainingLengthBuf, packetIdBuf, tail }

end PubResponsePacket

/-- `v5::disconnect_packet` and `v5::auth_packet` -/
structure ReasonPacket where
  fixedHeader : UInt8
  remainingLength : Nat
  remainingLengthBuf : Buffer
  tail : ReasonTail
  deriving DecidableEq, Repr

/-- `disconnect_packet(reason_code, props)` and its like. -/
def reasonPacket (type : ControlPacketType) (loc : PropertyLocation) (reasonCode : Option UInt8)
    (props : Properties) : Except Exception ReasonPacket := do
  let (tail, tailSize) ← ReasonTail.make loc reasonCode props
  let rb ← numericCast32 tailSize
  pure {
    fixedHeader := makeFixedHeader type 0b0000
    remainingLength := tailSize
    remainingLengthBuf := valToVariableBytes rb
    tail := tail }

def disconnectPacket := reasonPacket .disconnect .disconnect
def authPacket := reasonPacket .auth .auth

/-- The enumerators of `disconnect_reason_code`. -/
def disconnectReasonCodes : List UInt8 :=
  [0x00, 0x04, 0x80, 0x81, 0x82, 0x83, 0x87, 0x89, 0x8b, 0x8d, 0x8e, 0x8f, 0x90, 0x93, 0x94,
    0x95, 0x96, 0x97, 0x98, 0x99, 0x9a, 0x9b, 0x9c, 0x9d, 0x9e, 0x9f, 0xa0, 0xa1, 0xa2]

/-- The enumerators of `auth_reason_code`. -/
def authReasonCodes : List UInt8 := [0x00, 0x18, 0x19]

namespace ReasonPacket

def code (p : ReasonPacket) : UInt8 := p.tail.code

def props (p : ReasonPacket) : Properties := p.tail.props

def size (p : ReasonPacket) : Nat := 1 + p.remainingLengthBuf.length + p.remainingLength

def numOfConstBufferSequence (p : ReasonPacket) : Nat :=
  1 + 1 + p.tail.numOfConstBufferSequence

def constBufferSequence (p : ReasonPacket) : List Buffer :=
  [[p.fixedHeader], p.remainingLengthBuf] ++ p.tail.constBufferSequence

/-- The decoder of both. -/
def decode (loc : PropertyLocation) (reasonCodes : List UInt8) : Decoder ReasonPacket := do
  let fixedHeader ← readByte malformedPacket
  let (remainingLength, remainingLengthBuf) ← readRemainingLength malformedPacket
  let tail ← ReasonTail.decode loc reasonCodes remainingLength 0 1
  pure { fixedHeader, remainingLength, remainingLengthBuf, tail }

end ReasonPacket

/-! ### SUBSCRIBE -/

/-- `v5::basic_subscribe_packet` -/
structure SubscribePacket (pb : PacketIdBytes) where
  fixedHeader : UInt8
  entries : List TopicSubopts
  topicLengthBufEntries : List Buffer
  packetIdBuf : Buffer
  remainingLength : Nat
  remainingLengthBuf : Buffer
  propertyLength : Nat
  propertyLengthBuf : Buffer
  props : Properties
  deriving DecidableEq, Repr

/-- The checks of the options of an entry that report `malformed_packet`. -/
def SubscribePacket.optsAccepted (opts : UInt8) : Bool :=
  opts &&& 0b11000000 = 0 ∧ (SubOpts.getQos opts = Qos.atMostOnce ∨
    SubOpts.getQos opts = Qos.atLeastOnce ∨ SubOpts.getQos opts = Qos.exactlyOnce) ∧
  (SubOpts.getRetainHandling opts = 0b00000000 ∨ SubOpts.getRetainHandling opts = 0b00010000 ∨
    SubOpts.getRetainHandling opts = 0b00100000)

/-- No Local on a shared subscription, which is a `protocol_error`. -/
def SubscribePacket.nlOnShared (e : TopicSubopts) : Bool :=
  SubOpts.getNl e.opts = 0b00000100 ∧ e.sharename ≠ []

/-- `basic_subscribe_packet(packet_id, params, props)` -/
def subscribePacket (pb : PacketIdBytes) (packetId : Nat) (params : List TopicSubopts)
    (props : Properties) : Except Exception (SubscribePacket pb) := do
  checkTopicSizes (params.map TopicSubopts.allTopic)
  let propertyLength ← numericCast32 props.size
  validateProperties .subscribe props malformedPacket
  forEach (fun e => do
    throwIf (SubscribePacket.optsAccepted e.opts = false) malformedPacket
    throwIf (SubscribePacket.nlOnShared e = true) protocolError
    throwIf (utf8StringCheck e.allTopic = false) malformedPacket) params
  let remainingLength := pb.bytes + ((valToVariableBytes propertyLength).length +
    propertyLength) + (params.map fun e => 2 + e.allTopic.length + 1).sum
  let rb ← numericCast32 remainingLength
  pure {
    fixedHeader := makeFixedHeader .subscribe 0b0010
    entries := params
    topicLengthBufEntries := topicLengthBufs (params.map TopicSubopts.allTopic)
    packetIdBuf := endianStore pb.bytes packetId
    remainingLength := remainingLength
    remainingLengthBuf := valToVariableBytes rb
    propertyLength := propertyLength
    propertyLengthBuf := valToVariableBytes propertyLength
    props := props }

namespace SubscribePacket

variable {pb : PacketIdBytes}

def packetId (p : SubscribePacket pb) : Nat := endianLoad pb.bytes p.packetIdBuf

def size (p : SubscribePacket pb) : Nat := 1 + p.remainingLengthBuf.length + p.remainingLength

def numOfConstBufferSequence (p : SubscribePacket pb) : Nat :=
  1 + 1 + 1 + (if p.propertyLengthBuf.length = 0 then 0
    else 1 + p.props.numOfConstBufferSequence) + p.entries.length * 3

def constBufferSequence (p : SubscribePacket pb) : List Buffer :=
  [[p.fixedHeader], p.remainingLengthBuf, p.packetIdBuf, p.propertyLengthBuf] ++
  p.props.constBufferSequence ++
  (p.topicLengthBufEntries.zip p.entries).flatMap fun (lengthBuf, e) =>
    [lengthBuf, e.allTopic, [e.opts]]

/-- The body of the entry loop of the decoder. -/
def readEntry : Decoder (Buffer × TopicSubopts) := do
  let (topicLengthBuf, topic) ← readLengthPrefixed utf8StringCheck malformedPacket
  let buf ← remaining
  failIf (buf = []) malformedPacket
  let opts ← front
  failIf (optsAccepted opts = false) malformedPacket
  failIf (nlOnShared ⟨⟨topic⟩, opts⟩ = true) protocolError
  removePrefix 1
  pure (topicLengthBuf, ⟨⟨topic⟩, opts⟩)

def decode (pb : PacketIdBytes) : Decoder (SubscribePacket pb) := do
  let fixedHeader ← readFixedHeaderWithCheck .subscribe malformedPacket
  let (remainingLength, remainingLengthBuf) ← readRemainingLength malformedPacket
  checkRemainingLength remainingLength malformedPacket
  let packetIdBuf ← readBytes pb.bytes malformedPacket
  let (propertyLength, propertyLengthBuf, props) ← readProperties .subscribe malformedPacket
  checkEntries
  let entries ← many readEntry
  pure {
    fixedHeader, entries := entries.map Prod.snd, topicLengthBufEntries := entries.map Prod.fst,
    packetIdBuf, remainingLength, remainingLengthBuf, propertyLength, propertyLengthBuf, props }

end SubscribePacket

/-! ### SUBACK and UNSUBACK -/

/-- `v5::basic_suback_packet` and `v5::basic_unsuback_packet` -/
structure SubResponsePacket (pb : PacketIdBytes) where
  fixedHeader : UInt8
  entries : List UInt8
  packetIdBuf : Buffer
  remainingLength : Nat
  remainingLengthBuf : Buffer
  propertyLength : Nat
  propertyLengthBuf : Buffer
  props : Properties
  deriving DecidableEq, Repr

/-- `basic_suback_packet(packet_id, params, props)` and its like. -/
def subResponsePacket (type : ControlPacketType) (loc : PropertyLocation) (pb : PacketIdBytes)
    (packetId : Nat) (params : List UInt8) (props : Properties) :
    Except Exception (SubResponsePacket pb) := do
  let propertyLength ← numericCast32 props.size
  validateProperties loc props malformedPacket
  let remainingLength := pb.bytes + params.length +
    ((valToVariableBytes propertyLength).length + propertyLength)
  let rb ← numericCast32 remainingLength
  pure {
    fixedHeader := makeFixedHeader type 0b0000
    entries := params
    packetIdBuf := endianStore pb.bytes packetId
    remainingLength := remainingLength
    remainingLengthBuf := valToVariableBytes rb
    propertyLength := propertyLength
    propertyLengthBuf := valToVariableBytes propertyLength
    props := props }

def subackPacket := subResponsePacket .suback .suback
def unsubackPacket := subResponsePacket .unsuback .unsuback

/-- The enumerators of `suback_reason_code`. -/
def subackReasonCodes : List UInt8 :=
  [0x00, 0x01, 0x02, 0x80, 0x83, 0x87, 0x8f, 0x91, 0x97, 0x9e, 0xa1, 0xa2]

/-- The enumerators of `unsuback_reason_code`. -/
def unsubackReasonCodes : List UInt8 := [0x00, 0x11, 0x80, 0x83, 0x87, 0x8f, 0x91]

namespace SubResponsePacket

variable {pb : PacketIdBytes}

def packetId (p : SubResponsePacket pb) : Nat := endianLoad pb.bytes p.packetIdBuf

def size (p : SubResponsePacket pb) : Nat := 1 + p.remainingLengthBuf.length + p.remainingLength

def numOfConstBufferSequence (p : SubResponsePacket pb) : Nat :=
  1 + 1 + 1 + (if p.propertyLengthBuf.length = 0 then 0
    else 1 + p.props.numOfConstBufferSequence) + 1

def constBufferSequence (p : SubResponsePacket pb) : List Buffer :=
  [[p.fixedHeader], p.remainingLengthBuf, p.packetIdBuf, p.propertyLengthBuf] ++
  p.props.constBufferSequence ++ [p.entries]

/-- The decoder of both. -/
def decode (type : ControlPacketType) (loc : PropertyLocation) (reasonCodes : List UInt8)
    (pb : PacketIdBytes) : Decoder (SubResponsePacket pb) := do
  let fixedHeader ← readFixedHeaderWithCheck type malformedPacket
  let (remainingLength, remainingLengthBuf) ← readRemainingLength malformedPacket
  checkRemainingLength remainingLength malformedPacket
  let packetIdBuf ← readBytes pb.bytes malformedPacket
  let (propertyLength, propertyLengthBuf, props) ← readProperties loc malformedPacket
  checkEntries
  let entries ← many (readCode reasonCodes)
  pure {
    fixedHeader, entries, packetIdBuf, remainingLength, remainingLengthBuf, propertyLength,
    propertyLengthBuf, props }

end SubResponsePacket

/-! ### UNSUBSCRIBE -/

/-- `v5::basic_unsubscribe_packet` -/
structure UnsubscribePacket (pb : PacketIdBytes) where
  fixedHeader : UInt8
  entries : List TopicSharename
  topicLengthBufEntries : List Buffer
  packetIdBuf : Buffer
  remainingLength : Nat
  remainingLengthBuf : Buffer
  propertyLength : Nat
  propertyLengthBuf : Buffer
  props : Properties
  deriving DecidableEq, Repr

/-- `basic_unsubscribe_packet(packet_id, params, props)` -/
def unsubscribePacket (pb : PacketIdBytes) (packetId : Nat) (params : List TopicSharename)
    (props : Properties) : Except Exception (UnsubscribePacket pb) := do
  checkTopicSizes (params.map TopicSharename.allTopic)
  let propertyLength ← numericCast32 props.size
  validateProperties .unsubscribe props malformedPacket
  forEach (fun e => throwIf (utf8StringCheck e.allTopic = false) malformedPacket) params
  let remainingLength := pb.bytes + ((valToVariableBytes propertyLength).length +
    propertyLength) + (params.map fun e => 2 + e.allTopic.length).sum
  let rb ← numericCast32 remainingLength
  pure {
    fixedHeader := makeFixedHeader .unsubscribe 0b0010
    entries := params
    topicLengthBufEntries := topicLengthBufs (params.map TopicSharename.allTopic)
    packetIdBuf := endianStore pb.bytes packetId
    remainingLength := remainingLength
    remainingLengthBuf := valToVariableBytes rb
    propertyLength := propertyLength
    propertyLengthBuf := valToVariableBytes propertyLength
    props := props }

namespace UnsubscribePacket

variable {pb : PacketIdBytes}

def packetId (p : UnsubscribePacket pb) : Nat := endianLoad pb.bytes p.packetIdBuf

def size (p : UnsubscribePacket pb) : Nat := 1 + p.remainingLengthBuf.length + p.remainingLength

def numOfConstBufferSequence (p : UnsubscribePacket pb) : Nat :=
  1 + 1 + 1 + (if p.propertyLengthBuf.length = 0 then 0
    else 1 + p.props.numOfConstBufferSequence) + p.entries.length * 2

def constBufferSequence (p : UnsubscribePacket pb) : List Buffer :=
  [[p.fixedHeader], p.remainingLengthBuf, p.packetIdBuf, p.propertyLengthBuf] ++
  p.props.constBufferSequence ++
  (p.topicLengthBufEntries.zip p.entries).flatMap fun (lengthBuf, e) => [lengthBuf, e.allTopic]

def decode (pb : PacketIdBytes) : Decoder (UnsubscribePacket pb) := do
  let fixedHeader ← readFixedHeaderWithCheck .unsubscribe malformedPacket
  let (remainingLength, remainingLengthBuf) ← readRemainingLength malformedPacket
  checkRemainingLength remainingLength malformedPacket
  let packetIdBuf ← readBytes pb.bytes malformedPacket
  let (propertyLength, propertyLengthBuf, props) ← readProperties .unsubscribe malformedPacket
  checkEntries
  let entries ← many V311.UnsubscribePacket.readEntry
  pure {
    fixedHeader, entries := entries.map Prod.snd, topicLengthBufEntries := entries.map Prod.fst,
    packetIdBuf, remainingLength, remainingLengthBuf, propertyLength, propertyLengthBuf, props }

end UnsubscribePacket

end V5

end AsyncMqtt
