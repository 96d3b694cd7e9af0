import AsyncMqtt.Native.ConnectionSend

/-!
# Receiving packets, and the whole interface

`recv`, `process_recv_packet` and `notify_timer_fired` of `connection_impl.ipp`,
and `Connection.Op`, one call of a member function of the connection.

Packet classes that `process_recv_packet` treats alike in both protocol versions
share one function.
-/

namespace AsyncMqtt

/-! ### Packets that the connection sends by itself -/

namespace V5

/-- `v5::disconnect_packet{reason_code}` -/
def disconnectOf (reasonCode : UInt8) : ReasonPacket :=
  ⟨makeFixedHeader .disconnect 0b0000, 1, valToVariableBytes 1, ⟨some reasonCode, 0, [], []⟩⟩

example (reasonCode : UInt8) :
    disconnectPacket (some reasonCode) [] = .ok (disconnectOf reasonCode) := rfl

/-- `v5::basic_puback_packet(packet_id)` and its like -/
def pubResponseOf (type : ControlPacketType) (flags : UInt8) (pb : PacketIdBytes)
    (packetId : Nat) : PubResponsePacket pb :=
  ⟨makeFixedHeader type flags, pb.bytes, valToVariableBytes pb.bytes,
    endianStore pb.bytes packetId, ⟨none, 0, [], []⟩⟩

example (type : ControlPacketType) (flags : UInt8) (loc : PropertyLocation)
    (pb : PacketIdBytes) (packetId : Nat) :
    pubResponsePacket type flags loc pb packetId none [] =
      .ok (pubResponseOf type flags pb packetId) := by
  cases pb <;> rfl

/-- `v5::connack_packet{session_present, reason_code}` -/
def connackOf (sessionPresent : Bool) (reasonCode : UInt8) : ConnackPacket :=
  ⟨makeFixedHeader .connack 0b0000, 3, valToVariableBytes 3, if sessionPresent then 1 else 0,
    reasonCode, 0, valToVariableBytes 0, []⟩

example (sessionPresent : Bool) (reasonCode : UInt8) :
    connackPacket sessionPresent reasonCode [] = .ok (connackOf sessionPresent reasonCode) := rfl

end V5

namespace Connection

variable {role : Role} {pb : PacketIdBytes}

/-- `send(v5::disconnect_packet{reason_code}); con_.on_error(reason_code);` -/
def disconnectV5 (reasonCode : UInt8) (c : Connection role pb) : Step role pb :=
  (c.send (.v5Disconnect (V5.disconnectOf reasonCode))).emit (.error (.disconnect reasonCode))

/-- `con_.on_close(); con_.on_error(protocol_error);` -/
def closeV311 (c : Connection role pb) : Step role pb := ⟨c, [.close, .error protocolError]⟩

/-- What an unexpected acknowledgement leads to. -/
def invalidPacketId (ver : ProtocolVersion) (c : Connection role pb) : Step role pb :=
  if ver = .v5 then c.disconnectV5 DisconnectReasonCode.protocolError else c.closeV311

/-- `pingreq_recv_op(); con_.on_receive(p);` -/
def receive (pv : PacketVariant pb) (c : Connection role pb) : Step role pb :=
  c.pingreqRecvOp.emit (.receive pv)

/-! ### CONNECT and CONNACK -/

/-- The timeout of a CONNECT that is received. -/
def recvKeepAlive (keepAlive : Nat) (c : Connection role pb) : Connection role pb :=
  if keepAlive ≠ 0 then { c with pingreqRecvTimeoutMs := some (keepAlive * 1000 * 3 / 2) } else c

/-- `v3_1_1::connect_packet` -/
def recvConnectV311 (p : V311.ConnectPacket) (c : Connection role pb) : Connection role pb :=
  let c : Connection role pb :=
    { c.initialized false with protocolVersion := .v311, status := .connecting }
  let c : Connection role pb := c.recvKeepAlive p.keepAlive
  if p.cleanSession then { c with needStore := false }.clearPublishIds
  else { c with needStore := true }

/-- The properties of a CONNECT that is received. -/
def recvConnectProp (c : Connection role pb) (prop : Property) : Connection role pb :=
  match prop.id with
  | .topicAliasMaximum => c.emplaceTopicAliasSend prop.val
  | .receiveMaximum => { c with publishSendMax := some prop.val }
  | .maximumPacketSize => { c with maximumPacketSizeSend := prop.val }
  | .sessionExpiryInterval => if prop.val ≠ 0 then { c with needStore := true } else c
  | _ => c

/-- `v5::connect_packet` -/
def recvConnectV5 (p : V5.ConnectPacket) (c : Connection role pb) : Connection role pb :=
  let c : Connection role pb :=
    { c.initialized false with protocolVersion := .v5, status := .connecting }
  let c : Connection role pb := c.recvKeepAlive p.keepAlive
  let c : Connection role pb := if p.cleanStart then c.clearPublishIds else c
  p.props.foldl recvConnectProp c

/-- The end of a CONNACK that accepts the connection. -/
def resumeSession (sessionPresent : Bool) (c : Connection role pb) : Step role pb :=
  if sessionPresent then c.sendStored else ⟨c.clearSession, []⟩

/-- `v3_1_1::connack_packet` -/
def recvConnackV311 (p : V311.ConnackPacket) (c : Connection role pb) : Step role pb :=
  if p.code = 0 then resumeSession p.sessionPresent { c with status := .connected } else ⟨c, []⟩

/-- A property of a CONNACK that is received. -/
def recvConnackProp (prop : Property) (c : Connection role pb) : Step role pb :=
  match prop.id with
  | .topicAliasMaximum => ⟨c.emplaceTopicAliasSend prop.val, []⟩
  | .receiveMaximum => ⟨{ c with publishSendMax := some prop.val }, []⟩
  | .maximumPacketSize => ⟨{ c with maximumPacketSizeSend := prop.val }, []⟩
  | .serverKeepAlive =>
    if canSendAsClient role then c.setPingreqSendInterval (prop.val * 1000) else ⟨c, []⟩
  | _ => ⟨c, []⟩

/-- The loop over the properties of a CONNACK. -/
def recvConnackProps : Properties → Connection role pb → Step role pb
  | [], c => ⟨c, []⟩
  | prop :: props, c => (c.recvConnackProp prop).andThen (recvConnackProps props)

/-- `v5::connack_packet` -/
def recvConnackV5 (p : V5.ConnackPacket) (c : Connection role pb) : Step role pb :=
  if p.code = ConnectReasonCode.success then
    (recvConnackProps p.props { c with status := .connected }).andThen
      (resumeSession p.sessionPresent)
  else ⟨c, []⟩

/-! ### PUBLISH -/

/-- The answer to a QoS 1 PUBLISH. -/
def pubackOf (ver : ProtocolVersion) (pb : PacketIdBytes) (packetId : Nat) : PacketVariant pb :=
  if ver = .v5 then .v5Puback (V5.pubResponseOf .puback 0b0000 pb packetId)
  else .v311Puback (V311.pubackPacket pb packetId)

/-- The answer to a QoS 2 PUBLISH. -/
def pubrecOf (ver : ProtocolVersion) (pb : PacketIdBytes) (packetId : Nat) : PacketVariant pb :=
  if ver = .v5 then .v5Pubrec (V5.pubResponseOf .pubrec 0b0000 pb packetId)
  else .v311Pubrec (V311.pubrecPacket pb packetId)

/-- The answer to a PUBREC. -/
def pubrelOf (ver : ProtocolVersion) (pb : PacketIdBytes) (packetId : Nat) : PacketVariant pb :=
  if ver = .v5 then .v5Pubrel (V5.pubResponseOf .pubrel 0b0010 pb packetId)
  else .v311Pubrel (V311.pubrelPacket pb packetId)

/-- The answer to a PUBREL. -/
def pubcompOf (ver : ProtocolVersion) (pb : PacketIdBytes) (packetId : Nat) : PacketVariant pb :=
  if ver = .v5 then .v5Pubcomp (V5.pubResponseOf .pubcomp 0b0000 pb packetId)
  else .v311Pubcomp (V311.pubcompPacket pb packetId)

/-- `if (cond && status_ == connected) send(p);` -/
def respondIf (cond : Bool) (pv : PacketVariant pb) (c : Connection role pb) : Step role pb :=
  if cond ∧ c.status = .connected then c.send pv else ⟨c, []⟩

/-- `v3_1_1::basic_publish_packet` -/
def recvPublishV311 (p : V311.PublishPacket pb) (c : Connection role pb) : Step role pb :=
  let pv : PacketVariant pb := .v311Publish p
  match (Pub.getQos p.opts).toNat with
  | 0 => c.receive pv
  | 1 => (c.respondIf c.autoPubResponse (pubackOf .v311 pb p.packetId)).andThen (·.receive pv)
  | 2 =>
    let alreadyHandled : Bool := p.packetId ∈ c.qos2PublishHandled
    let c : Connection role pb :=
      { c with qos2PublishHandled := c.qos2PublishHandled.insert p.packetId }
    let s := (c.respondIf (c.autoPubResponse || alreadyHandled)
      (pubrecOf .v311 pb p.packetId)).andThen pingreqRecvOp
    if alreadyHandled then s else s.emit (.receive pv)
  | _ => ⟨c, []⟩

/-- The number of QoS 1 and 2 PUBLISH packets that were not answered has reached its
    maximum. -/
def recvMaximumReached (c : Connection role pb) : Bool :=
  match c.publishRecvMax with
  | none => false
  | some m => c.publishRecv.size = m

/-- The topic alias part of `v5::basic_publish_packet`: the packet with its topic, or
    `none` if the connection has to be closed with `topic_alias_invalid`. -/
def recvTopicAlias (p : V5.PublishPacket pb) (c : Connection role pb) :
    Option (Connection role pb × V5.PublishPacket pb) :=
  match getTopicAlias p.props, c.topicAliasRecv with
  | none, _ => if p.topic = [] then none else some (c, p)
  | some _, none => none
  | some ta, some tar =>
    if ta = 0 ∨ tar.max < ta then none
    else if p.topic = [] then
      let topic := tar.find ta
      if topic = [] then none else some (c, p.addTopic topic)
    else some ({ c with topicAliasRecv := some (tar.insertOrUpdate p.topic ta) }, p)

/-- `v5::basic_publish_packet` after the QoS part: `response` is the PUBACK or PUBREC
    that has to be sent. -/
def recvPublishTopicV5 (p : V5.PublishPacket pb) (response : Option (PacketVariant pb))
    (alreadyHandled : Bool) (c : Connection role pb) : Step role pb :=
  match c.recvTopicAlias p with
  | none => c.disconnectV5 DisconnectReasonCode.topicAliasInvalid
  | some (c, p) =>
    let s : Step role pb := (match response with
      | none => (⟨c, []⟩ : Step role pb)
      | some pv => c.send pv).andThen pingreqRecvOp
    if alreadyHandled then s else s.emit (.receive (.v5Publish p))

/-- `v5::basic_publish_packet` -/
def recvPublishV5 (p : V5.PublishPacket pb) (c : Connection role pb) : Step role pb :=
  match (Pub.getQos p.opts).toNat with
  | 1 =>
    if c.recvMaximumReached then c.disconnectV5 DisconnectReasonCode.receiveMaximumExceeded
    else
      let c : Connection role pb := { c with publishRecv := c.publishRecv.insert p.packetId }
      c.recvPublishTopicV5 p
        (if c.autoPubResponse ∧ c.status = .connected then some (pubackOf .v5 pb p.packetId)
          else none) false
  | 2 =>
    if c.recvMaximumReached then c.disconnectV5 DisconnectReasonCode.receiveMaximumExceeded
    else
      let alreadyHandled : Bool := p.packetId ∈ c.qos2PublishHandled
      let c : Connection role pb :=
        { c with
          publishRecv := c.publishRecv.insert p.packetId
          qos2PublishHandled := c.qos2PublishHandled.insert p.packetId }
      c.recvPublishTopicV5 p
        (if (c.autoPubResponse || alreadyHandled) ∧ c.status = .connected then
          some (pubrecOf .v5 pb p.packetId) else none) alreadyHandled
  | _ => c.recvPublishTopicV5 p none false

/-! ### Acknowledgements -/

/-- `basic_puback_packet` -/
def recvPuback (ver : ProtocolVersion) (pv : PacketVariant pb) (c : Connection role pb) :
    Step role pb :=
  let packetId := pv.packetId
  if packetId ∈ c.pidPuback then
    let c : Connection role pb :=
      { c with
        pidPuback := c.pidPuback.erase packetId
        store := c.store.erase (if ver = .v5 then .v5Puback else .v311Puback) packetId }
    (c.releaseId packetId).andThen fun c =>
      (if ver = .v5 then c.decPublishSendCount else c).receive pv
  else c.invalidPacketId ver

/-- The part of PUBREC that follows the check of the packet identifier. `failed` says
    that the reason code is an error, which v3.1.1 does not have. -/
def recvPubrec (ver : ProtocolVersion) (failed : Bool) (pv : PacketVariant pb)
    (c : Connection role pb) : Step role pb :=
  let packetId := pv.packetId
  if packetId ∈ c.pidPubrec then
    let c : Connection role pb :=
      { c with
        pidPubrec := c.pidPubrec.erase packetId
        store := c.store.erase (if ver = .v5 then .v5Pubrec else .v311Pubrec) packetId }
    (if failed then
      (c.releaseId packetId).andThen fun c =>
        ⟨{ c with
            qos2PublishProcessing := c.qos2PublishProcessing.erase packetId }.decPublishSendCount,
          []⟩
    else c.respondIf c.autoPubResponse (pubrelOf ver pb packetId)).andThen (·.receive pv)
  else c.invalidPacketId ver

/-- `basic_pubrel_packet` -/
def recvPubrel (ver : ProtocolVersion) (pv : PacketVariant pb) (c : Connection role pb) :
    Step role pb :=
  let packetId := pv.packetId
  let c : Connection role pb :=
    { c with qos2PublishHandled := c.qos2PublishHandled.erase packetId }
  (c.respondIf c.autoPubResponse (pubcompOf ver pb packetId)).andThen (·.receive pv)

/-- `basic_pubcomp_packet` -/
def recvPubcomp (ver : ProtocolVersion) (pv : PacketVariant pb) (c : Connection role pb) :
    Step role pb :=
  let packetId := pv.packetId
  if packetId ∈ c.pidPubcomp then
    let c : Connection role pb :=
      { c with
        pidPubcomp := c.pidPubcomp.erase packetId
        store := c.store.erase (if ver = .v5 then .v5Pubcomp else .v311Pubcomp) packetId }
    (c.releaseId packetId).andThen fun c =>
      let c : Connection role pb :=
        { c with qos2PublishProcessing := c.qos2PublishProcessing.erase packetId }
      (if ver = .v5 then c.decPublishSendCount else c).receive pv
  else c.invalidPacketId ver

/-- `basic_suback_packet` -/
def recvSuback (ver : ProtocolVersion) (pv : PacketVariant pb) (c : Connection role pb) :
    Step role pb :=
  if pv.packetId ∈ c.pidSuback then
    ({ c with pidSuback := c.pidSuback.erase pv.packetId }.releaseId pv.packetId).andThen
      (·.receive pv)
  else c.invalidPacketId ver

/-- `basic_unsuback_packet` -/
def recvUnsuback (ver : ProtocolVersion) (pv : PacketVariant pb) (c : Connection role pb) :
    Step role pb :=
  if pv.packetId ∈ c.pidUnsuback then
    ({ c with pidUnsuback := c.pidUnsuback.erase pv.packetId }.releaseId pv.packetId).andThen
      (·.receive pv)
  else c.invalidPacketId ver

/-! ### The other packets -/

/-- `pingreq_packet` -/
def recvPingreq (response pv : PacketVariant pb) (c : Connection role pb) : Step role pb :=
  (c.respondIf (canSendAsServer role && c.autoPingResponse) response).andThen (·.receive pv)

/-- `pingresp_packet` -/
def recvPingresp (pv : PacketVariant pb) (c : Connection role pb) : Step role pb :=
  ⟨{ c with pingrespRecvSet := false }, [.timerOp .cancel .pingrespRecv none, .receive pv]⟩

/-- `disconnect_packet` -/
def recvDisconnect (pv : PacketVariant pb) (c : Connection role pb) : Step role pb :=
  { c with status := .disconnected }.cancelTimers.emit (.receive pv)

/-- `protocol_satisfied` -/
def recvAllowed (c : Connection role pb) (pv : PacketVariant pb) : Bool :=
  match pv.type with
  | .connect => c.status = .disconnected
  | .connack => c.status = .connecting
  | .auth => c.status ≠ .disconnected
  | _ => c.status = .connected

/-- `// do internal protocol processing` -/
def processRecvActual (pv : PacketVariant pb) (c : Connection role pb) : Step role pb :=
  match pv with
  | .v311Connect p => (c.recvConnectV311 p).receive pv
  | .v5Connect p => (c.recvConnectV5 p).receive pv
  | .v311Connack p => (c.recvConnackV311 p).emit (.receive pv)
  | .v5Connack p => (c.recvConnackV5 p).emit (.receive pv)
  | .v311Publish p => c.recvPublishV311 p
  | .v5Publish p => c.recvPublishV5 p
  | .v311Puback _ => c.recvPuback .v311 pv
  | .v5Puback _ => c.recvPuback .v5 pv
  | .v311Pubrec _ => c.recvPubrec .v311 false pv
  | .v5Pubrec p => c.recvPubrec .v5 (reasonCodeFailed p.code) pv
  | .v311Pubrel _ => c.recvPubrel .v311 pv
  | .v5Pubrel _ => c.recvPubrel .v5 pv
  | .v311Pubcomp _ => c.recvPubcomp .v311 pv
  | .v5Pubcomp _ => c.recvPubcomp .v5 pv
  | .v311Suback _ => c.recvSuback .v311 pv
  | .v5Suback _ => c.recvSuback .v5 pv
  | .v311Unsuback _ => c.recvUnsuback .v311 pv
  | .v5Unsuback _ => c.recvUnsuback .v5 pv
  | .v311Pingreq _ => c.recvPingreq (.v311Pingresp (TwoBytePacket.make .pingresp)) pv
  | .v5Pingreq _ => c.recvPingreq (.v5Pingresp (TwoBytePacket.make .pingresp)) pv
  | .v311Pingresp _ | .v5Pingresp _ => c.recvPingresp pv
  | .v311Disconnect _ | .v5Disconnect _ => c.recvDisconnect pv
  | .v311Subscribe _ | .v5Subscribe _ | .v311Unsubscribe _ | .v5Unsubscribe _ | .v5Auth _ =>
    c.receive pv

/-- `process_recv_packet` for a packet that was decoded. -/
def processRecvDecoded (pv : PacketVariant pb) (c : Connection role pb) : Step role pb :=
  if c.recvAllowed pv then c.processRecvActual pv else ⟨c, [.error protocolError]⟩

/-- `process_recv_packet` for an error of the decoder. -/
def processRecvError (ec : ErrorCode) (c : Connection role pb) : Step role pb :=
  let value := UInt8.ofNat ec.value
  if c.status = .disconnected ∧ ec.category = .connectReasonCode then
    let c : Connection role pb := { c with status := .connecting }
    (c.send (if c.protocolVersion = .v5 then .v5Connack (V5.connackOf false value)
      else .v311Connack (V311.connackPacket false value))).emit (.error (.connect value))
  else if c.status = .connected ∧ c.protocolVersion = .v5 then c.disconnectV5 value
  else ⟨c, [.close, .error (.disconnect value)]⟩

/-- `process_recv_packet` -/
def processRecvPacket (ep : ErrorPacket) (c : Connection role pb) : Step role pb :=
  match ep with
  | .ec ec => ({ c with status := .disconnected }.cancelTimers.emit .close).emit (.error ec)
  | .packet buf =>
    if c.maximumPacketSizeRecv < buf.length then
      c.disconnectV5 DisconnectReasonCode.packetTooLarge
    else
      match (bufferToPacketVariant pb c.protocolVersion).run buf with
      | .ok (pv, _) => c.processRecvDecoded pv
      | .error (.error ec) => c.processRecvError ec
      | .error .outOfBounds => ⟨c, [.outOfBounds]⟩

/-- `recv`: the step and what is left of the stream -/
def recv (is : List UInt8) (c : Connection role pb) : Step role pb × List UInt8 :=
  match c.rpb.recv is with
  | (rpb, none, rest) => (⟨{ c with rpb := rpb }, []⟩, rest)
  | (rpb, some ep, rest) => (processRecvPacket ep { c with rpb := rpb }, rest)

/-! ### Timers -/

/-- `notify_timer_fired(pingreq_recv)` and `notify_timer_fired(pingresp_recv)` -/
def recvTimerFired (c : Connection role pb) : Step role pb :=
  match c.protocolVersion with
  | .v311 => ⟨c, [.close]⟩
  | .v5 =>
    if c.status = .connected then
      c.send (.v5Disconnect (V5.disconnectOf DisconnectReasonCode.keepAliveTimeout))
    else ⟨c, []⟩
  | .undetermined => ⟨c, []⟩

/-- `notify_timer_fired` -/
def notifyTimerFired (kind : TimerKind) (c : Connection role pb) : Step role pb :=
  match kind with
  | .pingreqSend =>
    let c : Connection role pb := { c with pingreqSendSet := false }
    match c.protocolVersion with
    | .v311 =>
      if c.status = .connected then c.send (.v311Pingreq (TwoBytePacket.make .pingreq))
      else ⟨c, []⟩
    | .v5 =>
      if c.status = .connected then c.send (.v5Pingreq (TwoBytePacket.make .pingreq))
      else ⟨c, []⟩
    | .undetermined => ⟨c, []⟩
  | .pingreqRecv => { c with pingreqRecvSet := false }.recvTimerFired
  | .pingrespRecv => { c with pingrespRecvSet := false }.recvTimerFired

/-! ### The interface -/

/-- A call of a member function of the connection, or the passing of time. -/
inductive Op (pb : PacketIdBytes) where
  | acquireUniquePacketId
  | registerPacketId (packetId : Fin pb.limit)
  | releasePacketId (packetId : Fin pb.limit)
  | send (pv : PacketVariant pb)
  | recv (is : List UInt8)
  | notifyTimerFired (kind : TimerKind)
  | notifyClosed
  | restorePackets (pvs : List (StorePacketVariant pb))
  | restoreQos2PublishHandledPids (pids : OrdSet Nat)
  | setPingreqSendInterval (duration : Nat)
  | setPingrespRecvTimeout (duration : Nat)
  | setOfflinePublish (val : Bool)
  | setAutoPubResponse (val : Bool)
  | setAutoPingResponse (val : Bool)
  | setAutoMapTopicAliasSend (val : Bool)
  | setAutoReplaceTopicAliasSend (val : Bool)
  | clock (now : Nat)

/-- The effect of a call. -/
def call (op : Op pb) (c : Connection role pb) : Step role pb :=
  match op with
  | .acquireUniquePacketId => ⟨c.acquireUniquePacketId.2, []⟩
  | .registerPacketId packetId => ⟨(c.registerPacketId packetId).2, []⟩
  | .releasePacketId packetId => c.releasePacketId packetId
  | .send pv => c.send pv
  | .recv is => (c.recv is).1
  | .notifyTimerFired kind => c.notifyTimerFired kind
  | .notifyClosed => c.notifyClosed
  | .restorePackets pvs => ⟨c.restorePackets pvs, []⟩
  | .restoreQos2PublishHandledPids pids => ⟨c.restoreQos2PublishHandledPids pids, []⟩
  | .setPingreqSendInterval duration => c.setPingreqSendInterval duration
  | .setPingrespRecvTimeout duration => ⟨c.setPingrespRecvTimeout duration, []⟩
  | .setOfflinePublish val => ⟨{ c with offlinePublish := val }, []⟩
  | .setAutoPubResponse val => ⟨{ c with autoPubResponse := val }, []⟩
  | .setAutoPingResponse val => ⟨{ c with autoPingResponse := val }, []⟩
  | .setAutoMapTopicAliasSend val => ⟨{ c with autoMapTopicAliasSend := val }, []⟩
  | .setAutoReplaceTopicAliasSend val => ⟨{ c with autoReplaceTopicAliasSend := val }, []⟩
  | .clock now => ⟨{ c with now := max c.now now }, []⟩

end Connection

end AsyncMqtt
