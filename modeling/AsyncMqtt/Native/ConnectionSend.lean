import AsyncMqtt.Native.Connection

/-!
# Sending packets

`connection_send.ipp` and `send_stored` of `connection_impl.ipp`.

`process_send_packet` is one function over all packet classes; here each class
has its own function with the statements that its class executes. The three
steps of a PUBLISH (store, topic alias, receive maximum) are functions of their
own, in the order of the source.
-/

namespace AsyncMqtt

/-- What `process_send_packet` does, and what it returns. -/
structure Sent (role : Role) (pb : PacketIdBytes) where
  step : Step role pb
  ok : Bool
  deriving DecidableEq

namespace Sent

variable {role : Role} {pb : PacketIdBytes}

/-- `con_.on_error(ec); return false;` -/
def fail (c : Connection role pb) (ec : ErrorCode) : Sent role pb := ⟨⟨c, [.error ec]⟩, false⟩

/-- `con_.on_error(ec)`, then the packet identifier is given back if there is one. -/
def failRelease (c : Connection role pb) (ec : ErrorCode) (packetId : Nat) : Sent role pb :=
  if packetId ≠ 0 then ⟨Step.andThen ⟨c, [.error ec]⟩ (·.releaseId packetId), false⟩
  else fail c ec

/-- `con_.on_send(actual_packet, release_packet_id_if_send_error); return true;` -/
def send (c : Connection role pb) (pv : PacketVariant pb) (release : Option Nat) : Sent role pb :=
  ⟨⟨c, [.send pv release]⟩, true⟩

/-- A constructor of the library threw. -/
def threw (c : Connection role pb) (e : Exception) : Sent role pb := ⟨⟨c, [.threw e]⟩, false⟩

end Sent

namespace Connection

variable {role : Role} {pb : PacketIdBytes}

/-! ### Checks -/

/-- `version_check` -/
def versionCheck (c : Connection role pb) (pv : PacketVariant pb) : Bool :=
  c.protocolVersion = pv.version

/-- The sendable, status and version checks, which all report the same error. -/
def sendAllowed (c : Connection role pb) (pv : PacketVariant pb) : Bool :=
  (canSendAsClient role && pv.isClientSendable || canSendAsServer role && pv.isServerSendable) &&
  (match pv.type with
    | .connect => c.status = .disconnected
    | .connack => c.status = .connecting
    | .auth => c.status ≠ .disconnected
    | .publish => true
    | _ => c.status = .connected) &&
  c.versionCheck pv

/-! ### CONNECT and CONNACK -/

/-- `v3_1_1::connect_packet` -/
def sendConnectV311 (c : Connection role pb) (p : V311.ConnectPacket) : Connection role pb :=
  let c : Connection role pb := { c.initialized true with status := .connecting }
  let c : Connection role pb := if p.keepAlive ≠ 0 ∧ c.pingreqSendIntervalMs = none then
    { c with pingreqSendIntervalMs := some (p.keepAlive * 1000) } else c
  let c : Connection role pb := if p.cleanSession then { c.clearSession with needStore := false }
    else { c with needStore := true }
  { c with topicAliasSend := none }

/-- The properties of a CONNECT that is sent. -/
def sendConnectProp (c : Connection role pb) (prop : Property) : Connection role pb :=
  match prop.id with
  | .topicAliasMaximum => c.emplaceTopicAliasRecv prop.val
  | .receiveMaximum => { c with publishRecvMax := some prop.val }
  | .maximumPacketSize => { c with maximumPacketSizeRecv := prop.val }
  | .sessionExpiryInterval => if prop.val ≠ 0 then { c with needStore := true } else c
  | _ => c

/-- `v5::connect_packet` -/
def sendConnectV5 (c : Connection role pb) (p : V5.ConnectPacket) : Connection role pb :=
  let c : Connection role pb := { c.initialized true with status := .connecting }
  let c : Connection role pb := if p.keepAlive ≠ 0 ∧ c.pingreqSendIntervalMs = none then
    { c with pingreqSendIntervalMs := some (p.keepAlive * 1000) } else c
  let c : Connection role pb := if p.cleanStart then c.clearSession else c
  p.props.foldl sendConnectProp c

/-- `v3_1_1::connack_packet` -/
def sendConnackV311 (c : Connection role pb) (p : V311.ConnackPacket) : Step role pb :=
  if p.code = 0 then ⟨{ c with status := .connected }, []⟩
  else { c with status := .disconnected }.cancelTimers

/-- The properties of a CONNACK that is sent. -/
def sendConnackProp (c : Connection role pb) (prop : Property) : Connection role pb :=
  match prop.id with
  | .topicAliasMaximum => c.emplaceTopicAliasRecv prop.val
  | .receiveMaximum => { c with publishRecvMax := some prop.val }
  | .maximumPacketSize => { c with maximumPacketSizeRecv := prop.val }
  | _ => c

/-- `v5::connack_packet` -/
def sendConnackV5 (c : Connection role pb) (p : V5.ConnackPacket) : Step role pb :=
  if p.code = ConnectReasonCode.success then
    ⟨p.props.foldl sendConnackProp { c with status := .connected }, []⟩
  else { c with status := .disconnected }.cancelTimers

/-! ### PUBLISH -/

/-- The packet is stored, not only sent. -/
def storesPublish (c : Connection role pb) : Bool :=
  c.needStore && (c.status ≠ .disconnected || c.offlinePublish)

/-- The packet identifier waits for PUBACK or PUBREC. -/
def waitAck (c : Connection role pb) (qos : UInt8) (packetId : Nat) : Connection role pb :=
  if qos = Qos.exactlyOnce then
    { c with
      qos2PublishProcessing := c.qos2PublishProcessing.insert packetId
      pidPubrec := c.pidPubrec.insert packetId }
  else { c with pidPuback := c.pidPuback.insert packetId }

/-- The end of `process_send_packet` for a PUBLISH. -/
def finishPublish (c : Connection role pb) (pv : PacketVariant pb) (release : Option Nat) :
    Sent role pb :=
  if c.status ≠ .connected then
    if c.offlinePublish then ⟨⟨c, []⟩, true⟩
    else .failRelease c MqttError.packetNotAllowedToSend pv.packetId
  else .send c pv release

/-- The QoS is 1 or 2. -/
def isQos12 (opts : UInt8) : Bool :=
  Pub.getQos opts = Qos.atLeastOnce || Pub.getQos opts = Qos.exactlyOnce

/-- `v3_1_1::basic_publish_packet` -/
def sendPublishV311 (c : Connection role pb) (p : V311.PublishPacket pb) : Sent role pb :=
  if isQos12 p.opts then
    if c.pidMan.isUsedId p.packetId then
      let stores := c.storesPublish
      let c : Connection role pb :=
        if stores then { c with store := c.store.add (.v311Publish p.setDup) } else c
      let c : Connection role pb := c.waitAck (Pub.getQos p.opts) p.packetId
      c.finishPublish (.v311Publish p) (if stores then none else some p.packetId)
    else .fail c MqttError.packetIdentifierInvalid
  else c.finishPublish (.v311Publish p) none

/-- The `for` loop that removes the first topic alias. -/
def eraseTopicAlias (props : Properties) : Properties := props.eraseP (·.id = .topicAlias)

/-- The PUBLISH that is put into the store: with its topic, without its topic alias. -/
def storePacket (p : V5.PublishPacket pb) (topic : Buffer) :
    Except Exception (V5.PublishPacket pb) :=
  V5.publishPacket pb p.packetId topic p.payloads p.opts (eraseTopicAlias p.props)

/-- The `need_store_` branch of `v5::basic_publish_packet`: either the result, or
    the state after it and `topic_alias_validated`. -/
def storePublishV5 (c : Connection role pb) (p : V5.PublishPacket pb) :
    Except (Sent role pb) (Connection role pb × Bool) :=
  if p.topic = [] then
    match c.validateTopicAlias (getTopicAlias p.props) with
    | (none, c) => .error (.failRelease c MqttError.packetNotAllowedToSend p.packetId)
    | (some topic, c) =>
      match storePacket p topic with
      | .error e => .error (.threw c e)
      | .ok sp =>
        if c.validateMaximumPacketSize sp.size then
          .ok ({ c with store := c.store.add (.v5Publish sp.setDup) }, true)
        else .error (.failRelease c MqttError.packetNotAllowedToSend p.packetId)
  else
    match storePacket p p.topic with
    | .error e => .error (.threw c e)
    | .ok sp => .ok ({ c with store := c.store.add (.v5Publish sp.setDup) }, false)

/-- `// receive_maximum for sending` -/
def sendReceiveMaximum (c : Connection role pb) (p : V5.PublishPacket pb) (release : Option Nat) :
    Sent role pb :=
  if isQos12 p.opts then
    match c.publishSendMax with
    | none => c.finishPublish (.v5Publish p) release
    | some m =>
      if c.publishSendCount = m then
        .failRelease c (.disconnect DisconnectReasonCode.receiveMaximumExceeded) p.packetId
      else c.incPublishSendCount.finishPublish (.v5Publish p) release
  else c.finishPublish (.v5Publish p) release

/-- The automatic use of topic aliases for a PUBLISH with a topic and no alias. -/
def autoTopicAlias (c : Connection role pb) (p : V5.PublishPacket pb) :
    Connection role pb × V5.PublishPacket pb :=
  match c.topicAliasSend with
  | none => (c, p)
  | some tas =>
    if c.autoMapTopicAliasSend then
      match tas.findAlias p.topic with
      | some ta => (c, p.removeTopicAddTopicAlias ta)
      | none =>
        let ta := tas.getLruAlias
        ({ c with topicAliasSend := some (tas.insertOrUpdate p.topic ta c.now) },
          p.addTopicAlias ta)
    else if c.autoReplaceTopicAliasSend then
      match tas.findAlias p.topic with
      | some ta => (c, p.removeTopicAddTopicAlias ta)
      | none => (c, p)
    else (c, p)

/-- `topic_alias_send_->insert_or_update(topic, ta)` -/
def insertOrUpdateTopicAlias (c : Connection role pb) (topic : Buffer) (ta : Nat) :
    Connection role pb :=
  { c with topicAliasSend := c.topicAliasSend.map (·.insertOrUpdate topic ta c.now) }

/-- `// apply topic_alias` -/
def sendTopicAlias (c : Connection role pb) (p : V5.PublishPacket pb) (validated : Bool)
    (release : Option Nat) : Sent role pb :=
  if p.topic = [] then
    if validated then c.sendReceiveMaximum p release
    else
      match c.validateTopicAlias (getTopicAlias p.props) with
      | (none, c) => .failRelease c MqttError.packetNotAllowedToSend p.packetId
      | (some _, c) => c.sendReceiveMaximum p release
  else
    match getTopicAlias p.props with
    | some ta =>
      if c.validateTopicAliasRange ta then
        (c.insertOrUpdateTopicAlias p.topic ta).sendReceiveMaximum p release
      else .failRelease c MqttError.packetNotAllowedToSend p.packetId
    | none =>
      if c.status = .connected then
        (c.autoTopicAlias p).1.sendReceiveMaximum (c.autoTopicAlias p).2 release
      else c.sendReceiveMaximum p release

/-- `v5::basic_publish_packet` -/
def sendPublishV5 (c : Connection role pb) (p : V5.PublishPacket pb) : Sent role pb :=
  if c.status ≠ .connected ∧ (getTopicAlias p.props).isSome then
    .failRelease c MqttError.packetNotAllowedToSend p.packetId
  else if isQos12 p.opts then
    if c.pidMan.isUsedId p.packetId then
      if c.storesPublish then
        match c.storePublishV5 p with
        | .error r => r
        | .ok (c, validated) =>
          (c.waitAck (Pub.getQos p.opts) p.packetId).sendTopicAlias p validated none
      else
        (c.waitAck (Pub.getQos p.opts) p.packetId).sendTopicAlias p false (some p.packetId)
    else .fail c MqttError.packetIdentifierInvalid
  else c.sendTopicAlias p false none

/-! ### The other packets -/

/-- `is_pubrel`; `add` is the packet that is stored -/
def sendPubrel (c : Connection role pb) (p : StorePacket pb) : Connection role pb :=
  let c : Connection role pb := if c.needStore then { c with store := c.store.add p } else c
  { c with pidPubcomp := c.pidPubcomp.insert p.packetId }

/-- `v5::basic_pubrec_packet` -/
def sendPubrecV5 (c : Connection role pb) (p : V5.PubResponsePacket pb) : Connection role pb :=
  if reasonCodeFailed p.code then
    { c with
      publishRecv := c.publishRecv.erase p.packetId
      qos2PublishHandled := c.qos2PublishHandled.erase p.packetId }
  else c

/-- `is_pingreq` -/
def sendPingreq (c : Connection role pb) (pv : PacketVariant pb) : Sent role pb :=
  match c.pingrespRecvTimeoutMs with
  | none => .send c pv none
  | some ms =>
    ⟨⟨{ c with pingrespRecvSet := true },
      [.send pv none, .timerOp .reset .pingrespRecv (some ms)]⟩, true⟩

/-- `is_disconnect` -/
def sendDisconnect (c : Connection role pb) (pv : PacketVariant pb) : Sent role pb :=
  ⟨({ c with status := .disconnected }.cancelTimers.emit (.send pv none)).emit .close, true⟩

/-- `process_send_packet` from `// sending process` on -/
def processSendActual (c : Connection role pb) (pv : PacketVariant pb) : Sent role pb :=
  match pv with
  | .v311Connect p => .send (c.sendConnectV311 p) pv none
  | .v5Connect p => .send (c.sendConnectV5 p) pv none
  | .v311Connack p => ⟨(c.sendConnackV311 p).emit (.send pv none), true⟩
  | .v5Connack p => ⟨(c.sendConnackV5 p).emit (.send pv none), true⟩
  | .v311Publish p => c.sendPublishV311 p
  | .v5Publish p => c.sendPublishV5 p
  | .v5Puback p | .v5Pubcomp p =>
    .send { c with publishRecv := c.publishRecv.erase p.packetId } pv none
  | .v5Pubrec p => .send (c.sendPubrecV5 p) pv none
  | .v311Pubrel p => .send (c.sendPubrel (.v311Pubrel p)) pv none
  | .v5Pubrel p => .send (c.sendPubrel (.v5Pubrel p)) pv none
  | .v311Subscribe _ | .v5Subscribe _ =>
    .send { c with pidSuback := c.pidSuback.insert pv.packetId } pv (some pv.packetId)
  | .v311Unsubscribe _ | .v5Unsubscribe _ =>
    .send { c with pidUnsuback := c.pidUnsuback.insert pv.packetId } pv (some pv.packetId)
  | .v311Pingreq _ | .v5Pingreq _ => c.sendPingreq pv
  | .v311Disconnect _ | .v5Disconnect _ => c.sendDisconnect pv
  | .v311Puback _ | .v311Pubrec _ | .v311Pubcomp _ | .v311Suback _ | .v311Unsuback _
  | .v311Pingresp _ | .v5Suback _ | .v5Unsuback _ | .v5Pingresp _ | .v5Auth _ => .send c pv none

/-- `process_send_packet` -/
def processSendPacket (c : Connection role pb) (pv : PacketVariant pb) : Sent role pb :=
  if c.sendAllowed pv then
    if c.validateMaximumPacketSize pv.size then c.processSendActual pv
    else .failRelease c MqttError.packetNotAllowedToSend (if pv.ownPacketId then pv.packetId else 0)
  else .fail c MqttError.packetNotAllowedToSend

/-! ### send -/

/-- The loop of `send_stored`. -/
def sendStoredElems : List (StorePacketVariant pb) → Connection role pb → Step role pb
  | [], c => ⟨c, []⟩
  | pv :: pvs, c =>
    (if c.maximumPacketSizeSend < pv.size then c.releaseId pv.packetId
      else ⟨c, [.send pv.packet.toPacketVariant none]⟩).andThen (sendStoredElems pvs)

/-- `send_stored`: the packets that are too large leave the store -/
def sendStored (c : Connection role pb) : Step role pb :=
  (sendStoredElems c.store.elems c).andThen fun c =>
    ⟨{ c with store := c.store.filter fun pv => pv.size ≤ c.maximumPacketSizeSend }, []⟩

/-- The timer part of `send_and_post_process`. -/
def resetPingreqSend (c : Connection role pb) : Step role pb :=
  if canSendAsClient role ∧ c.isClient ∧ c.status ≠ .disconnected then
    match c.pingreqSendIntervalMs with
    | none => ⟨c, []⟩
    | some ms => ⟨{ c with pingreqSendSet := true }, [.timerOp .reset .pingreqSend (some ms)]⟩
  else ⟨c, []⟩

/-- `send` -/
def send (pv : PacketVariant pb) (c : Connection role pb) : Step role pb :=
  let r := c.processSendPacket pv
  if r.ok then
    (if pv.type = .connack then r.step.andThen sendStored else r.step).andThen resetPingreqSend
  else r.step

end Connection

end AsyncMqtt
