import AsyncMqtt.ForStd.OrdSet
import AsyncMqtt.Native.PublishMutators
import AsyncMqtt.Native.RecvPacketBuilder
import AsyncMqtt.Native.Store
import AsyncMqtt.Native.TopicAlias

/-!
# The connection

`connection_impl.hpp` and the parts of `connection_impl.ipp` that neither send
nor receive packets: the state of `basic_connection_impl`, the calls it makes to
its owner, and the operations on packet identifiers, timers and topic aliases.

A member function becomes a function from the state to a `Step`: the state after
it and the calls it makes, in order. Assertions are not part of the model, as in
a build with `NDEBUG`.
-/

namespace AsyncMqtt

/-- The calls that the connection makes to its owner. -/
inductive Event (pb : PacketIdBytes) where
  /-- `on_error` -/
  | error (ec : ErrorCode)
  /-- `on_close` -/
  | close
  /-- `on_send(packet, release_packet_id_if_send_error)` -/
  | send (p : PacketVariant pb) (releasePacketIdIfSendError : Option Nat)
  /-- `on_packet_id_release` -/
  | packetIdRelease (packetId : Nat)
  /-- `on_receive` -/
  | receive (p : PacketVariant pb)
  /-- `on_timer_op(op, kind, ms)` -/
  | timerOp (op : TimerOp) (kind : TimerKind) (ms : Option Nat)
  /-- the member function ends with an exception -/
  | threw (e : Exception)
  /-- the decoder reads outside the buffer; what follows is undefined -/
  | outOfBounds
  deriving DecidableEq

instance : LawfulBEq (Event pb) := inferInstance

/-- `packet_size_no_limit`: fixed header, remaining length and the largest rest -/
def packetSizeNoLimit : Nat := 1 + 4 + 128 * 128 * 128 * 128

/-- `basic_connection_impl<Role, PacketIdBytes>` -/
structure Connection (role : Role) (pb : PacketIdBytes) where
  protocolVersion : ProtocolVersion
  pidMan : PacketIdManager pb
  pidSuback : OrdSet Nat
  pidUnsuback : OrdSet Nat
  pidPuback : OrdSet Nat
  pidPubrec : OrdSet Nat
  pidPubcomp : OrdSet Nat
  needStore : Bool
  store : Store pb
  offlinePublish : Bool
  autoPubResponse : Bool
  autoPingResponse : Bool
  autoMapTopicAliasSend : Bool
  autoReplaceTopicAliasSend : Bool
  topicAliasSend : Option TopicAliasSend
  topicAliasRecv : Option TopicAliasRecv
  publishSendMax : Option Nat
  publishRecvMax : Option Nat
  publishSendCount : Nat
  publishRecv : OrdSet Nat
  maximumPacketSizeSend : Nat
  maximumPacketSizeRecv : Nat
  status : ConnectionStatus
  pingreqSendIntervalMs : Option Nat
  pingreqRecvTimeoutMs : Option Nat
  pingrespRecvTimeoutMs : Option Nat
  qos2PublishHandled : OrdSet Nat
  qos2PublishProcessing : OrdSet Nat
  pingreqSendSet : Bool
  pingreqRecvSet : Bool
  pingrespRecvSet : Bool
  rpb : RecvPacketBuilder
  isClient : Bool
  /-- what `steady_clock::now()` returns -/
  now : Nat
  deriving DecidableEq

/-- What a member function does: the state after it and the calls it makes. -/
structure Step (role : Role) (pb : PacketIdBytes) where
  conn : Connection role pb
  events : List (Event pb)
  deriving DecidableEq

namespace Step

variable {role : Role} {pb : PacketIdBytes}

/-- A member function after another. -/
def andThen (s : Step role pb) (f : Connection role pb → Step role pb) : Step role pb :=
  ⟨(f s.conn).conn, s.events ++ (f s.conn).events⟩

/-- A call to the owner after a member function. -/
def emit (s : Step role pb) (e : Event pb) : Step role pb := ⟨s.conn, s.events ++ [e]⟩

@[simp] theorem conn_andThen (s : Step role pb) (f : Connection role pb → Step role pb) :
    (s.andThen f).conn = (f s.conn).conn := rfl

@[simp] theorem events_andThen (s : Step role pb) (f : Connection role pb → Step role pb) :
    (s.andThen f).events = s.events ++ (f s.conn).events := rfl

@[simp] theorem conn_emit (s : Step role pb) (e : Event pb) : (s.emit e).conn = s.conn := rfl

@[simp] theorem events_emit (s : Step role pb) (e : Event pb) :
    (s.emit e).events = s.events ++ [e] := rfl

end Step

namespace Connection

variable {role : Role} {pb : PacketIdBytes}

/-- `basic_connection_impl(ver, con)` -/
def make (role : Role) (pb : PacketIdBytes) (ver : ProtocolVersion) : Connection role pb where
  protocolVersion := ver
  pidMan := .make pb
  pidSuback := ∅
  pidUnsuback := ∅
  pidPuback := ∅
  pidPubrec := ∅
  pidPubcomp := ∅
  needStore := false
  store := .empty
  offlinePublish := false
  autoPubResponse := false
  autoPingResponse := false
  autoMapTopicAliasSend := false
  autoReplaceTopicAliasSend := false
  topicAliasSend := none
  topicAliasRecv := none
  publishSendMax := none
  publishRecvMax := none
  publishSendCount := 0
  publishRecv := ∅
  maximumPacketSizeSend := packetSizeNoLimit
  maximumPacketSizeRecv := packetSizeNoLimit
  status := .disconnected
  pingreqSendIntervalMs := none
  pingreqRecvTimeoutMs := none
  pingrespRecvTimeoutMs := none
  qos2PublishHandled := ∅
  qos2PublishProcessing := ∅
  pingreqSendSet := false
  pingreqRecvSet := false
  pingrespRecvSet := false
  rpb := .initialized
  isClient := true
  now := 0

/-- `can_send_as_client` -/
def canSendAsClient (role : Role) : Bool := role = .client || role = .any

/-- `can_send_as_server` -/
def canSendAsServer (role : Role) : Bool := role = .server || role = .any

/-! ### Timers -/

/-- One `if` of `cancel_timers`. -/
def cancelTimer (kind : TimerKind) (isSet : Connection role pb → Bool)
    (reset : Connection role pb → Connection role pb) (c : Connection role pb) : Step role pb :=
  if isSet c then ⟨reset c, [.timerOp .cancel kind none]⟩ else ⟨c, []⟩

/-- `cancel_timers` -/
def cancelTimers (c : Connection role pb) : Step role pb :=
  (cancelTimer .pingreqSend pingreqSendSet (fun c => { c with pingreqSendSet := false }) c)
    |>.andThen (cancelTimer .pingreqRecv pingreqRecvSet fun c => { c with pingreqRecvSet := false })
    |>.andThen (cancelTimer .pingrespRecv pingrespRecvSet fun c =>
      { c with pingrespRecvSet := false })

/-- `set_pingreq_send_interval` -/
def setPingreqSendInterval (duration : Nat) (c : Connection role pb) : Step role pb :=
  if duration = 0 then
    ⟨{ c with pingreqSendIntervalMs := none, pingreqSendSet := false },
      [.timerOp .cancel .pingreqSend none]⟩
  else
    ⟨{ c with pingreqSendIntervalMs := some duration, pingreqSendSet := true },
      [.timerOp .reset .pingreqSend (some duration)]⟩

/-- `set_pingresp_recv_timeout` -/
def setPingrespRecvTimeout (duration : Nat) (c : Connection role pb) : Connection role pb :=
  { c with pingrespRecvTimeoutMs := if duration = 0 then none else some duration }

/-- `pingreq_recv_op` of `process_recv_packet` -/
def pingreqRecvOp (c : Connection role pb) : Step role pb :=
  match c.pingreqRecvTimeoutMs with
  | none => ⟨c, []⟩
  | some ms =>
    if c.status = .connecting ∨ c.status = .connected then
      ⟨{ c with pingreqRecvSet := true }, [.timerOp .reset .pingreqRecv (some ms)]⟩
    else ⟨{ c with pingreqRecvSet := false }, [.timerOp .cancel .pingreqRecv none]⟩

/-! ### Packet identifiers -/

/-- `acquire_unique_packet_id` -/
def acquireUniquePacketId (c : Connection role pb) : Option Nat × Connection role pb :=
  let (packetId, pidMan) := c.pidMan.acquireUniqueId
  (packetId, { c with pidMan := pidMan })

/-- `register_packet_id` -/
def registerPacketId (c : Connection role pb) (packetId : Nat) : Bool × Connection role pb :=
  let (ok, pidMan) := c.pidMan.registerId packetId
  (ok, { c with pidMan := pidMan })

/-- `pid_man_.release_id(packet_id); con_.on_packet_id_release(packet_id);` -/
def releaseId (packetId : Nat) (c : Connection role pb) : Step role pb :=
  ⟨{ c with pidMan := c.pidMan.releaseId packetId }, [.packetIdRelease packetId]⟩

/-- `release_packet_id` -/
def releasePacketId (packetId : Nat) (c : Connection role pb) : Step role pb :=
  if c.pidMan.isUsedId packetId then c.releaseId packetId else ⟨c, []⟩

/-- `for (auto packet_id : ids) { release_packet_id(packet_id); }` -/
def releasePacketIds : List Nat → Connection role pb → Step role pb
  | [], c => ⟨c, []⟩
  | packetId :: ids, c => (c.releasePacketId packetId).andThen (releasePacketIds ids)

/-! ### Session state -/

/-- `initialize` -/
def initialized (isClient : Bool) (c : Connection role pb) : Connection role pb :=
  { c with
    publishSendMax := none
    publishRecvMax := none
    publishSendCount := 0
    topicAliasSend := none
    topicAliasRecv := none
    publishRecv := ∅
    qos2PublishProcessing := ∅
    needStore := false
    pidSuback := ∅
    pidUnsuback := ∅
    isClient := isClient }

/-- `pid_puback_.clear(); pid_pubrec_.clear(); pid_pubcomp_.clear();` -/
def clearPublishIds (c : Connection role pb) : Connection role pb :=
  { c with pidPuback := ∅, pidPubrec := ∅, pidPubcomp := ∅ }

/-- The session is new: identifiers, store and the sets of PUBLISH identifiers are cleared. -/
def clearSession (c : Connection role pb) : Connection role pb :=
  { c with pidMan := c.pidMan.clear, store := .empty }.clearPublishIds

/-- `restore_qos2_publish_handled_pids` -/
def restoreQos2PublishHandledPids (pids : OrdSet Nat) (c : Connection role pb) :
    Connection role pb :=
  { c with qos2PublishHandled := pids }

/-- `add_store` of `restore_packets` -/
def restoreStore (p : StorePacket pb) (c : Connection role pb) : Connection role pb :=
  let (ok, pidMan) := c.pidMan.registerId p.packetId
  if ok then { c with pidMan := pidMan, store := c.store.add p } else { c with pidMan := pidMan }

/-- `add_publish` of `restore_packets`, for the QoS and the packet identifier -/
def restorePublish (qos : UInt8) (packetId : Nat) (c : Connection role pb) : Connection role pb :=
  if qos = Qos.atLeastOnce then { c with pidPuback := c.pidPuback.insert packetId }
  else if qos = Qos.exactlyOnce then { c with pidPubrec := c.pidPubrec.insert packetId }
  else c

/-- The body of the loop of `restore_packets`. -/
def restorePacket (pv : StorePacketVariant pb) (c : Connection role pb) : Connection role pb :=
  match pv.packet with
  | .v311Publish p =>
    (c.restorePublish (Pub.getQos p.opts) p.packetId).restoreStore pv.packet
  | .v5Publish p =>
    (c.restorePublish (Pub.getQos p.opts) p.packetId).restoreStore pv.packet
  | .v311Pubrel p =>
    { c with pidPubcomp := c.pidPubcomp.insert p.packetId }.restoreStore pv.packet
  | .v5Pubrel p =>
    { c with pidPubcomp := c.pidPubcomp.insert p.packetId }.restoreStore pv.packet

/-- `restore_packets` -/
def restorePackets : List (StorePacketVariant pb) → Connection role pb → Connection role pb
  | [], c => c
  | pv :: pvs, c => restorePackets pvs (c.restorePacket pv)

/-- `notify_closed` -/
def notifyClosed (c : Connection role pb) : Step role pb :=
  let c : Connection role pb := { c with
    maximumPacketSizeSend := packetSizeNoLimit
    maximumPacketSizeRecv := packetSizeNoLimit
    status := .disconnected
    topicAliasSend := none
    topicAliasRecv := none }
  let s := (releasePacketIds c.pidSuback.elems c).andThen fun c => ⟨{ c with pidSuback := ∅ }, []⟩
  let s := s.andThen fun c =>
    (releasePacketIds c.pidUnsuback.elems c).andThen fun c => ⟨{ c with pidUnsuback := ∅ }, []⟩
  let s := if s.conn.needStore then s else
    (s.andThen fun c => ⟨{ c with qos2PublishProcessing := ∅, qos2PublishHandled := ∅ }, []⟩)
      |>.andThen (fun c =>
        (releasePacketIds c.pidPuback.elems c).andThen fun c => ⟨{ c with pidPuback := ∅ }, []⟩)
      |>.andThen (fun c =>
        (releasePacketIds c.pidPubrec.elems c).andThen fun c => ⟨{ c with pidPubrec := ∅ }, []⟩)
      |>.andThen (fun c =>
        (releasePacketIds c.pidPubcomp.elems c).andThen fun c => ⟨{ c with pidPubcomp := ∅ }, []⟩)
  s.andThen cancelTimers

/-- `get_receive_maximum_vacancy_for_send`; the difference is computed as an `int`
    and converted to `std::size_t` -/
def getReceiveMaximumVacancyForSend (c : Connection role pb) : Option Nat :=
  c.publishSendMax.map fun m =>
    if c.publishSendCount ≤ m then m - c.publishSendCount else 2 ^ 64 + m - c.publishSendCount

/-- `is_publish_processing` -/
def isPublishProcessing (c : Connection role pb) (packetId : Nat) : Bool :=
  packetId ∈ c.qos2PublishProcessing

/-- `++publish_send_count_`, a `std::uint16_t` -/
def incPublishSendCount (c : Connection role pb) : Connection role pb :=
  { c with publishSendCount := (c.publishSendCount + 1) % 2 ^ 16 }

/-- `if (publish_send_max_) { --publish_send_count_; }` -/
def decPublishSendCount (c : Connection role pb) : Connection role pb :=
  if c.publishSendMax.isSome then
    { c with publishSendCount := (c.publishSendCount + (2 ^ 16 - 1)) % 2 ^ 16 }
  else c

/-! ### Topic aliases -/

/-- `get_topic_alias` -/
def getTopicAlias (props : Properties) : Option Nat :=
  (props.find .topicAlias).map Property.val

/-- `validate_topic_alias_range` -/
def validateTopicAliasRange (c : Connection role pb) (ta : Nat) : Bool :=
  match c.topicAliasSend with
  | none => false
  | some tas => ¬ (ta = 0 ∨ tas.max < ta)

/-- `validate_topic_alias`: the topic of the alias, which is marked as used -/
def validateTopicAlias (c : Connection role pb) (taOpt : Option Nat) :
    Option Buffer × Connection role pb :=
  match taOpt, c.topicAliasSend with
  | some ta, some tas =>
    if c.validateTopicAliasRange ta then
      let (topic, tas) := tas.findTopic ta c.now
      (if topic = [] then none else some topic, { c with topicAliasSend := some tas })
    else (none, c)
  | _, _ => (none, c)

/-- `topic_alias_send_.emplace(val)` for a non-zero Topic Alias Maximum -/
def emplaceTopicAliasSend (val : Nat) (c : Connection role pb) : Connection role pb :=
  if h : 1 ≤ val then { c with topicAliasSend := some (.make val h) } else c

/-- `topic_alias_recv_.emplace(val)` for a non-zero Topic Alias Maximum -/
def emplaceTopicAliasRecv (val : Nat) (c : Connection role pb) : Connection role pb :=
  if 1 ≤ val then { c with topicAliasRecv := some (.make val) } else c

/-- `validate_maximum_packet_size` -/
def validateMaximumPacketSize (c : Connection role pb) (size : Nat) : Bool :=
  size ≤ c.maximumPacketSizeSend

/-- How `regulate_for_store` ends, and the packet that the caller passed by reference -/
inductive RegulateResult (pb : PacketIdBytes) where
  | success (p : V5.PublishPacket pb)
  | failure (ec : ErrorCode) (p : V5.PublishPacket pb)
  | threw (e : Exception)
  /-- `topic_alias_send_->find_without_touch` without a table, which is undefined -/
  | noTable
  deriving DecidableEq

/-- `return error_code{}` after a member of the packet that may throw -/
def RegulateResult.ofExcept : Except Exception (V5.PublishPacket pb) → RegulateResult pb
  | .ok p => success p
  | .error e => threw e

/-- `regulate_for_store` -/
def regulateForStore (c : Connection role pb) (p : V5.PublishPacket pb) : RegulateResult pb :=
  if p.topic = [] then
    match getTopicAlias p.props with
    | some ta =>
      -- unlike `validate_topic_alias`, the source does not check that there is a table
      match c.topicAliasSend with
      | none => .noTable
      | some tas =>
        let topic := tas.findWithoutTouch ta
        if topic = [] then .failure MqttError.packetNotRegulated p
        else .ofExcept (V5.PublishMutators.removeTopicAliasAddTopic topic p)
    | none => .failure MqttError.packetNotRegulated p
  else .ofExcept (V5.PublishMutators.removeTopicAlias p)

end Connection

end AsyncMqtt
