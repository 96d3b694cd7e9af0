import AsyncMqtt.ForStd.Run
import AsyncMqtt.Native.ConnectionRecv

/-!
# The state after a member function

The parts of the connection that the helpers of `send` and `recv` change, as
equations for the state after them. Where a helper stores a value that no result
depends on, the equation only says that some value is stored.

## Key results

- `Connection.notifyClosed_conn`, `Connection.sendStored_conn`: the state after them
- `Connection.send_quiet`, `Connection.disconnectV5_quiet`: what the connection sends by
  itself changes nothing of the session
-/

namespace AsyncMqtt

namespace Connection

variable {role : Role} {pb : PacketIdBytes}

/-! ### Timers -/

/-- The flag of the PINGREQ receive timer after `pingreq_recv_op`. -/
def nextPingreqRecvSet (c : Connection role pb) : Bool :=
  match c.pingreqRecvTimeoutMs with
  | none => c.pingreqRecvSet
  | some _ => c.status = .connecting ∨ c.status = .connected

/-- The flag of the PINGREQ send timer after `send_and_post_process`. -/
def nextPingreqSendSet (c : Connection role pb) : Bool :=
  if canSendAsClient role ∧ c.isClient ∧ c.status ≠ .disconnected then
    c.pingreqSendIntervalMs.isSome || c.pingreqSendSet
  else c.pingreqSendSet

/-- No timer is armed. -/
@[simp] theorem cancelTimers_conn (c : Connection role pb) :
    c.cancelTimers.conn =
      { c with pingreqSendSet := false, pingreqRecvSet := false, pingrespRecvSet := false } := by
  cases c with
  | mk =>
    simp only [cancelTimers, Step.conn_andThen, cancelTimer]
    split <;> split <;> split <;> simp_all

/-- Only the timer for the PINGREQ of the client is touched. -/
@[simp] theorem pingreqRecvOp_conn (c : Connection role pb) :
    c.pingreqRecvOp.conn = { c with pingreqRecvSet := c.nextPingreqRecvSet } := by
  unfold pingreqRecvOp
  split
  · next h =>
    have hset : c.nextPingreqRecvSet = c.pingreqRecvSet := by simp only [nextPingreqRecvSet, h]
    rw [hset]
  · next ms h =>
    have hset : c.nextPingreqRecvSet = decide (c.status = .connecting ∨ c.status = .connected) := by
      simp only [nextPingreqRecvSet, h]
    rw [hset]
    split <;> simp_all

/-- Only the timer for the PINGREQ is touched. -/
@[simp] theorem resetPingreqSend_conn (c : Connection role pb) :
    c.resetPingreqSend.conn = { c with pingreqSendSet := c.nextPingreqSendSet } := by
  unfold resetPingreqSend
  -- the flag is set with the interval, and left alone without one
  split
  · next hc =>
    split
    · next h =>
      have hset : c.nextPingreqSendSet = c.pingreqSendSet := by
        simp only [nextPingreqSendSet, if_pos hc, h, Option.isSome_none, Bool.false_or]
      rw [hset]
    · next h =>
      have hset : c.nextPingreqSendSet = true := by
        simp only [nextPingreqSendSet, if_pos hc, h, Option.isSome_some, Bool.true_or]
      rw [hset]
  · next hc =>
    have hset : c.nextPingreqSendSet = c.pingreqSendSet := by
      simp only [nextPingreqSendSet, if_neg hc]
    rw [hset]

/-- Handing a packet over touches only the timer for the PINGREQ of the client. -/
@[simp] theorem receive_conn (pv : PacketVariant pb) (c : Connection role pb) :
    (c.receive pv).conn = { c with pingreqRecvSet := c.nextPingreqRecvSet } :=
  c.pingreqRecvOp_conn

/-! ### Packet identifiers -/

/-- `release_packet_id` on the packet identifier manager alone. -/
def releaseUsed (m : PacketIdManager pb) (packetId : Nat) : PacketIdManager pb :=
  if m.isUsedId packetId then m.releaseId packetId else m

/-- Only the packet identifier is given back. -/
theorem releasePacketId_conn (packetId : Nat) (c : Connection role pb) :
    (c.releasePacketId packetId).conn = { c with pidMan := releaseUsed c.pidMan packetId } := by
  simp only [releasePacketId, releaseUsed]
  split <;> rfl

/-- The packet identifiers are given back one after another. -/
theorem releasePacketIds_conn (ids : List Nat) (c : Connection role pb) :
    (releasePacketIds ids c).conn = { c with pidMan := ids.foldl releaseUsed c.pidMan } := by
  induction ids generalizing c with
  | nil => rfl
  | cons packetId ids ih =>
    rw [releasePacketIds, Step.conn_andThen, ih, releasePacketId_conn]
    rfl

/-- The identifiers of a set are given back and the set is cleared. -/
theorem notifyClosed_conn (c : Connection role pb) :
    c.notifyClosed.conn =
      { c with
        maximumPacketSizeSend := packetSizeNoLimit
        maximumPacketSizeRecv := packetSizeNoLimit
        status := .disconnected
        topicAliasSend := none
        topicAliasRecv := none
        pidSuback := ∅
        pidUnsuback := ∅
        pidMan := (c.pidSuback.elems ++ c.pidUnsuback.elems ++
          if c.needStore then [] else c.pidPuback.elems ++ c.pidPubrec.elems ++ c.pidPubcomp.elems
          ).foldl releaseUsed c.pidMan
        qos2PublishProcessing := if c.needStore then c.qos2PublishProcessing else ∅
        qos2PublishHandled := if c.needStore then c.qos2PublishHandled else ∅
        pidPuback := if c.needStore then c.pidPuback else ∅
        pidPubrec := if c.needStore then c.pidPubrec else ∅
        pidPubcomp := if c.needStore then c.pidPubcomp else ∅
        pingreqSendSet := false
        pingreqRecvSet := false
        pingrespRecvSet := false } := by
  simp only [notifyClosed, Step.conn_andThen, cancelTimers_conn, releasePacketIds_conn]
  -- the identifiers of the exchanges are given back only if the session is not kept
  by_cases h : c.needStore = true
  · simp only [h, if_true, Step.conn_andThen, releasePacketIds_conn, List.append_nil,
      List.foldl_append]
  · simp only [Bool.not_eq_true] at h
    simp only [h, Bool.false_eq_true, if_false, Step.conn_andThen, releasePacketIds_conn,
      List.foldl_append]

/-! ### Stored packets -/

/-- The stored packets that are too large give their identifiers back. -/
def releaseTooLarge (limit : Nat) (m : PacketIdManager pb) (pv : StorePacketVariant pb) :
    PacketIdManager pb :=
  if limit < pv.size then m.releaseId pv.packetId else m

/-- Of the stored packets only those that are too large change the connection. -/
theorem sendStoredElems_conn (pvs : List (StorePacketVariant pb)) (c : Connection role pb) :
    (sendStoredElems pvs c).conn =
      { c with pidMan := pvs.foldl (releaseTooLarge c.maximumPacketSizeSend) c.pidMan } := by
  induction pvs generalizing c with
  | nil => rfl
  | cons pv pvs ih =>
    rw [sendStoredElems, Step.conn_andThen, ih, List.foldl_cons, releaseTooLarge]
    split <;> rfl

/-- Sending the store again changes only the packet identifiers. -/
theorem sendStored_conn (c : Connection role pb) :
    c.sendStored.conn =
      { c with
        pidMan := c.store.elems.foldl (releaseTooLarge c.maximumPacketSizeSend) c.pidMan
        store := c.store.filter fun pv => pv.size ≤ c.maximumPacketSizeSend } := by
  rw [sendStored, Step.conn_andThen, sendStoredElems_conn]

/-! ### Restoring packets -/

/-- Restoring a packet touches the store and the packet identifiers. -/
theorem restoreStore_eq (p : StorePacket pb) (c : Connection role pb) :
    ∃ m st, c.restoreStore p = { c with pidMan := m, store := st } := by
  unfold restoreStore
  dsimp only
  split <;> exact ⟨_, _, rfl⟩

/-- Restoring a PUBLISH touches the identifiers that wait for its response. -/
theorem restorePublish_eq (qos : UInt8) (packetId : Nat) (c : Connection role pb) :
    ∃ a b, c.restorePublish qos packetId = { c with pidPuback := a, pidPubrec := b } := by
  unfold restorePublish
  split
  · exact ⟨_, _, rfl⟩
  · split <;> exact ⟨_, _, rfl⟩

/-- `restore_packets` changes the identifiers, the store and the sets for PUBLISH. -/
theorem restorePackets_eq (pvs : List (StorePacketVariant pb)) (c : Connection role pb) :
    ∃ m st a b d, c.restorePackets pvs =
      { c with pidMan := m, store := st, pidPuback := a, pidPubrec := b, pidPubcomp := d } := by
  induction pvs generalizing c with
  | nil => exact ⟨_, _, _, _, _, rfl⟩
  | cons pv pvs ih =>
    -- a PUBLISH and a PUBREL each touch the store and one set of identifiers
    have hpublish : ∀ qos packetId, ∃ m st a b d,
        (c.restorePublish qos packetId).restoreStore pv.packet = { c with
          pidMan := m, store := st, pidPuback := a, pidPubrec := b, pidPubcomp := d } := by
      intro qos packetId
      obtain ⟨a, b, hpub⟩ := c.restorePublish_eq qos packetId
      obtain ⟨m, st, hst⟩ := restoreStore_eq pv.packet (c.restorePublish qos packetId)
      rw [hst, hpub]
      exact ⟨_, _, _, _, _, rfl⟩
    have hpubrel : ∀ ids, ∃ m st a b d,
        ({ c with pidPubcomp := ids } : Connection role pb).restoreStore pv.packet = { c with
          pidMan := m, store := st, pidPuback := a, pidPubrec := b, pidPubcomp := d } := by
      intro ids
      obtain ⟨m, st, hst⟩ :=
        restoreStore_eq pv.packet ({ c with pidPubcomp := ids } : Connection role pb)
      exact ⟨m, st, _, _, _, hst⟩
    have hone : ∃ m st a b d, c.restorePacket pv =
        { c with pidMan := m, store := st, pidPuback := a, pidPubrec := b, pidPubcomp := d } := by
      unfold restorePacket
      split
      · exact hpublish _ _
      · exact hpublish _ _
      · exact hpubrel _
      · exact hpubrel _
    obtain ⟨_, _, _, _, _, hone⟩ := hone
    obtain ⟨_, _, _, _, _, ih⟩ := ih (c.restorePacket pv)
    rw [restorePackets, ih, hone]
    exact ⟨_, _, _, _, _, rfl⟩

/-! ### Properties of CONNECT and CONNACK -/

/-- The properties of a CONNECT that is sent set limits for what is received. -/
theorem foldl_sendConnectProp (props : Properties) (c : Connection role pb) :
    ∃ tar prm mps ns, props.foldl sendConnectProp c =
      { c with
        topicAliasRecv := tar, publishRecvMax := prm, maximumPacketSizeRecv := mps
        needStore := ns } := by
  -- every property writes into one of the four fields at most
  induction props generalizing c with
  | nil => exact ⟨_, _, _, _, rfl⟩
  | cons prop props ih =>
    have hone : ∃ tar prm mps ns, sendConnectProp c prop =
        { c with
          topicAliasRecv := tar, publishRecvMax := prm, maximumPacketSizeRecv := mps
          needStore := ns } := by
      unfold sendConnectProp emplaceTopicAliasRecv
      split <;> (try split) <;> exact ⟨_, _, _, _, rfl⟩
    obtain ⟨_, _, _, _, hone⟩ := hone
    obtain ⟨_, _, _, _, ih⟩ := ih (sendConnectProp c prop)
    rw [List.foldl_cons, ih, hone]
    exact ⟨_, _, _, _, rfl⟩

/-- The properties of a CONNACK that is sent set limits for what is received. -/
theorem foldl_sendConnackProp (props : Properties) (c : Connection role pb) :
    ∃ tar prm mps, props.foldl sendConnackProp c =
      { c with topicAliasRecv := tar, publishRecvMax := prm, maximumPacketSizeRecv := mps } := by
  induction props generalizing c with
  | nil => exact ⟨_, _, _, rfl⟩
  | cons prop props ih =>
    have hone : ∃ tar prm mps, sendConnackProp c prop =
        { c with topicAliasRecv := tar, publishRecvMax := prm, maximumPacketSizeRecv := mps } := by
      unfold sendConnackProp emplaceTopicAliasRecv
      split <;> (try split) <;> exact ⟨_, _, _, rfl⟩
    obtain ⟨_, _, _, hone⟩ := hone
    obtain ⟨_, _, _, ih⟩ := ih (sendConnackProp c prop)
    rw [List.foldl_cons, ih, hone]
    exact ⟨_, _, _, rfl⟩

/-- The table of topic aliases is kept, or it is a new one. -/
def KeptOrNew (tas tas' : Option TopicAliasSend) : Prop :=
  tas' = tas ∨ ∃ max h, tas' = some (.make max h)

/-- A table that was kept or made anew twice was kept or made anew. -/
theorem KeptOrNew.trans {t t' t'' : Option TopicAliasSend} (h : KeptOrNew t t')
    (h' : KeptOrNew t' t'') : KeptOrNew t t'' := by
  rcases h' with rfl | hnew
  · exact h
  · exact .inr hnew

/-- The table of aliases is replaced by an empty one, if there is a maximum. -/
theorem emplaceTopicAliasSend_eq (val : Nat) (c : Connection role pb) :
    ∃ tas, c.emplaceTopicAliasSend val = { c with topicAliasSend := tas } ∧
      KeptOrNew c.topicAliasSend tas := by
  unfold emplaceTopicAliasSend
  split
  · next h => exact ⟨_, rfl, .inr ⟨_, h, rfl⟩⟩
  · exact ⟨_, rfl, .inl rfl⟩

/-- What the last property with this identifier says, or what was there before. -/
def lastVal {α : Type} (id : PropertyId) (f : Nat → α) (init : α) (props : Properties) : α :=
  props.foldl (fun a prop => if prop.id = id then f prop.val else a) init

/-- A field that the properties with one identifier set, and no other property. -/
theorem foldl_lastVal {α β : Type} {id : PropertyId} {f : Nat → α} {field : β → α}
    {set : β → Property → β}
    (hset : ∀ c prop, field (set c prop) = if prop.id = id then f prop.val else field c)
    (props : Properties) (c : β) :
    field (props.foldl set c) = lastVal id f (field c) props := by
  induction props generalizing c with
  | nil => rfl
  | cons prop props ih =>
    rw [List.foldl_cons, ih, hset]
    rfl

/-- The properties of a CONNECT that is received set limits for what is sent. -/
theorem foldl_recvConnectProp (props : Properties) (c : Connection role pb) :
    ∃ tas mps ns, props.foldl recvConnectProp c =
      { c with
        topicAliasSend := tas
        publishSendMax := lastVal .receiveMaximum some c.publishSendMax props
        maximumPacketSizeSend := mps, needStore := ns } ∧ KeptOrNew c.topicAliasSend tas := by
  induction props generalizing c with
  | nil => exact ⟨_, _, _, rfl, .inl rfl⟩
  | cons prop props ih =>
    -- one property sets one limit, and the alias maximum makes a table
    have hone : ∃ tas mps ns, recvConnectProp c prop =
        { c with
          topicAliasSend := tas
          publishSendMax :=
            if prop.id = .receiveMaximum then some prop.val else c.publishSendMax
          maximumPacketSizeSend := mps, needStore := ns } ∧ KeptOrNew c.topicAliasSend tas := by
      unfold recvConnectProp
      cases hid : prop.id with
      | topicAliasMaximum =>
        obtain ⟨tas, heq, hnew⟩ := c.emplaceTopicAliasSend_eq prop.val
        exact ⟨tas, _, _, heq, hnew⟩
      | sessionExpiryInterval =>
        dsimp only
        split <;> exact ⟨_, _, _, rfl, .inl rfl⟩
      | _ => exact ⟨_, _, _, rfl, .inl rfl⟩
    obtain ⟨_, _, _, hone, hnew⟩ := hone
    obtain ⟨_, _, _, ih, hnew'⟩ := ih (recvConnectProp c prop)
    rw [hone] at hnew'
    rw [List.foldl_cons, ih, hone]
    exact ⟨_, _, _, rfl, hnew.trans hnew'⟩

/-- The properties of a CONNACK that is received set limits for what is sent, and the interval of
    the PINGREQ. -/
theorem recvConnackProps_conn (props : Properties) (c : Connection role pb) :
    ∃ tas int set, (recvConnackProps props c).conn =
      { c with
        topicAliasSend := tas
        publishSendMax := lastVal .receiveMaximum some c.publishSendMax props
        maximumPacketSizeSend := lastVal .maximumPacketSize (fun n => n) c.maximumPacketSizeSend props
        pingreqSendIntervalMs := int, pingreqSendSet := set } ∧
      KeptOrNew c.topicAliasSend tas := by
  induction props generalizing c with
  | nil => exact ⟨_, _, _, rfl, .inl rfl⟩
  | cons prop props ih =>
    -- one property sets one limit, and Server Keep Alive may arm the timer
    have hone : ∃ tas int set, (recvConnackProp prop c).conn =
        { c with
          topicAliasSend := tas
          publishSendMax :=
            if prop.id = .receiveMaximum then some prop.val else c.publishSendMax
          maximumPacketSizeSend :=
            if prop.id = .maximumPacketSize then prop.val else c.maximumPacketSizeSend
          pingreqSendIntervalMs := int, pingreqSendSet := set } ∧
        KeptOrNew c.topicAliasSend tas := by
      unfold recvConnackProp setPingreqSendInterval
      cases hid : prop.id with
      | topicAliasMaximum =>
        obtain ⟨tas, heq, hnew⟩ := c.emplaceTopicAliasSend_eq prop.val
        exact ⟨tas, _, _, heq, hnew⟩
      | serverKeepAlive =>
        dsimp only
        split
        · split <;> exact ⟨_, _, _, rfl, .inl rfl⟩
        · exact ⟨_, _, _, rfl, .inl rfl⟩
      | _ => exact ⟨_, _, _, rfl, .inl rfl⟩
    obtain ⟨_, _, _, hone, hnew⟩ := hone
    obtain ⟨_, _, _, ih, hnew'⟩ := ih (recvConnackProp prop c).conn
    rw [hone] at hnew'
    rw [recvConnackProps, Step.conn_andThen, ih, hone]
    exact ⟨_, _, _, rfl, hnew.trans hnew'⟩

end Connection

namespace PacketVariant

variable {pb : PacketIdBytes}

/-- A CONNACK that accepts the connection. -/
def acceptsConnection (pv : PacketVariant pb) : Bool := pv.type = .connack && pv.view.code = 0

/-- The receive maximum after a CONNACK. -/
def receiveMaximum (m : Option Nat) (pv : PacketVariant pb) : Option Nat :=
  Connection.lastVal .receiveMaximum some m pv.view.props

/-- The maximum packet size after a CONNACK. -/
def maximumPacketSize (m : Nat) (pv : PacketVariant pb) : Nat :=
  Connection.lastVal .maximumPacketSize (fun n => n) m pv.view.props

end PacketVariant

/-! ### Events of the exchanges -/

/-- The events that begin or end an exchange of packets, or that deliver a message. -/
def Event.isExchange {pb : PacketIdBytes} : Event pb → Bool
  | .send pv _ => pv.type = .connect || pv.type = .publish || pv.type = .pubrel
  | .receive pv =>
    pv.type = .connect || pv.type = .publish || pv.type = .puback || pv.type = .pubrec ||
      pv.type = .pubcomp
  | _ => false

/-- The events of the exchanges among all events. -/
def exchanges {pb : PacketIdBytes} (es : List (Event pb)) : List (Event pb) :=
  es.filter Event.isExchange

/-- No events -/
@[simp] theorem exchanges_nil {pb : PacketIdBytes} : exchanges ([] : List (Event pb)) = [] := rfl

/-- The events of exchanges in a longer list -/
@[simp] theorem exchanges_append {pb : PacketIdBytes} (es fs : List (Event pb)) :
    exchanges (es ++ fs) = exchanges es ++ exchanges fs := List.filter_append ..

/-- The first event counts if it belongs to an exchange. -/
@[simp] theorem exchanges_cons {pb : PacketIdBytes} (e : Event pb) (es : List (Event pb)) :
    exchanges (e :: es) = if e.isExchange then e :: exchanges es else exchanges es :=
  List.filter_cons

namespace Connection

variable {role : Role} {pb : PacketIdBytes}

/-- Cancelling timers belongs to no exchange. -/
@[simp] theorem exchanges_cancelTimers (c : Connection role pb) :
    exchanges c.cancelTimers.events = [] := by
  simp only [cancelTimers, cancelTimer, Step.events_andThen, Step.conn_andThen, exchanges_append]
  split <;> split <;> split <;> rfl

/-- Setting the timer for the PINGREQ of the client belongs to no exchange. -/
@[simp] theorem exchanges_pingreqRecvOp (c : Connection role pb) :
    exchanges c.pingreqRecvOp.events = [] := by
  unfold pingreqRecvOp
  split
  · rfl
  · split <;> rfl

/-- Setting the timer for the PINGREQ belongs to no exchange. -/
@[simp] theorem exchanges_resetPingreqSend (c : Connection role pb) :
    exchanges c.resetPingreqSend.events = [] := by
  unfold resetPingreqSend
  split
  · split <;> rfl
  · rfl

/-- The properties of a CONNACK belong to no exchange. -/
theorem exchanges_recvConnackProps (props : Properties) (c : Connection role pb) :
    exchanges (recvConnackProps props c).events = [] := by
  induction props generalizing c with
  | nil => rfl
  | cons prop props ih =>
    have hone : exchanges (recvConnackProp prop c).events = [] := by
      unfold recvConnackProp setPingreqSendInterval
      split <;> (try split) <;> (try split) <;> rfl
    rw [recvConnackProps, Step.events_andThen, exchanges_append, hone, ih]
    rfl

/-- Of handing a packet over only the packet itself may belong to an exchange. -/
theorem exchanges_receive (pv : PacketVariant pb) (c : Connection role pb) :
    exchanges (c.receive pv).events = exchanges [.receive pv] := by
  rw [receive, Step.events_emit, exchanges_append, exchanges_pingreqRecvOp, List.nil_append]

/-! ### Sending -/

/-- What fails may give an identifier back. -/
theorem failRelease_conn (c : Connection role pb) (ec : ErrorCode) (packetId : Nat) :
    ∃ m, (Sent.failRelease c ec packetId).step.conn = { c with pidMan := m } ∧
      (m = c.pidMan ∨ m = c.pidMan.releaseId packetId) := by
  unfold Sent.failRelease
  split
  · exact ⟨_, rfl, .inr rfl⟩
  · exact ⟨_, rfl, .inl rfl⟩

/-- A packet that may not be sent is an error, and nothing changes. -/
theorem send_of_not_allowed {c : Connection role pb} {pv : PacketVariant pb}
    (h : ¬ c.sendAllowed pv) :
    c.send pv = ⟨c, [.error MqttError.packetNotAllowedToSend]⟩ := by
  rw [send, processSendPacket, if_neg h]
  rfl

/-- A packet that is too large is an error, and its identifier is given back. -/
theorem send_of_too_large {c : Connection role pb} {pv : PacketVariant pb}
    (h : c.sendAllowed pv) (hsize : ¬ c.validateMaximumPacketSize pv.size) :
    c.send pv = (Sent.failRelease c MqttError.packetNotAllowedToSend
      (if pv.ownPacketId then pv.packetId else 0)).step := by
  have hok : ∀ (ec : ErrorCode) (packetId : Nat), (Sent.failRelease c ec packetId).ok = false := by
    intro ec packetId
    unfold Sent.failRelease
    split <;> rfl
  rw [send, processSendPacket, if_pos h, if_neg hsize, hok]
  rfl

/-- A packet that may be sent is processed, followed by the store after a CONNACK. -/
theorem send_of_allowed {c : Connection role pb} {pv : PacketVariant pb}
    (h : c.sendAllowed pv) (hsize : c.validateMaximumPacketSize pv.size) :
    c.send pv =
      if (c.processSendActual pv).ok then
        (if pv.type = .connack then (c.processSendActual pv).step.andThen sendStored
          else (c.processSendActual pv).step).andThen resetPingreqSend
      else (c.processSendActual pv).step := by
  simp only [send, processSendPacket, if_pos h, if_pos hsize]

/-- What only the timers, the received PUBLISH packets that are not answered and the
    end of the connection are about. -/
def Quiet (c c' : Connection role pb) : Prop :=
  ∃ status publishRecv pingreqSendSet pingreqRecvSet pingrespRecvSet,
    (status = c.status ∨ status = .disconnected) ∧
    c' = { c with
      status := status, publishRecv := publishRecv, pingreqSendSet := pingreqSendSet
      pingreqRecvSet := pingreqRecvSet, pingrespRecvSet := pingrespRecvSet }

/-- Nothing has happened. -/
theorem Quiet.refl (c : Connection role pb) : Quiet c c := ⟨_, _, _, _, _, .inl rfl, rfl⟩

/-- Two quiet steps -/
theorem Quiet.trans {c c' c'' : Connection role pb} (h : Quiet c c') (h' : Quiet c' c'') :
    Quiet c c'' := by
  obtain ⟨st, _, _, _, _, hst, rfl⟩ := h
  obtain ⟨st', _, _, _, _, hst', rfl⟩ := h'
  refine ⟨st', _, _, _, _, ?_, rfl⟩
  rcases hst' with rfl | rfl
  · exact hst
  · exact .inr rfl

/-- The identifiers that count against the Receive Maximum belong to no exchange. -/
theorem quiet_publishRecv (c : Connection role pb) (ids : OrdSet Nat) :
    Quiet c { c with publishRecv := ids } := ⟨_, _, _, _, _, .inl rfl, rfl⟩

/-- The timer for the PINGREQ of the client belongs to no exchange. -/
theorem quiet_pingreqRecvOp (c : Connection role pb) : Quiet c c.pingreqRecvOp.conn := by
  rw [pingreqRecvOp_conn]
  exact ⟨_, _, _, _, _, .inl rfl, rfl⟩

/-- The timer for the PINGREQ belongs to no exchange. -/
theorem quiet_resetPingreqSend (c : Connection role pb) : Quiet c c.resetPingreqSend.conn := by
  rw [resetPingreqSend_conn]
  exact ⟨_, _, _, _, _, .inl rfl, rfl⟩

end Connection

/-- A packet that answers, or that is about the connection alone. -/
def PacketVariant.isQuiet {pb : PacketIdBytes} : PacketVariant pb → Bool
  | .v5Pubrec p => ¬ reasonCodeFailed p.code
  | .v311Puback _ | .v311Pubrec _ | .v311Pubcomp _ | .v311Suback _ | .v311Unsuback _
  | .v311Pingreq _ | .v311Pingresp _ | .v311Disconnect _ | .v5Puback _ | .v5Pubcomp _
  | .v5Suback _ | .v5Unsuback _ | .v5Pingreq _ | .v5Pingresp _ | .v5Disconnect _ | .v5Auth _ =>
    true
  | _ => false

namespace Connection

variable {role : Role} {pb : PacketIdBytes}

/-- A step that changes nothing but timers and status, without events of an exchange. -/
def QuietStep (c : Connection role pb) (s : Step role pb) : Prop :=
  Quiet c s.conn ∧ exchanges s.events = []

/-- A quiet step, followed by another one -/
theorem QuietStep.andThen {c : Connection role pb} {s : Step role pb}
    {f : Connection role pb → Step role pb} (h : QuietStep c s) (hf : QuietStep s.conn (f s.conn)) :
    QuietStep c (s.andThen f) := by
  refine ⟨h.1.trans hf.1, ?_⟩
  rw [Step.events_andThen, exchanges_append, h.2, hf.2]
  rfl

/-- A quiet step, followed by an event of no exchange -/
theorem QuietStep.emit {c : Connection role pb} {s : Step role pb} {e : Event pb}
    (h : QuietStep c s) (he : e.isExchange = false) : QuietStep c (s.emit e) := by
  refine ⟨h.1, ?_⟩
  rw [Step.events_emit, exchanges_append, h.2, exchanges_cons, he]
  rfl

/-- Setting the timer for the PINGREQ is quiet. -/
theorem quietStep_resetPingreqSend (c : Connection role pb) : QuietStep c c.resetPingreqSend :=
  ⟨c.quiet_resetPingreqSend, c.exchanges_resetPingreqSend⟩

/-- Setting the timer for the PINGREQ of the client is quiet. -/
theorem quietStep_pingreqRecvOp (c : Connection role pb) : QuietStep c c.pingreqRecvOp :=
  ⟨c.quiet_pingreqRecvOp, c.exchanges_pingreqRecvOp⟩

/-- Sending a PINGREQ is quiet. -/
theorem sendPingreq_quiet (c : Connection role pb) {pv : PacketVariant pb}
    (h : pv.type = .pingreq) : QuietStep c (c.sendPingreq pv).step := by
  unfold sendPingreq
  split <;>
  · refine ⟨⟨_, _, _, _, _, .inl rfl, rfl⟩, ?_⟩
    simp [Sent.send, Event.isExchange, h]

/-- Sending a DISCONNECT is quiet. -/
theorem sendDisconnect_quiet (c : Connection role pb) {pv : PacketVariant pb}
    (h : pv.type = .disconnect) : QuietStep c (c.sendDisconnect pv).step := by
  refine ⟨?_, ?_⟩
  · simp only [sendDisconnect, Step.conn_emit, cancelTimers_conn]
    exact ⟨_, _, _, _, _, .inr rfl, rfl⟩
  · simp [sendDisconnect, Event.isExchange, h]

/-- Only the four classes with an identifier of their own, CONNECT, CONNACK and a PUBREC
    that refuses change the session. -/
theorem processSendActual_quiet {pv : PacketVariant pb} (h : pv.isQuiet) (c : Connection role pb) :
    QuietStep c (c.processSendActual pv).step := by
  have hsend : ∀ publishRecv, Event.isExchange (.send pv none) = false →
      QuietStep c (Sent.send { c with publishRecv := publishRecv } pv none).step := fun _ he =>
    ⟨⟨_, _, _, _, _, .inl rfl, rfl⟩, by simp [Sent.send, he]⟩
  -- a packet of the other types opens or moves an exchange
  cases pv with
  | v311Connect p | v311Connack p | v311Publish p | v311Pubrel p | v311Subscribe p
  | v311Unsubscribe p | v5Connect p | v5Connack p | v5Publish p | v5Pubrel p | v5Subscribe p
  | v5Unsubscribe p => exact nomatch h
  | v311Puback p | v311Pubrec p | v311Pubcomp p | v311Suback p | v311Unsuback p
  | v311Pingresp p | v5Suback p | v5Unsuback p | v5Pingresp p | v5Auth p =>
    exact hsend c.publishRecv rfl
  | v5Puback p | v5Pubcomp p => exact hsend _ rfl
  | v5Pubrec p =>
    -- a PUBREC without an error code gives nothing back
    have hcode : reasonCodeFailed p.code = false := by simpa [PacketVariant.isQuiet] using h
    simp only [processSendActual, sendPubrecV5, hcode, Bool.false_eq_true, if_false]
    exact hsend c.publishRecv rfl
  | v311Pingreq p | v5Pingreq p => exact c.sendPingreq_quiet rfl
  | v311Disconnect p | v5Disconnect p => exact c.sendDisconnect_quiet rfl

/-- Sending a packet of no exchange is quiet. -/
theorem send_quiet {pv : PacketVariant pb} (h : pv.isQuiet) (c : Connection role pb) :
    QuietStep c (c.send pv) := by
  have htype : pv.type ≠ .connack := by
    cases pv <;> simp_all [PacketVariant.isQuiet, PacketVariant.type]
  have hown : pv.ownPacketId = false := by
    cases pv <;> simp_all [PacketVariant.isQuiet, PacketVariant.ownPacketId, PacketVariant.type]
  have hactual := processSendActual_quiet h c
  by_cases hallowed : c.sendAllowed pv
  · by_cases hsize : c.validateMaximumPacketSize pv.size
    · rw [send_of_allowed hallowed hsize, if_neg htype]
      split
      · exact hactual.andThen (quietStep_resetPingreqSend _)
      · exact hactual
    · rw [send_of_too_large hallowed hsize, hown]
      exact ⟨.refl c, rfl⟩
  · rw [send_of_not_allowed hallowed]
    exact ⟨.refl c, rfl⟩

/-- An automatic answer of no exchange is quiet. -/
theorem respondIf_quiet {pv : PacketVariant pb} (h : pv.isQuiet) (cond : Bool)
    (c : Connection role pb) : QuietStep c (c.respondIf cond pv) := by
  unfold respondIf
  split
  · exact send_quiet h c
  · exact ⟨.refl c, rfl⟩

/-- Closing with a v5 DISCONNECT is quiet. -/
theorem disconnectV5_quiet (reasonCode : UInt8) (c : Connection role pb) :
    QuietStep c (c.disconnectV5 reasonCode) := (send_quiet rfl c).emit rfl

/-- The answer to a packet identifier of 0 is quiet. -/
theorem invalidPacketId_quiet (ver : ProtocolVersion) (c : Connection role pb) :
    QuietStep c (c.invalidPacketId ver) := by
  unfold invalidPacketId
  split
  · exact c.disconnectV5_quiet _
  · exact ⟨.refl c, rfl⟩

/-- A PUBREL, in both versions -/
theorem pubrelOf_type (ver : ProtocolVersion) (packetId : Nat) :
    (pubrelOf ver pb packetId).type = .pubrel := by
  unfold pubrelOf
  split <;> rfl

/-- A PUBCOMP, in both versions -/
theorem pubcompOf_type (ver : ProtocolVersion) (packetId : Nat) :
    (pubcompOf ver pb packetId).type = .pubcomp := by
  unfold pubcompOf
  split <;> rfl

/-- A PUBACK, in both versions -/
theorem pubackOf_type (ver : ProtocolVersion) (packetId : Nat) :
    (pubackOf ver pb packetId).type = .puback := by
  unfold pubackOf
  split <;> rfl

/-- A PUBREC, in both versions -/
theorem pubrecOf_type (ver : ProtocolVersion) (packetId : Nat) :
    (pubrecOf ver pb packetId).type = .pubrec := by
  unfold pubrecOf
  split <;> rfl

/-- A PUBREC opens no exchange of its sender. -/
theorem pubrecOf_quiet (ver : ProtocolVersion) (pb : PacketIdBytes) (packetId : Nat) :
    (pubrecOf ver pb packetId).isQuiet := by
  unfold pubrecOf
  split <;> rfl

/-- A PUBACK opens no exchange of its sender. -/
theorem pubackOf_quiet (ver : ProtocolVersion) (pb : PacketIdBytes) (packetId : Nat) :
    (pubackOf ver pb packetId).isQuiet := by
  unfold pubackOf
  split <;> rfl

/-- A PUBCOMP opens no exchange of its sender. -/
theorem pubcompOf_quiet (ver : ProtocolVersion) (pb : PacketIdBytes) (packetId : Nat) :
    (pubcompOf ver pb packetId).isQuiet := by
  unfold pubcompOf
  split <;> rfl

/-! ### Runs -/

/-- The state after a call. -/
def next (c : Connection role pb) (op : Op pb) : Connection role pb := (c.call op).conn

/-- The state after a sequence of calls. -/
def run (ops : List (Op pb)) (c : Connection role pb) : Connection role pb :=
  Run.final next c ops

/-- The states that a connection can be in. -/
def Reachable (c : Connection role pb) : Prop := ∃ ver ops, c = (make role pb ver).run ops

/-- What every call keeps holds of every state. -/
theorem Reachable.induction {P : Connection role pb → Prop} (hmake : ∀ ver, P (make role pb ver))
    (hcall : ∀ c op, P c → P (c.call op).conn) {c : Connection role pb} (h : c.Reachable) : P c := by
  obtain ⟨ver, ops, rfl⟩ := h
  have hall : Run.All next (fun _ _ => True) (make role pb ver) ops := fun _ _ _ => trivial
  exact Run.final_invariant (fun c op _ => hcall c op) (hmake ver) hall

end Connection

end AsyncMqtt
