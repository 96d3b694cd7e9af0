import AsyncMqtt.ForStd.OrderedDelivery
import AsyncMqtt.Spec.AutoResponse
import AsyncMqtt.Spec.Qos2Delivery
import AsyncMqtt.Spec.StoredAckable

/-!
# What goes over the line about a message

A PUBLISH with QoS 1 or 2 and a PUBREL are what a sender puts on the line and keeps in its
store; PUBACK, PUBREC and PUBCOMP are what a receiver answers. Here the packets of a
connection are read in this way, whatever their version, and whether or not they are sent
again.

## Key results

- `StorePacketVariant.outgoing?_eq`: what is stored is what was put on the line
- `Connection.kept_erase`, `Connection.kept_add`: what the operations of the store do to it
-/

namespace AsyncMqtt

open Delivery

/-- A message, as the application sees it: the DUP flag does not belong to it. -/
structure Message where
  qos : UInt8
  retain : Bool
  topic : Buffer
  payload : Buffer
  props : Properties
  deriving DecidableEq

/-- The message is to be delivered once. -/
def Message.once (m : Message) : Bool := m.qos = Qos.exactlyOnce

namespace PacketVariant

variable {pb : PacketIdBytes}

/-- The message of a PUBLISH -/
def message (pv : PacketVariant pb) : Message where
  qos := Pub.getQos pv.view.opts
  retain := Pub.getRetain pv.view.opts
  topic := pv.view.topic
  payload := pv.view.payload
  props := pv.view.props

/-- A PUBLISH with QoS 1 or 2, or a PUBREL -/
def outgoing? (pv : PacketVariant pb) : Option (Outgoing Nat Message) :=
  match pv.type with
  | .publish => if Connection.isQos12 pv.view.opts then some (.message pv.packetId pv.message) else none
  | .pubrel => some (.release pv.packetId)
  | _ => none

/-- A PUBACK, a PUBCOMP, or a PUBREC without an error -/
def reply? (pv : PacketVariant pb) : Option (Reply Nat) :=
  match pv.type with
  | .puback => some (.ack pv.packetId)
  | .pubrec => if reasonCodeFailed pv.view.code then none else some (.received pv.packetId)
  | .pubcomp => some (.complete pv.packetId)
  | _ => none

end PacketVariant

section

variable {pb : PacketIdBytes}

/-- What is put on the line among packets -/
def outgoings (pvs : List (PacketVariant pb)) : List (Outgoing Nat Message) :=
  pvs.filterMap PacketVariant.outgoing?

/-- The answers among packets -/
def replies (pvs : List (PacketVariant pb)) : List (Reply Nat) := pvs.filterMap PacketVariant.reply?

/-- The messages with QoS 1 or 2 that are given to the application -/
def deliveries (es : List (Event pb)) : List Message := messages (outgoings (receives es))

/-- No packets carry no messages. -/
@[simp] theorem outgoings_nil : outgoings ([] : List (PacketVariant pb)) = [] := rfl

/-- No packets carry no replies. -/
@[simp] theorem replies_nil : replies ([] : List (PacketVariant pb)) = [] := rfl

/-- The messages of a longer list of packets -/
@[simp] theorem outgoings_append (pvs pvs' : List (PacketVariant pb)) :
    outgoings (pvs ++ pvs') = outgoings pvs ++ outgoings pvs' := List.filterMap_append ..

/-- The replies of a longer list of packets -/
@[simp] theorem replies_append (pvs pvs' : List (PacketVariant pb)) :
    replies (pvs ++ pvs') = replies pvs ++ replies pvs' := List.filterMap_append ..

/-- The messages handed over by a longer list of events -/
@[simp] theorem deliveries_append (es es' : List (Event pb)) :
    deliveries (es ++ es') = deliveries es ++ deliveries es' := by
  rw [deliveries, receives_append, outgoings_append, messages_append]
  rfl

end

namespace StorePacketVariant

variable {pb : PacketIdBytes}

/-- A stored packet as what the sender keeps -/
def outgoing (e : StorePacketVariant pb) : Outgoing Nat Message :=
  let pv := e.packet.toPacketVariant
  if pv.type = .publish then .message pv.packetId pv.message else .release pv.packetId

/-- A stored packet is known by its identifier. -/
@[simp] theorem key_outgoing (e : StorePacketVariant pb) : e.outgoing.key = e.packetId := by
  unfold outgoing
  dsimp only
  split <;> exact e.packet.packetId_toPacketVariant

/-- What is stored is what was put on the line. -/
theorem outgoing?_eq (e : StorePacketVariant pb) :
    e.packet.toPacketVariant.outgoing? = some e.outgoing := by
  obtain ⟨packet, res, hres⟩ := e
  cases packet with
  | v311Pubrel p | v5Pubrel p => rfl
  | v311Publish p | v5Publish p =>
    have hqos : Connection.isQos12 p.opts := by
      simp only [StorePacket.response?] at hres
      split at hres
      · next h => exact Connection.isQos12_iff_toNat.mpr (.inl h)
      · next h => exact Connection.isQos12_iff_toNat.mpr (.inr h)
      · cases hres
    exact if_pos hqos

end StorePacketVariant

/-- The acknowledgements that stored packets await. -/
def AckKind.IsStored (k : AckKind) : Prop := k = .puback ∨ k = .pubrec ∨ k = .pubcomp

/-- The answer that an acknowledgement is. -/
def AckKind.reply (packetId : Nat) : AckKind → Reply Nat
  | .puback => .ack packetId
  | .pubrec => .received packetId
  | _ => .complete packetId

/-- The response type of an acknowledgement -/
def AckKind.response {pb : PacketIdBytes} (k : AckKind) (pv : PacketVariant pb) : ResponsePacket :=
  match k with
  | .puback => Connection.ackResponse .v5Puback .v311Puback pv
  | .pubrec => Connection.ackResponse .v5Pubrec .v311Pubrec pv
  | _ => Connection.ackResponse .v5Pubcomp .v311Pubcomp pv

/-- The responses of two exchanges are the same only for the same kind. -/
theorem AckKind.response_inj {pb : PacketIdBytes} {k k' : AckKind} (hk : IsStored k) (hk' : IsStored k')
    (pv : PacketVariant pb) : response k pv = response k' pv ↔ k = k' := by
  refine ⟨fun h => ?_, fun h => h ▸ rfl⟩
  rcases hk with rfl | rfl | rfl <;> rcases hk' with rfl | rfl | rfl <;>
    first | rfl | (simp only [response, Connection.ackResponse] at h; split at h <;> cases h)

/-- The replies of two exchanges are the same only for the same kind and identifier. -/
theorem AckKind.reply_inj {k k' : AckKind} (hk : IsStored k) (hk' : IsStored k') (n n' : Nat) :
    AckKind.reply n k = AckKind.reply n' k' ↔ k = k' ∧ n = n' := by
  rcases hk with rfl | rfl | rfl <;> rcases hk' with rfl | rfl | rfl <;> simp [AckKind.reply]

namespace Connection

variable {role : Role} {pb : PacketIdBytes}

/-- What a stored packet awaits as what the sender keeps -/
theorem awaits_outgoing (e : StorePacketVariant pb) :
    e.outgoing.awaits Message.once = (storedAck e).reply e.packetId := by
  obtain ⟨packet, res, hres⟩ := e
  -- a PUBREL awaits its PUBCOMP, a PUBLISH what its QoS asks for
  cases packet with
  | v311Pubrel p | v5Pubrel p =>
    obtain rfl := Option.some.inj hres
    rfl
  | v311Publish p | v5Publish p =>
    simp only [StorePacket.response?] at hres
    split at hres
    · next hqos =>
      obtain rfl := Option.some.inj hres
      have hqos : Pub.getQos p.opts = 1 := UInt8.toNat_inj.mp hqos
      have hnot : Pub.getQos p.opts ≠ Qos.exactlyOnce := by
        rw [hqos]
        decide
      exact if_neg fun h => hnot (of_decide_eq_true h)
    · next hqos =>
      obtain rfl := Option.some.inj hres
      have hqos : Pub.getQos p.opts = 2 := UInt8.toNat_inj.mp hqos
      exact if_pos (decide_eq_true hqos)
    · cases hres

/-- What the connection keeps for its peer, in the order of the store -/
def kept (c : Connection role pb) : List (Outgoing Nat Message) :=
  c.store.elems.map StorePacketVariant.outgoing

/-- The identifiers of QoS 2 messages that were handled -/
def handled (c : Connection role pb) (packetId : Nat) : Bool := packetId ∈ c.qos2PublishHandled

/-- What is kept depends on the store only. -/
theorem kept_congr {c c' : Connection role pb} (h : c'.store = c.store) : c'.kept = c.kept := by
  rw [kept, kept, h]

/-! ### The store -/

/-- A stored packet waits for a PUBACK, a PUBREC or a PUBCOMP. -/
theorem storedAck_isStored (e : StorePacketVariant pb) : AckKind.IsStored (storedAck e) := by
  unfold storedAck
  split
  · exact .inl rfl
  · exact .inl rfl
  · exact .inr (.inl rfl)
  · exact .inr (.inl rfl)
  · exact .inr (.inr rfl)
  · exact .inr (.inr rfl)

/-- The response to stored packets of one version -/
theorem responsePacketType_eq (e : StorePacketVariant pb) {pv : PacketVariant pb}
    (h : e.version = pv.version) : e.responsePacketType = AckKind.response (storedAck e) pv := by
  rw [e.response_eq]
  unfold AckKind.response ackResponse
  rcases storedAck_isStored e with hk | hk | hk <;> rw [hk, h]

/-- An acknowledgement ends the stay of what awaits it. -/
theorem kept_erase {c c' : Connection role pb} {k : AckKind} (hk : AckKind.IsStored k)
    {pv : PacketVariant pb} (hversion : ∀ e ∈ c.store.elems, e.version = pv.version)
    {packetId : Nat} (hstore : c'.store = c.store.erase (AckKind.response k pv) packetId) :
    c'.kept = c.kept.filter fun o => o.awaits Message.once ≠ k.reply packetId := by
  rw [kept, kept, hstore, List.filter_map]
  refine congrArg (List.map _) (List.filter_congr fun e he => ?_)
  simp only [Function.comp_apply, awaits_outgoing, ne_eq, decide_not, Bool.not_inj_iff]
  rw [decide_eq_decide, AckKind.reply_inj (storedAck_isStored e) hk,
    responsePacketType_eq e (hversion e he), AckKind.response_inj (storedAck_isStored e) hk]

/-- A packet is added under an identifier for which no packet is kept. -/
theorem kept_add {c c' : Connection role pb} {p : StorePacket pb} {e : StorePacketVariant pb}
    (he : StorePacketVariant.ofPacket? p = some e) (hfree : ∀ o ∈ c.kept, o.key ≠ e.packetId)
    (hstore : c'.store = c.store.add p) : c'.kept = c.kept ++ [e.outgoing] := by
  have hwaits : ¬ c.store.Waits e.responsePacketType e.packetId := by
    rintro ⟨e', he', -, hid⟩
    exact hfree _ (List.mem_map_of_mem he') (by rw [StorePacketVariant.key_outgoing, hid])
  rw [kept, kept, hstore, Store.add, he]
  simp only [Store.emplaceBack, dif_neg hwaits, List.map_append]
  rfl

/-! ### Steps -/

/-- An identifier is noted as handled. -/
theorem handled_insert (c : Connection role pb) (packetId : Nat) :
    ({ c with qos2PublishHandled := c.qos2PublishHandled.insert packetId } :
      Connection role pb).handled = Function.update c.handled packetId true := by
  funext n
  by_cases h : n = packetId <;> simp [handled, h]

/-- An identifier is no longer noted as handled. -/
theorem handled_erase (c : Connection role pb) (packetId : Nat) :
    ({ c with qos2PublishHandled := c.qos2PublishHandled.erase packetId } :
      Connection role pb).handled = Function.update c.handled packetId false := by
  funext n
  by_cases h : n = packetId <;> simp [handled, h]

/-- What is handled depends on the noted identifiers only. -/
theorem handled_congr {c c' : Connection role pb}
    (h : c'.qos2PublishHandled = c.qos2PublishHandled) : c'.handled = c.handled := by
  funext n
  rw [handled, handled, h]

end Connection

/-- What a call does to the exchanges of a connection: what it keeps and has handled after it,
    and what it puts on the line, answers and gives to the application. -/
structure Traffic where
  kept : List (Outgoing Nat Message)
  handled : Nat → Bool
  outgoings : List (Outgoing Nat Message)
  replies : List (Reply Nat)
  deliveries : List Message

/-- The traffic of a call -/
def Step.traffic {role : Role} {pb : PacketIdBytes} (s : Step role pb) : Traffic where
  kept := s.conn.kept
  handled := s.conn.handled
  outgoings := AsyncMqtt.outgoings (sends s.events)
  replies := AsyncMqtt.replies (sends s.events)
  deliveries := AsyncMqtt.deliveries s.events

namespace Connection

variable {role : Role} {pb : PacketIdBytes}

/-- The traffic of a call that has nothing to do with the exchanges -/
def idle (c : Connection role pb) : Traffic := ⟨c.kept, c.handled, [], [], []⟩

/-- A quiet step does not touch the exchanges. -/
theorem Quiet.idle {c c' : Connection role pb} (h : Quiet c c') : c'.idle = c.idle := by
  rw [Connection.idle, kept_congr h.store, handled_congr h.handled, Connection.idle]

/-- A quiet step leaves the status or ends the connection. -/
theorem Quiet.status {c c' : Connection role pb} (h : Quiet c c') :
    c'.status = c.status ∨ c'.status = .disconnected := by
  obtain ⟨status, _, _, _, _, hstatus, rfl⟩ := h
  exact hstatus

/-- What the packets of a step come to, if the step is quiet apart from them. -/
theorem Quiet.traffic {c : Connection role pb} {s : Step role pb} (h : Quiet c s.conn) :
    s.traffic = { c.idle with
      outgoings := outgoings (sends s.events)
      replies := replies (sends s.events)
      deliveries := deliveries s.events } := by
  have hidle := h.idle
  rw [Step.traffic, ← hidle]
  rfl

/-! ### A connection without limits -/

end Connection

namespace PacketVariant

variable {pb : PacketIdBytes}

/-- The properties set no limits. -/
def NoLimits (props : Properties) : Prop :=
  ∀ prop ∈ props, prop.id ≠ .topicAliasMaximum ∧ prop.id ≠ .receiveMaximum ∧
    prop.id ≠ .maximumPacketSize

/-- The packets that begin a connection -/
def isHandshake (pv : PacketVariant pb) : Bool := pv.type = .connect || pv.type = .connack

/-- A packet of this version as a side without limits sends it: a CONNECT goes on with the
    session, a PUBLISH has its topic and no alias, a PUBREC is no refusal. -/
structure Plain (ver : ProtocolVersion) (pv : PacketVariant pb) : Prop where
  version : pv.version = ver
  connect : pv.type = .connect → ¬ pv.view.cleanStart ∧ (ver = .v5 →
    ∃ prop ∈ pv.view.props, prop.id = .sessionExpiryInterval ∧ prop.val ≠ 0)
  handshake : pv.type = .connect ∨ pv.type = .connack → NoLimits pv.view.props
  publish : pv.type = .publish → ver = .v5 →
    pv.view.topic ≠ [] ∧ Connection.getTopicAlias pv.view.props = none
  pubrec : pv.type = .pubrec → ¬ reasonCodeFailed pv.view.code

end PacketVariant

/-- A stored packet that can be sent again on any connection -/
def StorePacketVariant.Plain {pb : PacketIdBytes} (ver : ProtocolVersion)
    (e : StorePacketVariant pb) : Prop :=
  e.size ≤ packetSizeNoLimit ∧ e.packet.toPacketVariant.Plain ver

namespace Connection

variable {role : Role} {pb : PacketIdBytes}

/-- The two sides of the connection have agreed on no topic aliases, no receive maximum and no
    maximum packet size, they keep the session, and acknowledge by themselves. -/
structure Unlimited (ver : ProtocolVersion) (c : Connection role pb) : Prop where
  determined : ver ≠ .undetermined
  protocolVersion : c.protocolVersion = ver
  topicAliasSend : c.topicAliasSend = none
  topicAliasRecv : c.topicAliasRecv = none
  publishSendMax : c.publishSendMax = none
  publishRecvMax : c.publishRecvMax = none
  maximumPacketSizeSend : c.maximumPacketSizeSend = packetSizeNoLimit
  autoPubResponse : c.autoPubResponse
  /-- before the first CONNECT there is no session -/
  unstarted : ¬ c.needStore →
    c.store.elems = [] ∧ c.qos2PublishHandled = ∅ ∧ c.status = .disconnected
  connecting : c.status = .connecting → c.pidSuback = ∅ ∧ c.pidUnsuback = ∅
  stored : ∀ e ∈ c.store.elems, e.Plain ver

/-- A quiet step sets no limit. -/
theorem Unlimited.quiet {ver : ProtocolVersion} {c c' : Connection role pb} (h : c.Unlimited ver)
    (hq : Quiet c c') : c'.Unlimited ver := by
  obtain ⟨status, _, _, _, _, hstatus, rfl⟩ := hq
  refine ⟨h.determined, h.protocolVersion, h.topicAliasSend, h.topicAliasRecv, h.publishSendMax,
    h.publishRecvMax, h.maximumPacketSizeSend, h.autoPubResponse, fun hns => ?_, fun hs => ?_, h.stored⟩
  · obtain ⟨hstore, hhandled, hdis⟩ := h.unstarted hns
    refine ⟨hstore, hhandled, ?_⟩
    rcases hstatus with rfl | rfl
    · exact hdis
    · rfl
  · rcases hstatus with rfl | rfl
    · exact h.connecting hs
    · cases hs

/-- A v3.1.1 response is not too large. -/
theorem size_ackV311 (type : ControlPacketType) (flags : UInt8) (pb : PacketIdBytes)
    (packetId : Nat) : (V311.ackPacket type flags pb packetId).size ≤ packetSizeNoLimit := by
  have hsize : 2 + pb.bytes ≤ packetSizeNoLimit := by
    cases pb <;> decide
  rw [V311.AckPacket.size, V311.ackPacket, List.length_append, length_endianStore]
  exact hsize

/-- A v5 response without properties is not too large. -/
theorem size_ackV5 (pb : PacketIdBytes) :
    1 + (valToVariableBytes pb.bytes).length + pb.bytes ≤ packetSizeNoLimit := by
  cases pb <;> decide

/-- No response is too large. -/
theorem size_isAck {ver : ProtocolVersion} {r : PacketVariant pb} (h : IsAck ver r) :
    r.size ≤ packetSizeNoLimit := by
  obtain ⟨packetId, rfl | rfl | rfl | rfl⟩ := h
  · unfold pubackOf
    split <;> first | exact size_ackV5 pb | exact size_ackV311 _ _ pb packetId
  · unfold pubrecOf
    split <;> first | exact size_ackV5 pb | exact size_ackV311 _ _ pb packetId
  · unfold pubrelOf
    split <;> first | exact size_ackV5 pb | exact size_ackV311 _ _ pb packetId
  · unfold pubcompOf
    split <;> first | exact size_ackV5 pb | exact size_ackV311 _ _ pb packetId

/-- The acknowledgements are sent. -/
theorem Unlimited.passes_ack {ver : ProtocolVersion} {c : Connection role pb}
    (h : c.Unlimited ver) (hstatus : c.status = .connected) {r : PacketVariant pb}
    (hr : IsAck ver r) : c.passesChecks r := by
  refine (hr.passes h.determined hstatus h.protocolVersion.symm (decide_eq_true ?_)).2
  rw [h.maximumPacketSizeSend]
  exact size_isAck hr

/-- In the midst of a connection there is a session. -/
theorem Unlimited.started {ver : ProtocolVersion} {c : Connection role pb} (h : c.Unlimited ver)
    (hstatus : c.status ≠ .disconnected) : c.needStore := by
  by_contra hns
  exact hstatus (h.unstarted hns).2.2

/-- Noting an identifier sets no limit. -/
theorem Unlimited.handle {ver : ProtocolVersion} {c : Connection role pb} (h : c.Unlimited ver)
    (hstatus : c.status ≠ .disconnected) (ids : OrdSet Nat) :
    ({ c with qos2PublishHandled := ids } : Connection role pb).Unlimited ver :=
  { h with
    unstarted := fun hns => absurd (h.started hstatus) hns }

/-- An acknowledgement that the connection sends by itself goes out. -/
theorem Unlimited.respond {ver : ProtocolVersion} {c : Connection role pb} (h : c.Unlimited ver)
    (hstatus : c.status = .connected) {r : PacketVariant pb} (hr : IsAck ver r) (hq : r.isQuiet) :
    Quiet c (c.send r).conn ∧ sends (c.send r).events = [r] ∧ receives (c.send r).events = [] := by
  have hpass := h.passes_ack hstatus hr
  have htype : r.type ≠ .publish ∧ r.type ≠ .connack := by
    constructor <;> cases r <;> simp_all [PacketVariant.isQuiet, PacketVariant.type]
  refine ⟨(send_quiet hq c).1, ?_, receives_send r c⟩
  rw [(send_line htype.1 hpass).2, if_neg htype.2]

end Connection

/-- The packets that belong neither to an exchange nor to the begin of a connection -/
def PacketVariant.isAside {pb : PacketIdBytes} (pv : PacketVariant pb) : Bool :=
  match pv.type with
  | .connect | .connack | .publish | .puback | .pubrec | .pubrel | .pubcomp => false
  | _ => true

/-- A packet beside the exchanges carries neither a message nor a reply. -/
theorem PacketVariant.isAside_token {pb : PacketIdBytes} {pv : PacketVariant pb} (h : pv.isAside) :
    pv.outgoing? = none ∧ pv.reply? = none := by
  cases pv <;> first | exact ⟨rfl, rfl⟩ | exact absurd h Bool.false_ne_true

/-- A packet beside the exchanges is a plain one, and no handshake. -/
theorem PacketVariant.isAside_plain {pb : PacketIdBytes} {ver : ProtocolVersion}
    {pv : PacketVariant pb} (h : pv.isAside) (hversion : pv.version = ver) :
    pv.Plain ver ∧ ¬ pv.isHandshake := by
  cases pv <;> first
    | exact absurd h Bool.false_ne_true
    | exact ⟨⟨hversion, by rintro ⟨⟩, by rintro (⟨⟨⟩⟩ | ⟨⟨⟩⟩), by rintro ⟨⟩, by rintro ⟨⟩⟩,
        Bool.false_ne_true⟩

namespace Connection

variable {role : Role} {pb : PacketIdBytes} {ver : ProtocolVersion} {c : Connection role pb}

/-- A call that agrees on no limits: the packets that it sends are plain, and have nothing to
    do with the begin of a connection. -/
structure Calm (ver : ProtocolVersion) (c : Connection role pb) (s : Step role pb) : Prop where
  unlimited : s.conn.Unlimited ver
  status : s.conn.status = c.status ∨ s.conn.status = .disconnected
  plain : ∀ pv ∈ sends s.events, pv.Plain ver ∧ ¬ pv.isHandshake

/-- A response is a plain packet, and no handshake. -/
theorem IsAck.plain {r : PacketVariant pb} (h : IsAck ver r) (hdetermined : ver ≠ .undetermined) :
    r.Plain ver ∧ ¬ r.isHandshake := by
  obtain ⟨packetId, h⟩ := h
  cases ver with
  | undetermined => exact absurd rfl hdetermined
  | v311 | v5 =>
    rcases h with rfl | rfl | rfl | rfl <;>
      exact ⟨⟨rfl, by rintro ⟨⟩, by rintro (⟨⟨⟩⟩ | ⟨⟨⟩⟩), by rintro ⟨⟩, fun _ => Bool.false_ne_true⟩,
        Bool.false_ne_true⟩

/-- A PUBLISH with QoS 1 or 2 carries its message. -/
theorem outgoing?_publish {pv : PacketVariant pb} (htype : pv.type = .publish)
    (hqos : isQos12 pv.view.opts) : pv.outgoing? = some (.message pv.packetId pv.message) := by
  rw [PacketVariant.outgoing?, htype]
  exact if_pos hqos

/-- Handing a packet over is quiet. -/
theorem quiet_receive (pv : PacketVariant pb) (c : Connection role pb) :
    Quiet c (c.receive pv).conn := quiet_pingreqRecvOp c

/-- The packet is handed over. -/
theorem receives_taken (pv : PacketVariant pb) (c : Connection role pb) :
    receives (c.receive pv).events = [pv] := by
  rw [← receives_signals, signals_receive]
  rfl

/-- The message of the packet is handed over. -/
theorem deliveries_taken (pv : PacketVariant pb) (c : Connection role pb) :
    deliveries (c.receive pv).events = messages (outgoings [pv]) := by
  rw [deliveries, receives_taken]

/-- A call that has nothing to do with the exchanges -/
structure Aside (ver : ProtocolVersion) (c : Connection role pb) (s : Step role pb) : Prop where
  unlimited : s.conn.Unlimited ver
  status : s.conn.status = c.status ∨ s.conn.status = .disconnected
  traffic : s.traffic = c.idle
  packets : ∀ r ∈ sends s.events, r.isAside ∧ r.version = ver

/-- A step beside the exchanges is calm. -/
theorem Aside.calm {s : Step role pb} (h : Aside ver c s) : Calm ver c s :=
  ⟨h.unlimited, h.status, fun r hr => r.isAside_plain (h.packets r hr).1 (h.packets r hr).2⟩

/-- Packets beside the exchanges carry nothing. -/
theorem no_tokens {rs : List (PacketVariant pb)} (h : ∀ r ∈ rs, r.isAside ∧ r.version = ver) :
    outgoings rs = [] ∧ replies rs = [] :=
  ⟨List.filterMap_eq_nil_iff.mpr fun r hr => (r.isAside_token (h r hr).1).1,
    List.filterMap_eq_nil_iff.mpr fun r hr => (r.isAside_token (h r hr).1).2⟩

/-- A quiet step that sends packets beside the exchanges -/
theorem aside_of_quiet (h : c.Unlimited ver) {s : Step role pb} (hq : Quiet c s.conn)
    (hsends : ∀ r ∈ sends s.events, r.isAside ∧ r.version = ver)
    (hdeliveries : deliveries s.events = []) : Aside ver c s := by
  refine ⟨h.quiet hq, hq.status, ?_, hsends⟩
  rw [hq.traffic, (no_tokens hsends).1, (no_tokens hsends).2, hdeliveries]
  rfl

/-- What follows such a call -/
theorem Aside.next {s t : Step role pb} (h : Aside ver c s) (hq : Quiet s.conn t.conn)
    (hsends : sends t.events = sends s.events) (hdeliveries : deliveries t.events = []) :
    Aside ver c t := by
  have ht := aside_of_quiet h.unlimited hq (hsends ▸ h.packets) hdeliveries
  refine ⟨ht.unlimited, Or.elim hq.status (fun heq => heq ▸ h.status) .inr,
    ht.traffic.trans ?_, ht.packets⟩
  have hkept : s.conn.kept = c.kept := congrArg Traffic.kept h.traffic
  have hhandled : s.conn.handled = c.handled := congrArg Traffic.handled h.traffic
  rw [idle, hkept, hhandled, idle]

/-- A packet without a message is handed over as well. -/
theorem Aside.receive {s : Step role pb} (h : Aside ver c s) {pv : PacketVariant pb}
    (hpv : pv.outgoing? = none) : Aside ver c (s.andThen (·.receive pv)) := by
  have hs : deliveries s.events = [] := congrArg Traffic.deliveries h.traffic
  refine h.next (quiet_receive pv s.conn) ?_ ?_
  · rw [Step.events_andThen, sends_append, sends_receive, List.append_nil]
  · rw [Step.events_andThen, deliveries_append, hs, deliveries_taken, outgoings,
      List.filterMap_cons, hpv]
    rfl

/-- An event that neither sends nor receives -/
theorem Aside.emit {s : Step role pb} (h : Aside ver c s) {e : Event pb} (hsends : sends [e] = [])
    (hreceives : receives [e] = []) : Aside ver c (s.emit e) := by
  have hs : deliveries s.events = [] := congrArg Traffic.deliveries h.traffic
  refine h.next (Quiet.refl _) ?_ ?_
  · rw [Step.events_emit, sends_append, hsends, List.append_nil]
  · rw [Step.events_emit, deliveries_append, hs, deliveries, hreceives]
    rfl

/-- Nothing changes. -/
theorem aside_stay (h : c.Unlimited ver) {es : List (Event pb)} (hsends : sends es = [])
    (hreceives : receives es = []) : Aside ver c ⟨c, es⟩ := by
  refine aside_of_quiet h (Quiet.refl c) (fun r hr => ?_) (by rw [deliveries, hreceives]; rfl)
  rw [hsends] at hr
  cases hr

/-- A packet that is about the connection alone is sent. -/
theorem send_aside (h : c.Unlimited ver) {r : PacketVariant pb} (haside : r.isAside)
    (hquiet : r.isQuiet) : Aside ver c (c.send r) := by
  refine aside_of_quiet h (send_quiet hquiet c).1 (fun r' hr' => ?_)
    (by rw [deliveries, receives_send]; rfl)
  by_cases hpass : c.passesChecks r = true
  · have htype : r.type ≠ .publish ∧ r.type ≠ .connack := by
      constructor <;> intro htype <;> simp [PacketVariant.isAside, htype] at haside
    rw [(send_line htype.1 hpass).2, if_neg htype.2] at hr'
    obtain rfl := List.mem_singleton.mp hr'
    have hallowed := (Bool.and_eq_true_iff.mp hpass).1
    have hversion : c.versionCheck r' = true := (Bool.and_eq_true_iff.mp hallowed).2
    exact ⟨haside, (of_decide_eq_true hversion).symm.trans h.protocolVersion⟩
  · rw [(send_line_refused hpass).2] at hr'
    cases hr'

/-- The answer to a packet identifier of 0 -/
theorem invalidPacketId_aside (h : c.Unlimited ver) (ver' : ProtocolVersion) :
    Aside ver c (c.invalidPacketId ver') := by
  unfold invalidPacketId
  split
  · exact (send_aside h rfl rfl).emit rfl rfl
  · exact aside_stay h rfl rfl

/-- An automatic answer beside the exchanges -/
theorem respondIf_aside (h : c.Unlimited ver) {r : PacketVariant pb} (haside : r.isAside)
    (hquiet : r.isQuiet) (cond : Bool) : Aside ver c (c.respondIf cond r) := by
  unfold respondIf
  split
  · exact send_aside h haside hquiet
  · exact aside_stay h rfl rfl

end Connection

end AsyncMqtt
