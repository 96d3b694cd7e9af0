import AsyncMqtt.Spec.RecvCases
import AsyncMqtt.Spec.SendCases

/-!
# What a step puts on the line

The peer sees of a connection the packets that it sends. What is sent depends on a small
part of the state: the protocol version, the status, the maximum packet size of the peer
and the PUBLISH packets that are not answered yet. `Connection.line` is this part, and
`sends` picks the packets out of the events of a step.

A call of `send` has one effect on the line, `Line.afterSend`. A call of `recv` changes
the line itself for CONNECT, CONNACK, DISCONNECT and PUBLISH, and then sends at most one
packet by itself, which goes through `send` again.

## Key results

- `Connection.send_line`, `Connection.send_line_publish`: the effect of `send`
- `Connection.recv_line`: the effect of `recv`
- `Connection.notifyTimerFired_line`: a timer sends at most one packet
-/

namespace AsyncMqtt

/-- The packets that are sent, in order. -/
def sends {pb : PacketIdBytes} (es : List (Event pb)) : List (PacketVariant pb) :=
  es.filterMap fun e =>
    match e with
    | .send pv _ => some pv
    | _ => none

/-- No events write nothing. -/
@[simp] theorem sends_nil {pb : PacketIdBytes} : sends ([] : List (Event pb)) = [] := rfl

/-- What is written by a longer list of events -/
@[simp] theorem sends_append {pb : PacketIdBytes} (es es' : List (Event pb)) :
    sends (es ++ es') = sends es ++ sends es' := List.filterMap_append ..

/-- A packet is written exactly when an event sends it. -/
theorem mem_sends {pb : PacketIdBytes} {es : List (Event pb)} {pv : PacketVariant pb} :
    pv ∈ sends es ↔ ∃ release, Event.send pv release ∈ es := by
  simp only [sends, List.mem_filterMap]
  constructor
  · rintro ⟨e, he, hpv⟩
    cases e with
    | send pv' release =>
      obtain rfl := Option.some.inj hpv
      exact ⟨release, he⟩
    | _ => exact nomatch hpv
  · rintro ⟨release, he⟩
    exact ⟨_, he, rfl⟩

/-- The part of the state that decides what may be sent. -/
structure Line where
  protocolVersion : ProtocolVersion
  status : ConnectionStatus
  maximumPacketSizeSend : Nat
  publishRecvMax : Option Nat
  publishRecv : OrdSet Nat

namespace Connection

variable {role : Role} {pb : PacketIdBytes}

/-- The part of the state that decides what may be sent. -/
def line (c : Connection role pb) : Line where
  protocolVersion := c.protocolVersion
  status := c.status
  maximumPacketSizeSend := c.maximumPacketSizeSend
  publishRecvMax := c.publishRecvMax
  publishRecv := c.publishRecv

end Connection

/-- The line after a packet was sent. -/
def Line.afterSend {pb : PacketIdBytes} (l : Line) (pv : PacketVariant pb) : Line :=
  match pv.type with
  | .connect =>
    { l with
      status := .connecting, publishRecvMax := pv.receiveMaximum none, publishRecv := ∅ }
  | .connack =>
    if pv.acceptsConnection then
      { l with status := .connected, publishRecvMax := pv.receiveMaximum l.publishRecvMax }
    else { l with status := .disconnected }
  | .disconnect => { l with status := .disconnected }
  | .puback | .pubcomp =>
    if pv.version = .v5 then { l with publishRecv := l.publishRecv.erase pv.packetId } else l
  | .pubrec =>
    if pv.version = .v5 ∧ reasonCodeFailed pv.view.code then
      { l with publishRecv := l.publishRecv.erase pv.packetId }
    else l
  | _ => l

namespace Connection

variable {role : Role} {pb : PacketIdBytes}

/-! ### Timers -/

/-- Cancelling timers writes nothing. -/
@[simp] theorem sends_cancelTimers (c : Connection role pb) : sends c.cancelTimers.events = [] := by
  simp only [cancelTimers, cancelTimer, Step.events_andThen, Step.conn_andThen, sends_append]
  split <;> split <;> split <;> rfl

/-- Setting the timer for the PINGREQ of the client writes nothing. -/
@[simp] theorem sends_pingreqRecvOp (c : Connection role pb) :
    sends c.pingreqRecvOp.events = [] := by
  unfold pingreqRecvOp
  split
  · rfl
  · split <;> rfl

/-- Setting the timer for the PINGREQ writes nothing. -/
@[simp] theorem sends_resetPingreqSend (c : Connection role pb) :
    sends c.resetPingreqSend.events = [] := by
  unfold resetPingreqSend
  split
  · split <;> rfl
  · rfl

/-- Handing a packet over writes nothing. -/
@[simp] theorem sends_receive (pv : PacketVariant pb) (c : Connection role pb) :
    sends (c.receive pv).events = [] := by
  simp only [receive, Step.events_emit, sends_append, sends_pingreqRecvOp]
  rfl

/-- The properties of a CONNACK write nothing. -/
@[simp] theorem sends_recvConnackProps (props : Properties) (c : Connection role pb) :
    sends (recvConnackProps props c).events = [] := by
  induction props generalizing c with
  | nil => rfl
  | cons prop props ih =>
    have hone : sends (recvConnackProp prop c).events = [] := by
      unfold recvConnackProp setPingreqSendInterval
      split <;> (try split) <;> (try split) <;> rfl
    rw [recvConnackProps, Step.events_andThen, sends_append, hone, ih]
    rfl

/-- The timer for the PINGREQ of the client does not change the line. -/
@[simp] theorem line_pingreqRecvOp (c : Connection role pb) :
    c.pingreqRecvOp.conn.line = c.line := by
  rw [pingreqRecvOp_conn]
  rfl

/-- The timer for the PINGREQ does not change the line. -/
@[simp] theorem line_resetPingreqSend (c : Connection role pb) :
    c.resetPingreqSend.conn.line = c.line := by
  rw [resetPingreqSend_conn]
  rfl

/-- Handing a packet over does not change the line. -/
@[simp] theorem line_receive (pv : PacketVariant pb) (c : Connection role pb) :
    (c.receive pv).conn.line = c.line := by
  rw [receive_conn]
  rfl

/-! ### Stored packets -/

/-- The stored packets that `send_stored` sends. -/
def storedFit (c : Connection role pb) (limit : Nat) : List (PacketVariant pb) :=
  (c.store.elems.filter (·.size ≤ limit)).map (·.packet.toPacketVariant)

/-- The stored packets that are not too large are written in their order. -/
theorem sends_sendStoredElems (pvs : List (StorePacketVariant pb)) (c : Connection role pb) :
    sends (sendStoredElems pvs c).events =
      (pvs.filter (·.size ≤ c.maximumPacketSizeSend)).map (·.packet.toPacketVariant) := by
  induction pvs generalizing c with
  | nil => rfl
  | cons pv pvs ih =>
    rw [sendStoredElems, Step.events_andThen, sends_append, ih]
    by_cases hsize : c.maximumPacketSizeSend < pv.size
    · have hnot : ¬ pv.size ≤ c.maximumPacketSizeSend := by omega
      simp only [if_pos hsize, releaseId, List.filter_cons, decide_eq_false hnot]
      rfl
    · have hle : pv.size ≤ c.maximumPacketSizeSend := by omega
      simp only [if_neg hsize, List.filter_cons, decide_eq_true hle]
      rfl

/-- `send_stored` sends the stored packets that fit, in the order of the store. -/
theorem sends_sendStored (c : Connection role pb) :
    sends c.sendStored.events = c.storedFit c.maximumPacketSizeSend := by
  rw [sendStored, Step.events_andThen, sends_append, sends_sendStoredElems]
  exact List.append_nil _

/-- Sending the store again does not change the line. -/
@[simp] theorem line_sendStored (c : Connection role pb) : c.sendStored.conn.line = c.line := by
  rw [sendStored_conn]
  rfl

/-- The stored packets that fit the limit -/
theorem mem_storedFit {c : Connection role pb} {limit : Nat} {pv : PacketVariant pb} :
    pv ∈ c.storedFit limit ↔
      ∃ e ∈ c.store.elems, e.size ≤ limit ∧ e.packet.toPacketVariant = pv := by
  simp [storedFit, and_assoc]

/-! ### Properties of CONNECT and CONNACK -/

/-- The last Receive Maximum of a CONNECT that is sent counts. -/
theorem sendConnectProps_recvMax (props : Properties) (c : Connection role pb) :
    (props.foldl sendConnectProp c).publishRecvMax =
      lastVal .receiveMaximum some c.publishRecvMax props := by
  refine foldl_lastVal (fun c prop => ?_) props c
  unfold sendConnectProp emplaceTopicAliasRecv
  cases prop.id with
  | topicAliasMaximum | sessionExpiryInterval =>
    dsimp only
    split <;> rfl
  | _ => rfl

/-- The last Receive Maximum of a CONNACK that is sent counts. -/
theorem sendConnackProps_recvMax (props : Properties) (c : Connection role pb) :
    (props.foldl sendConnackProp c).publishRecvMax =
      lastVal .receiveMaximum some c.publishRecvMax props := by
  refine foldl_lastVal (fun c prop => ?_) props c
  unfold sendConnackProp emplaceTopicAliasRecv
  cases prop.id with
  | topicAliasMaximum =>
    dsimp only
    split <;> rfl
  | _ => rfl

/-- The last Maximum Packet Size of a CONNECT that is received counts. -/
theorem recvConnectProps_sizeSend (props : Properties) (c : Connection role pb) :
    (props.foldl recvConnectProp c).maximumPacketSizeSend =
      lastVal .maximumPacketSize (fun n => n) c.maximumPacketSizeSend props := by
  refine foldl_lastVal (fun c prop => ?_) props c
  unfold recvConnectProp emplaceTopicAliasSend
  cases prop.id with
  | topicAliasMaximum | sessionExpiryInterval =>
    dsimp only
    split <;> rfl
  | _ => rfl

/-! ### Sending -/

/-- The line after a v3.1.1 CONNECT was sent -/
theorem line_sendConnectV311 (p : V311.ConnectPacket) (c : Connection role pb) :
    (c.sendConnectV311 p).line = c.line.afterSend (.v311Connect p : PacketVariant pb) := by
  obtain ⟨ns, int, heq⟩ := c.sendConnectV311_eq p
  rw [heq]
  rfl

/-- The line after a v5 CONNECT was sent -/
theorem line_sendConnectV5 (p : V5.ConnectPacket) (c : Connection role pb) :
    (c.sendConnectV5 p).line = c.line.afterSend (.v5Connect p : PacketVariant pb) := by
  have hmax : (c.sendConnectV5 p).publishRecvMax =
      lastVal .receiveMaximum some none p.props := by
    simp only [sendConnectV5]
    rw [sendConnectProps_recvMax]
    congr 1
    split <;> split <;> rfl
  obtain ⟨tar, prm, mps, ns, int, heq⟩ := c.sendConnectV5_eq p
  rw [heq] at hmax ⊢
  simp only at hmax
  rw [hmax]
  rfl

/-- The line after a v3.1.1 CONNACK was sent -/
theorem line_sendConnackV311 (p : V311.ConnackPacket) (c : Connection role pb) :
    (c.sendConnackV311 p).conn.line = c.line.afterSend (.v311Connack p : PacketVariant pb) := by
  have haccepts : (PacketVariant.v311Connack p : PacketVariant pb).acceptsConnection =
      decide (p.code = 0) := rfl
  unfold sendConnackV311 Line.afterSend
  simp only [PacketVariant.type, haccepts, decide_eq_true_eq]
  split
  · rfl
  · rw [cancelTimers_conn]
    rfl

/-- The line after a v5 CONNACK was sent -/
theorem line_sendConnackV5 (p : V5.ConnackPacket) (c : Connection role pb) :
    (c.sendConnackV5 p).conn.line = c.line.afterSend (.v5Connack p : PacketVariant pb) := by
  have haccepts : (PacketVariant.v5Connack p : PacketVariant pb).acceptsConnection =
      decide (p.code = ConnectReasonCode.success) := rfl
  unfold sendConnackV5 Line.afterSend
  simp only [PacketVariant.type, haccepts, decide_eq_true_eq]
  split
  · have hmax := sendConnackProps_recvMax p.props
      ({ c with status := .connected } : Connection role pb)
    obtain ⟨tar, prm, mps, heq⟩ := foldl_sendConnackProp p.props
      ({ c with status := .connected } : Connection role pb)
    rw [heq] at hmax ⊢
    simp only at hmax
    rw [hmax]
    rfl
  · rw [cancelTimers_conn]
    rfl

/-- The store and the maximum packet size of the peer stay as they are until the stored
    packets are sent. -/
theorem sendConnack_store {c : Connection role pb} {pv : PacketVariant pb}
    (h : pv.type = .connack) :
    (c.processSendActual pv).step.conn.store = c.store := by
  cases pv with
  | v311Connack p =>
    obtain ⟨a, b, d, hconn, -⟩ := c.sendConnackV311_eq p
    simp only [processSendActual, Step.conn_emit, hconn]
  | v5Connack p =>
    obtain ⟨tar, prm, mps, a, b, d, hconn, -⟩ := c.sendConnackV5_eq p
    simp only [processSendActual, Step.conn_emit, hconn]
  | _ => cases h

/-- The effect of a packet that is not a PUBLISH once it has passed the checks. -/
theorem processSendActual_line {pv : PacketVariant pb} (h : pv.type ≠ .publish)
    (c : Connection role pb) :
    (c.processSendActual pv).step.conn.line = c.line.afterSend pv ∧
      sends (c.processSendActual pv).step.events = [pv] ∧ (c.processSendActual pv).ok = true := by
  have hping : ∀ pv' : PacketVariant pb, (c.sendPingreq pv').step.conn.line = c.line ∧
      sends (c.sendPingreq pv').step.events = [pv'] ∧ (c.sendPingreq pv').ok = true := by
    intro pv'
    unfold sendPingreq
    split <;> exact ⟨rfl, rfl, rfl⟩
  have hdisconnect : ∀ pv' : PacketVariant pb, (c.sendDisconnect pv').step.conn.line =
      { c.line with status := .disconnected } ∧
      sends (c.sendDisconnect pv').step.events = [pv'] ∧ (c.sendDisconnect pv').ok = true := by
    intro pv'
    unfold sendDisconnect
    refine ⟨?_, ?_, rfl⟩
    · simp only [Step.conn_emit, cancelTimers_conn]
      rfl
    · simp only [Step.events_emit, sends_append, sends_cancelTimers]
      rfl
  cases pv with
  -- a PUBLISH is excluded, and most of the other packets leave the line alone
  | v311Publish p | v5Publish p => exact absurd rfl h
  | v311Connect p => exact ⟨c.line_sendConnectV311 p, rfl, rfl⟩
  | v5Connect p => exact ⟨c.line_sendConnectV5 p, rfl, rfl⟩
  | v311Connack p =>
    refine ⟨c.line_sendConnackV311 p, ?_, rfl⟩
    have hevents : sends (c.sendConnackV311 p).events = [] := by
      unfold sendConnackV311
      split
      · rfl
      · exact sends_cancelTimers _
    simp only [processSendActual, Step.events_emit, sends_append, hevents]
    rfl
  | v5Connack p =>
    refine ⟨c.line_sendConnackV5 p, ?_, rfl⟩
    have hevents : sends (c.sendConnackV5 p).events = [] := by
      unfold sendConnackV5
      split
      · rfl
      · exact sends_cancelTimers _
    simp only [processSendActual, Step.events_emit, sends_append, hevents]
    rfl
  | v311Pingreq p | v5Pingreq p => exact hping _
  | v311Disconnect p | v5Disconnect p => exact hdisconnect _
  | v5Pubrec p =>
    refine ⟨?_, rfl, rfl⟩
    simp only [processSendActual, Sent.send, sendPubrecV5]
    unfold Line.afterSend
    simp only [PacketVariant.type, PacketVariant.version, true_and, PacketVariant.view]
    split <;> rfl
  | v311Pubrel p | v5Pubrel p =>
    refine ⟨?_, rfl, rfl⟩
    simp only [processSendActual, Sent.send, sendPubrel_eq]
    rfl
  | _ => exact ⟨rfl, rfl, rfl⟩

/-- The checks of `send`: role, status and version, and the maximum packet size. -/
def passesChecks (c : Connection role pb) (pv : PacketVariant pb) : Bool :=
  c.sendAllowed pv && c.validateMaximumPacketSize pv.size

/-- A refusal does not change the line and writes nothing. -/
theorem failRelease_line (c : Connection role pb) (ec : ErrorCode) (packetId : Nat) :
    (Sent.failRelease c ec packetId).step.conn.line = c.line ∧
      sends (Sent.failRelease c ec packetId).step.events = [] := by
  unfold Sent.failRelease
  split <;> exact ⟨rfl, rfl⟩

/-- A packet that does not pass the checks is refused, perhaps with an identifier given back. -/
theorem send_refused {c : Connection role pb} {pv : PacketVariant pb} (h : ¬ c.passesChecks pv) :
    ∃ packetId,
      c.send pv = (Sent.failRelease c MqttError.packetNotAllowedToSend packetId).step := by
  by_cases hallowed : c.sendAllowed pv = true
  · have hsize : ¬ c.validateMaximumPacketSize pv.size := by
      intro hsize
      exact h (by rw [passesChecks, hallowed, hsize]; rfl)
    exact ⟨_, send_of_too_large hallowed hsize⟩
  · exact ⟨0, send_of_not_allowed hallowed⟩

/-- A packet that does not pass the checks changes nothing on the line. -/
theorem send_line_refused {c : Connection role pb} {pv : PacketVariant pb}
    (h : ¬ c.passesChecks pv) :
    (c.send pv).conn.line = c.line ∧ sends (c.send pv).events = [] := by
  obtain ⟨packetId, hsend⟩ := send_refused h
  rw [hsend]
  exact failRelease_line c _ _

/-- The effect of `send` for a packet that is not a PUBLISH: a CONNACK is followed by the
    stored packets. -/
theorem send_line {c : Connection role pb} {pv : PacketVariant pb} (htype : pv.type ≠ .publish)
    (h : c.passesChecks pv) :
    (c.send pv).conn.line = c.line.afterSend pv ∧
      sends (c.send pv).events =
        pv :: if pv.type = .connack then c.storedFit c.maximumPacketSizeSend else [] := by
  obtain ⟨hallowed, hsize⟩ := Bool.and_eq_true_iff.mp h
  obtain ⟨hline, hsends, hok⟩ := c.processSendActual_line htype
  rw [send_of_allowed hallowed hsize, if_pos hok]
  simp only [Step.conn_andThen, Step.events_andThen, sends_append, line_resetPingreqSend,
    sends_resetPingreqSend, List.append_nil]
  -- a CONNACK is followed by the stored packets, under the limit of before
  split
  · next hconnack =>
    have hlimit : (c.processSendActual pv).step.conn.maximumPacketSizeSend =
        c.maximumPacketSizeSend := by
      have hmax := congrArg Line.maximumPacketSizeSend hline
      unfold Line.afterSend at hmax
      rw [hconnack] at hmax
      simp only at hmax
      split at hmax <;> exact hmax
    constructor
    · simp only [Step.conn_andThen, line_sendStored, hline]
    · simp only [Step.events_andThen, sends_append, hsends, sends_sendStored, hlimit, storedFit,
        sendConnack_store hconnack]
      rfl
  · exact ⟨hline, hsends⟩

/-- The PUBLISH that goes out: v5.0 may have changed its topic and topic alias. -/
def aliased (c : Connection role pb) : PacketVariant pb → PacketVariant pb
  | .v5Publish p => .v5Publish (c.aliasApplied p).2
  | pv => pv

/-- A PUBLISH leaves the line as it is, and is sent only while connected. -/
def PublishLine (c : Connection role pb) (pv : PacketVariant pb) (r : Sent role pb) : Prop :=
  r.step.conn.line = c.line ∧
    (sends r.step.events = [] ∨ c.status = .connected ∧ sends r.step.events = [pv])

/-- The statement depends on the line only. -/
theorem PublishLine.congr {c c' : Connection role pb} {pv : PacketVariant pb} {r : Sent role pb}
    (h : PublishLine c' pv r) (hline : c'.line = c.line) : PublishLine c pv r := by
  have hstatus : c'.status = c.status := congrArg Line.status hline
  exact ⟨h.1.trans hline, hstatus ▸ h.2⟩

/-- A PUBLISH that is refused is not written. -/
theorem publishLine_failRelease (c : Connection role pb) (pv : PacketVariant pb) (ec : ErrorCode)
    (packetId : Nat) : PublishLine c pv (.failRelease c ec packetId) :=
  ⟨(failRelease_line c ec packetId).1, .inl (failRelease_line c ec packetId).2⟩

/-- A PUBLISH that is not refused is written if the connection is there. -/
theorem finishPublish_line (c : Connection role pb) (pv : PacketVariant pb)
    (release : Option Nat) : PublishLine c pv (c.finishPublish pv release) := by
  cases hs : c.notSendable with
  | true =>
    rw [finishPublish_notSendable hs]
    exact publishLine_failRelease c pv _ _
  | false =>
    rw [finishPublish_sendable hs]
    refine ⟨rfl, ?_⟩
    split
    · next hstatus => exact .inr ⟨hstatus, rfl⟩
    · exact .inl rfl

/-- The Receive Maximum lets a PUBLISH through or refuses it. -/
theorem sendReceiveMaximum_line (c : Connection role pb) (p : V5.PublishPacket pb)
    (release : Option Nat) :
    PublishLine c (.v5Publish p) (c.sendReceiveMaximum p release) := by
  have hfinish := c.finishPublish_line (.v5Publish p) release
  unfold sendReceiveMaximum
  split
  · split
    · exact hfinish
    · split
      · exact publishLine_failRelease c _ _ _
      · exact (finishPublish_line _ (.v5Publish p) release).congr rfl
  · exact hfinish

/-- A PUBLISH that is stopped is not sent. -/
theorem Stopped.sends {c : Connection role pb} {packetId : Nat} {r : Sent role pb}
    (h : Stopped c packetId r) : sends r.step.events = [] := by
  apply List.eq_nil_iff_forall_not_mem.mpr
  intro pv hmem
  obtain ⟨release, he⟩ := mem_sends.mp hmem
  rcases h.events _ he with ⟨ec, h⟩ | h | ⟨x, h⟩ <;> exact nomatch h

/-- A PUBLISH that was stopped is not written. -/
theorem Stopped.line {c : Connection role pb} {packetId : Nat} {r : Sent role pb}
    (h : Stopped c packetId r) (pv : PacketVariant pb) : PublishLine c pv r := by
  obtain ⟨tas, m, hconn, -, -⟩ := h.conn
  exact ⟨by rw [hconn]; rfl, .inl h.sends⟩

/-- Entering a PUBLISH into the store does not change the line. -/
theorem publishEntered_line (c : Connection role pb) (pv : PacketVariant pb) :
    (c.publishEntered pv).line = c.line := by
  rw [publishEntered_eq]
  rfl

/-- A v3.1.1 PUBLISH is written as it is, or not at all. -/
theorem sendPublishV311_line (c : Connection role pb) (p : V311.PublishPacket pb) :
    PublishLine c (.v311Publish p) (c.sendPublishV311 p) := by
  by_cases henters : c.publishEnters (.v311Publish p) = true
  · rw [sendPublishV311_entered henters]
    exact (finishPublish_line _ _ _).congr (c.publishEntered_line _)
  · unfold sendPublishV311
    by_cases hqos : isQos12 p.opts = true
    · have hused : ¬ c.pidMan.isUsedId p.packetId := by
        intro hused
        exact henters (by rw [publishEnters, hqos, hused]; rfl)
      rw [if_pos hqos, if_neg hused]
      exact (stopped_fail c _ p.packetId).line _
    · rw [if_neg hqos]
      exact c.finishPublish_line _ _

/-- A v5 PUBLISH is written with its alias applied, or not at all. -/
theorem sendPublishV5_line (c : Connection role pb) (p : V5.PublishPacket pb) :
    PublishLine c (.v5Publish (c.aliasApplied p).2) (c.sendPublishV5 p) := by
  by_cases henters : c.publishEnters (.v5Publish p) = true
  · rw [sendPublishV5_entered henters rfl]
    have hline := c.publishEntered_line (.v5Publish p)
    split
    · exact (publishLine_failRelease _ _ _ _).congr hline
    · exact (sendReceiveMaximum_line _ _ _).congr hline
  · cases c.sendPublishV5_outcome p with
    | stopped _ hs => exact hs.line _
    | failed hlate => exact absurd (publishFailsLate_enters hlate) henters
    | entered h => exact absurd h henters
    | plain hqos =>
      -- without QoS the packet goes straight to its topic alias
      unfold sendPublishV5
      split
      · exact publishLine_failRelease c _ _ _
      · rw [if_neg (by exact hqos), sendTopicAlias_eq]
        split
        · exact (publishLine_failRelease _ _ _ _).congr rfl
        · exact (sendReceiveMaximum_line _ _ _).congr rfl

/-- The effect of `send` for a PUBLISH. -/
theorem send_line_publish {c : Connection role pb} {pv : PacketVariant pb}
    (htype : pv.type = .publish) :
    (c.send pv).conn.line = c.line ∧ (sends (c.send pv).events = [] ∨
      c.status = .connected ∧ c.passesChecks pv ∧ sends (c.send pv).events = [c.aliased pv]) := by
  by_cases h : c.passesChecks pv = true
  -- the PUBLISH that is processed is the one with its alias
  · have hactual : PublishLine c (c.aliased pv) (c.processSendActual pv) := by
      cases pv with
      | v311Publish p => exact c.sendPublishV311_line p
      | v5Publish p => exact c.sendPublishV5_line p
      | _ => exact nomatch htype
    obtain ⟨hallowed, hsize⟩ := Bool.and_eq_true_iff.mp h
    obtain ⟨hline, hsends⟩ := hactual
    have hconnack : pv.type ≠ .connack := by
      rw [htype]
      exact nofun
    rw [send_of_allowed hallowed hsize, if_neg hconnack]
    -- a PUBLISH that succeeded is followed by the timer only
    split
    · simp only [Step.conn_andThen, Step.events_andThen, sends_append, line_resetPingreqSend,
        sends_resetPingreqSend, List.append_nil]
      refine ⟨hline, ?_⟩
      rcases hsends with hsends | ⟨hstatus, hsends⟩
      · exact .inl hsends
      · exact .inr ⟨hstatus, h, hsends⟩
    · refine ⟨hline, ?_⟩
      rcases hsends with hsends | ⟨hstatus, hsends⟩
      · exact .inl hsends
      · exact .inr ⟨hstatus, h, hsends⟩
  · obtain ⟨hline, hsends⟩ := send_line_refused h
    exact ⟨hline, .inl hsends⟩

/-! ### Answers -/

end Connection

/-- The packets that the connection sends by itself. -/
def PacketVariant.isAnswer {pb : PacketIdBytes} (pv : PacketVariant pb) : Bool :=
  match pv.type with
  | .puback | .pubrec | .pubrel | .pubcomp | .pingreq | .pingresp | .disconnect => true
  | _ => false

namespace Connection

variable {role : Role} {pb : PacketIdBytes}

/-- A step that brings the line to `l` and sends the packets of `stored`, or that brings
    it to `l` and then sends one answer. -/
inductive Answer (l : Line) (stored : List (PacketVariant pb)) (s : Step role pb) : Prop where
  | silent (hline : s.conn.line = l) (hsends : sends s.events = stored)
  | sent (c₁ : Connection role pb) (r : PacketVariant pb) (hc₁ : c₁.line = l) (hr : r.isAnswer)
      (hline : s.conn.line = (c₁.send r).conn.line)
      (hsends : sends s.events = sends (c₁.send r).events)

section

variable {c : Connection role pb} {l : Line} {stored : List (PacketVariant pb)}
  {s : Step role pb}

/-- What follows an answer without effect on the line. -/
theorem Answer.andThen (h : Answer l stored s) {f : Connection role pb → Step role pb}
    (hline : (f s.conn).conn.line = s.conn.line) (hsends : sends (f s.conn).events = []) :
    Answer l stored (s.andThen f) := by
  have hevents : sends (s.andThen f).events = sends s.events := by
    rw [Step.events_andThen, sends_append, hsends, List.append_nil]
  cases h with
  | silent hl hs => exact .silent (hline.trans hl) (hevents.trans hs)
  | sent c₁ r hc₁ hr hl hs => exact .sent c₁ r hc₁ hr (hline.trans hl) (hevents.trans hs)

/-- An answer, followed by an event that writes nothing -/
theorem Answer.emit (h : Answer l stored s) {e : Event pb} (he : sends [e] = []) :
    Answer l stored (s.emit e) := by
  have hevents : sends (s.emit e).events = sends s.events := by
    rw [Step.events_emit, sends_append, he, List.append_nil]
  cases h with
  | silent hl hs => exact .silent hl (hevents.trans hs)
  | sent c₁ r hc₁ hr hl hs => exact .sent c₁ r hc₁ hr hl (hevents.trans hs)

/-- An answer, after which a packet is handed over -/
theorem Answer.andThen_receive (h : Answer l stored s) (pv : PacketVariant pb) :
    Answer l stored (s.andThen (·.receive pv)) :=
  h.andThen (line_receive pv s.conn) (sends_receive pv s.conn)

/-- An answer, after which a timer is set -/
theorem Answer.andThen_pingreqRecvOp (h : Answer l stored s) :
    Answer l stored (s.andThen pingreqRecvOp) :=
  h.andThen (line_pingreqRecvOp s.conn) (sends_pingreqRecvOp s.conn)

/-- A packet that is sent is an answer. -/
theorem answer_send (hline : c.line = l) {r : PacketVariant pb} (hr : r.isAnswer) :
    Answer l stored (c.send r) := .sent c r hline hr rfl rfl

/-- A packet that is sent automatically, if it is -/
theorem answer_respondIf (hline : c.line = l) {r : PacketVariant pb} (hr : r.isAnswer)
    (cond : Bool) : Answer l [] (c.respondIf cond r) := by
  unfold respondIf
  split
  · exact answer_send hline hr
  · exact .silent hline rfl

/-- A v5 DISCONNECT is an answer. -/
theorem answer_disconnectV5 (hline : c.line = l) (reasonCode : UInt8) :
    Answer l stored (c.disconnectV5 reasonCode) := (answer_send hline rfl).emit rfl

/-- The answer to a packet identifier of 0 -/
theorem answer_invalidPacketId (hline : c.line = l) (ver : ProtocolVersion) :
    Answer l [] (c.invalidPacketId ver) := by
  unfold invalidPacketId
  split
  · exact answer_disconnectV5 hline _
  · exact .silent hline rfl

/-- A PUBACK is an answer. -/
theorem pubackOf_isAnswer (ver : ProtocolVersion) (packetId : Nat) :
    (pubackOf ver pb packetId).isAnswer := by
  unfold pubackOf
  split <;> rfl

/-- A PUBREC is an answer. -/
theorem pubrecOf_isAnswer (ver : ProtocolVersion) (packetId : Nat) :
    (pubrecOf ver pb packetId).isAnswer := by
  unfold pubrecOf
  split <;> rfl

/-- A PUBREL is an answer. -/
theorem pubrelOf_isAnswer (ver : ProtocolVersion) (packetId : Nat) :
    (pubrelOf ver pb packetId).isAnswer := by
  unfold pubrelOf
  split <;> rfl

/-- A PUBCOMP is an answer. -/
theorem pubcompOf_isAnswer (ver : ProtocolVersion) (packetId : Nat) :
    (pubcompOf ver pb packetId).isAnswer := by
  unfold pubcompOf
  split <;> rfl

/-! ### Receiving -/

/-- A PUBLISH that counts against the receive maximum and does not exceed it. -/
def acceptsPublish (c : Connection role pb) : PacketVariant pb → Bool
  | .v5Publish p => c.status = .connected && isQos12 p.opts && ! c.recvMaximumReached
  | _ => false

/-- A CONNACK that accepts the connection, and comes when one is expected. -/
def acceptsConnack (c : Connection role pb) (pv : PacketVariant pb) : Bool :=
  pv.acceptsConnection && c.status = .connecting

/-- The line after a packet was received, before it is answered. -/
def lineAfterRecv (c : Connection role pb) (pv : PacketVariant pb) : Line :=
  match pv.type with
  | .connect =>
    if c.status = .disconnected then
      ⟨pv.version, .connecting, pv.maximumPacketSize c.maximumPacketSizeSend, none, ∅⟩
    else c.line
  | .connack =>
    if c.acceptsConnack pv then
      { c.line with
        status := .connected
        maximumPacketSizeSend := pv.maximumPacketSize c.maximumPacketSizeSend }
    else c.line
  | .disconnect =>
    if c.status = .connected then { c.line with status := .disconnected } else c.line
  | .publish =>
    if c.acceptsPublish pv then
      { c.line with publishRecv := c.publishRecv.insert pv.packetId }
    else c.line
  | _ => c.line

/-- The stored packets that are sent when a packet is received. -/
def resumed (c : Connection role pb) (pv : PacketVariant pb) : List (PacketVariant pb) :=
  if c.acceptsConnack pv ∧ pv.view.sessionPresent then
    c.storedFit (pv.maximumPacketSize c.maximumPacketSizeSend)
  else []

/-- The line after a v3.1.1 CONNECT was received -/
theorem line_recvConnectV311 (p : V311.ConnectPacket) (c : Connection role pb) :
    (c.recvConnectV311 p).line = ⟨.v311, .connecting, c.maximumPacketSizeSend, none, ∅⟩ := by
  simp only [recvConnectV311, recvKeepAlive_eq]
  split <;> rfl

/-- The line after a v5 CONNECT was received -/
theorem line_recvConnectV5 (p : V5.ConnectPacket) (c : Connection role pb) :
    (c.recvConnectV5 p).line =
      ⟨.v5, .connecting, lastVal .maximumPacketSize (fun n => n) c.maximumPacketSizeSend p.props,
        none, ∅⟩ := by
  simp only [recvConnectV5, recvKeepAlive_eq]
  generalize hc₀ : (if p.cleanStart = true then _ else _ : Connection role pb) = c₀
  have hline : c₀.line = ⟨.v5, .connecting, c.maximumPacketSizeSend, none, ∅⟩ := by
    rw [← hc₀]
    split <;> rfl
  have hlimit := recvConnectProps_sizeSend p.props c₀
  -- clean start leaves the limit alone
  have hlimit₀ : c₀.maximumPacketSizeSend = c.maximumPacketSizeSend :=
    congrArg Line.maximumPacketSizeSend hline
  obtain ⟨tas, mps, ns, hprops, -⟩ := foldl_recvConnectProp p.props c₀
  rw [hprops] at hlimit ⊢
  simp only [hlimit₀] at hlimit
  subst hlimit
  simp only [line, Line.mk.injEq] at hline ⊢
  exact ⟨hline.1, hline.2.1, trivial, hline.2.2.2⟩

/-- Clearing the session does not change the line. -/
@[simp] theorem line_clearSession (c : Connection role pb) : c.clearSession.line = c.line := rfl

/-- Resuming a session writes what the store holds, as far as it fits. -/
theorem resumeSession_line (sessionPresent : Bool) (c : Connection role pb) :
    (c.resumeSession sessionPresent).conn.line = c.line ∧
      sends (c.resumeSession sessionPresent).events =
        if sessionPresent then c.storedFit c.maximumPacketSizeSend else [] := by
  unfold resumeSession
  split
  · exact ⟨c.line_sendStored, c.sends_sendStored⟩
  · exact ⟨rfl, rfl⟩

/-- A CONNACK that accepts the connection is followed by the stored packets. -/
theorem recvConnackV311_line (p : V311.ConnackPacket) (hstatus : c.status = .connecting) :
    Answer (c.lineAfterRecv (.v311Connack p)) (c.resumed (.v311Connack p))
      ((c.recvConnackV311 p).emit (.receive (.v311Connack p))) := by
  have haccepts : c.acceptsConnack (.v311Connack p) = decide (p.code = 0) := by
    rw [acceptsConnack, hstatus]
    exact Bool.and_true _
  apply Answer.emit _ rfl
  unfold recvConnackV311 lineAfterRecv resumed
  simp only [PacketVariant.type, haccepts, decide_eq_true_eq]
  -- the store is sent again, or the connection is refused
  split
  · next hcode =>
    obtain ⟨hline, hsends⟩ := resumeSession_line p.sessionPresent
      ({ c with status := .connected } : Connection role pb)
    apply Answer.silent hline
    rw [hsends]
    simp only [hcode, true_and]
    rfl
  · next hcode =>
    refine .silent rfl ?_
    simp only [hcode, false_and, if_false]
    rfl

/-- A v5 CONNACK sets the limits of the line and is followed by the store. -/
theorem recvConnackV5_line (p : V5.ConnackPacket) (hstatus : c.status = .connecting) :
    Answer (c.lineAfterRecv (.v5Connack p)) (c.resumed (.v5Connack p))
      ((c.recvConnackV5 p).emit (.receive (.v5Connack p))) := by
  have haccepts : c.acceptsConnack (.v5Connack p) = decide (p.code = ConnectReasonCode.success) := by
    rw [acceptsConnack, hstatus]
    exact Bool.and_true _
  apply Answer.emit _ rfl
  unfold recvConnackV5 lineAfterRecv resumed
  simp only [PacketVariant.type, haccepts, decide_eq_true_eq]
  -- the properties come before the store is sent again
  split
  · next hcode =>
    obtain ⟨tas, int, set, hprops, -⟩ := recvConnackProps_conn p.props
      ({ c with status := .connected } : Connection role pb)
    obtain ⟨hline, hsends⟩ := resumeSession_line p.sessionPresent
      (recvConnackProps p.props ({ c with status := .connected } : Connection role pb)).conn
    apply Answer.silent
    · rw [Step.conn_andThen, hline, hprops]
      rfl
    · rw [Step.events_andThen, sends_append, sends_recvConnackProps, hsends, hprops]
      simp only [hcode, true_and]
      rfl
  · next hcode =>
    refine .silent rfl ?_
    simp only [hcode, false_and, if_false]
    rfl

/-- What follows the QoS part of a PUBLISH does not change the line by itself. -/
theorem recvPublishTopicV5_line (p : V5.PublishPacket pb) {response : Option (PacketVariant pb)}
    (hresponse : ∀ pv ∈ response, pv.isAnswer) (alreadyHandled : Bool) (hline : c.line = l) :
    Answer l [] (c.recvPublishTopicV5 p response alreadyHandled) := by
  unfold recvPublishTopicV5
  -- the alias is not known, and a DISCONNECT is the answer
  split
  · exact answer_disconnectV5 hline _
  · next c' p' halias =>
    obtain ⟨⟨tar, rfl⟩, -, -⟩ := recvTopicAlias_eq halias
    dsimp only
    generalize hs : Step.andThen _ pingreqRecvOp = s
    have hsent : Answer l [] s := by
      rw [← hs]
      -- the answer is all that is sent
      apply Answer.andThen_pingreqRecvOp
      cases response with
      | none => exact .silent hline rfl
      | some pv =>
        exact answer_send (c := { c with topicAliasRecv := tar }) hline (hresponse pv rfl)
    split
    · exact hsent
    · exact hsent.emit rfl

/-- A v3.1.1 PUBLISH is answered by its response, if it has one. -/
theorem recvPublishV311_line (p : V311.PublishPacket pb) (c : Connection role pb) :
    Answer c.line [] (c.recvPublishV311 p) := by
  unfold recvPublishV311
  split
  · exact .silent (line_receive _ c) (sends_receive _ c)
  · exact (answer_respondIf rfl (pubackOf_isAnswer _ _) _).andThen_receive _
  · dsimp only
    generalize hs : Step.andThen _ pingreqRecvOp = s
    have hsent : Answer c.line [] s := by
      rw [← hs]
      apply Answer.andThen_pingreqRecvOp
      apply answer_respondIf
      · rfl
      · exact pubrecOf_isAnswer _ _
    split
    · exact hsent
    · exact hsent.emit rfl
  · exact .silent rfl rfl

/-- A PUBLISH that is accepted is recorded before its topic alias is looked at. -/
theorem recvPublishV5_line (p : V5.PublishPacket pb) (hstatus : c.status = .connected) :
    Answer (c.lineAfterRecv (.v5Publish p)) [] (c.recvPublishV5 p) := by
  have hline : c.lineAfterRecv (.v5Publish p) =
      if isQos12 p.opts && ! c.recvMaximumReached then
        { c.line with publishRecv := c.publishRecv.insert p.packetId }
      else c.line := by
    unfold lineAfterRecv
    simp only [PacketVariant.type, acceptsPublish, hstatus, decide_true, Bool.true_and]
    rfl
  -- QoS 1 and QoS 2 differ in the response only
  unfold recvPublishV5
  split
  · next hqos =>
    have hqos : isQos12 p.opts = true := isQos12_iff_toNat.mpr (.inl hqos)
    split
    · next hmax =>
      rw [hline, hmax, hqos]
      exact answer_disconnectV5 rfl _
    · next hmax =>
      rw [hline, hqos, Bool.eq_false_iff.mpr hmax]
      exact recvPublishTopicV5_line p (forall_mem_response _ (pubackOf_isAnswer _ _)) _ rfl
  · next hqos =>
    have hqos : isQos12 p.opts = true := isQos12_iff_toNat.mpr (.inr hqos)
    split
    · next hmax =>
      rw [hline, hmax, hqos]
      exact answer_disconnectV5 rfl _
    · next hmax =>
      rw [hline, hqos, Bool.eq_false_iff.mpr hmax]
      exact recvPublishTopicV5_line p (forall_mem_response _ (pubrecOf_isAnswer _ _)) _ rfl
  · next h1 h2 =>
    have hqos : isQos12 p.opts = false :=
      Bool.eq_false_iff.mpr fun hqos => (isQos12_iff_toNat.mp hqos).elim h1 h2
    rw [hline, hqos]
    exact recvPublishTopicV5_line p (fun _ hpv => absurd hpv (Option.not_mem_none _)) _ rfl

/-- Handing a packet over is no answer. -/
theorem answer_receive (hline : c.line = l) (pv : PacketVariant pb) :
    Answer l [] (c.receive pv) :=
  .silent ((line_receive pv c).trans hline) (sends_receive pv c)

/-- PUBACK, PUBCOMP, SUBACK and UNSUBACK are not answered. -/
theorem recvAck_line (ver : ProtocolVersion) (pv : PacketVariant pb) (c : Connection role pb) :
    Answer c.line [] (c.recvPuback ver pv) ∧ Answer c.line [] (c.recvPubcomp ver pv) ∧
      Answer c.line [] (c.recvSuback ver pv) ∧ Answer c.line [] (c.recvUnsuback ver pv) := by
  have hcount : ∀ c' : Connection role pb,
      (if ver = .v5 then c'.decPublishSendCount else c').line = c'.line := by
    intro c'
    rw [decPublishSendCount_eq]
    split <;> rfl
  -- the identifier is given back, and the packet handed over
  have hreleased : ∀ {c' c'' : Connection role pb} (packetId : Nat), c'.line = c.line →
      c''.line = c.line → Answer c.line []
        ((c'.releaseId packetId).andThen fun _ => c''.receive pv) := by
    intro c' c'' packetId hc' hc''
    exact .silent ((line_receive pv c'').trans hc'') (by
      rw [Step.events_andThen, sends_append, sends_receive]
      rfl)
  unfold recvPuback recvPubcomp recvSuback recvUnsuback
  refine ⟨?_, ?_, ?_, ?_⟩
  · dsimp only
    split
    · exact hreleased _ rfl (hcount _)
    · exact answer_invalidPacketId rfl ver
  · dsimp only
    split
    · exact hreleased _ rfl (hcount _)
    · exact answer_invalidPacketId rfl ver
  · split
    · exact hreleased _ rfl rfl
    · exact answer_invalidPacketId rfl ver
  · split
    · exact hreleased _ rfl rfl
    · exact answer_invalidPacketId rfl ver

/-- A PUBREC is answered with a PUBREL, unless its reason code is a failure. -/
theorem recvPubrec_line (ver : ProtocolVersion) (failed : Bool) (pv : PacketVariant pb)
    (c : Connection role pb) : Answer c.line [] (c.recvPubrec ver failed pv) := by
  unfold recvPubrec
  dsimp only
  split
  · apply Answer.andThen_receive
    split
    · refine .silent ?_ rfl
      rw [Step.conn_andThen, decPublishSendCount_eq]
      rfl
    · apply answer_respondIf
      · rfl
      · exact pubrelOf_isAnswer _ _
  · exact answer_invalidPacketId rfl ver

/-- The effect of a packet that is received when it is allowed. -/
theorem processRecvActual_line {pv : PacketVariant pb} (h : c.recvAllowed pv) :
    Answer (c.lineAfterRecv pv) (c.resumed pv) (c.processRecvActual pv) := by
  -- only CONNECT, CONNACK, PUBLISH and DISCONNECT change the line
  cases pv with
  | v311Connect p =>
    have hstatus : c.status = .disconnected := of_decide_eq_true h
    apply answer_receive
    rw [line_recvConnectV311]
    unfold lineAfterRecv
    simp only [PacketVariant.type, hstatus]
    rfl
  | v5Connect p =>
    have hstatus : c.status = .disconnected := of_decide_eq_true h
    apply answer_receive
    rw [line_recvConnectV5]
    unfold lineAfterRecv
    simp only [PacketVariant.type, hstatus]
    rfl
  | v311Connack p => exact recvConnackV311_line p (of_decide_eq_true h)
  | v5Connack p => exact recvConnackV5_line p (of_decide_eq_true h)
  | v311Publish p => exact recvPublishV311_line p c
  | v5Publish p => exact recvPublishV5_line p (of_decide_eq_true h)
  | v311Puback p | v5Puback p => exact (recvAck_line _ _ c).1
  | v311Pubcomp p | v5Pubcomp p => exact (recvAck_line _ _ c).2.1
  | v311Suback p | v5Suback p => exact (recvAck_line _ _ c).2.2.1
  | v311Unsuback p | v5Unsuback p => exact (recvAck_line _ _ c).2.2.2
  | v311Pubrec p | v5Pubrec p => exact recvPubrec_line _ _ _ c
  | v311Pubrel p | v5Pubrel p =>
    apply Answer.andThen_receive
    apply answer_respondIf
    · rfl
    · exact pubcompOf_isAnswer _ _
  | v311Pingreq p | v5Pingreq p => exact (answer_respondIf rfl rfl _).andThen_receive _
  | v311Pingresp p | v5Pingresp p => exact .silent rfl rfl
  | v311Disconnect p | v5Disconnect p =>
    have hstatus : c.status = .connected := of_decide_eq_true h
    refine .silent ?_ ?_
    · rw [processRecvActual, recvDisconnect, Step.conn_emit, cancelTimers_conn]
      unfold lineAfterRecv
      simp only [PacketVariant.type, hstatus]
      rfl
    · rw [processRecvActual, recvDisconnect, Step.events_emit, sends_append, sends_cancelTimers]
      rfl
  | v311Subscribe p | v5Subscribe p | v311Unsubscribe p | v5Unsubscribe p | v5Auth p =>
    exact answer_receive rfl _

/-- A packet that comes when it is not allowed has no effect on the line. -/
theorem lineAfterRecv_of_not_allowed {pv : PacketVariant pb} (h : ¬ c.recvAllowed pv) :
    c.lineAfterRecv pv = c.line ∧ c.resumed pv = [] := by
  -- a CONNACK or PUBLISH that the status forbids is not accepted
  have hconnack : c.acceptsConnack pv = false := by
    by_contra hcontra
    rw [Bool.not_eq_false, acceptsConnack, PacketVariant.acceptsConnection, Bool.and_eq_true,
      Bool.and_eq_true, decide_eq_true_eq] at hcontra
    apply h
    rw [recvAllowed, hcontra.1.1]
    exact hcontra.2
  have hpublish : c.acceptsPublish pv = false := by
    cases pv with
    | v5Publish p =>
      have hstatus : c.status ≠ .connected := fun hs => h (decide_eq_true hs)
      simp [acceptsPublish, hstatus]
    | _ => rfl
  constructor
  · unfold lineAfterRecv
    unfold recvAllowed at h
    split
    · next htype =>
      rw [htype] at h
      exact if_neg fun hs => h (decide_eq_true hs)
    · exact if_neg (by rw [hconnack]; exact Bool.false_ne_true)
    · next htype =>
      rw [htype] at h
      exact if_neg fun hs => h (decide_eq_true hs)
    · exact if_neg (by rw [hpublish]; exact Bool.false_ne_true)
    · rfl
  · rw [resumed, hconnack]
    rfl

/-- The effect of a packet that is received. -/
theorem processRecvDecoded_line (pv : PacketVariant pb) (c : Connection role pb) :
    Answer (c.lineAfterRecv pv) (c.resumed pv) (c.processRecvDecoded pv) := by
  unfold processRecvDecoded
  split
  · next h => exact processRecvActual_line h
  · next h =>
    obtain ⟨hline, hresumed⟩ := lineAfterRecv_of_not_allowed h
    rw [hline, hresumed]
    exact .silent rfl rfl

/-- The framing of the stream has failed. -/
def framingFails (is : List UInt8) (c : Connection role pb) : Bool :=
  match (c.rpb.recv is).2.1 with
  | some (.ec _) => true
  | _ => false

/-- The line after a call of `recv`, before it is answered. -/
def recvLine (is : List UInt8) (c : Connection role pb) : Line :=
  match c.received is with
  | some pv => c.lineAfterRecv pv
  | none => if c.framingFails is then { c.line with status := .disconnected } else c.line

/-- The stored packets that a call of `recv` sends. -/
def recvResumed (is : List UInt8) (c : Connection role pb) : List (PacketVariant pb) :=
  match c.received is with
  | some pv => c.resumed pv
  | none => []

/-- The effect of `recv`: it is that of the packet it completes, or it sends the CONNACK for
    a CONNECT that cannot be decoded. -/
theorem recv_line (is : List UInt8) (c : Connection role pb) :
    Answer (c.recvLine is) (c.recvResumed is) (c.recv is).1 ∨
    ∃ value c₁, c.refusedConnect is = some value ∧
      c₁ = { c with rpb := (c.rpb.recv is).1, status := .connecting } ∧
      (c.recv is).1 = (c₁.send (c.refusal value)).emit (.error (.connect value)) := by
  cases hreceived : c.received is with
  | some pv =>
    left
    rw [recv_of_received hreceived, recvLine, recvResumed, hreceived]
    exact processRecvDecoded_line pv { c with rpb := (c.rpb.recv is).1 }
  | none =>
    rw [recvLine, recvResumed, hreceived]
    unfold recv refusedConnect framingFails
    unfold received at hreceived
    rcases hrecv : c.rpb.recv is with ⟨rpb, out, rest⟩
    rw [hrecv] at hreceived
    -- nothing was decoded: the frame is not complete, or broken, or its packet is
    rcases out with _ | ⟨ec | buf⟩
    · exact .inl (.silent rfl rfl)
    · left
      refine .silent ?_ ?_
      · simp only [processRecvPacket, Step.conn_emit, cancelTimers_conn]
        rfl
      · simp only [processRecvPacket, Step.events_emit, sends_append, sends_cancelTimers]
        rfl
    · simp only [processRecvPacket, Bool.false_eq_true, if_false] at hreceived ⊢
      split
      · left
        apply answer_disconnectV5
        rfl
      · next hsize =>
        rw [if_neg hsize] at hreceived
        split
        · next pv rest' hrun =>
          rw [hrun] at hreceived
          cases hreceived
        · next ec hrun =>
          unfold processRecvError
          simp only
          -- only a malformed CONNECT is answered with a CONNACK
          split
          · next hrefused =>
            refine .inr ⟨UInt8.ofNat ec.value, _, ?_, rfl, rfl⟩
            rw [hrun]
            exact if_pos hrefused
          · split
            · left
              apply answer_disconnectV5
              rfl
            · exact .inl (.silent rfl rfl)
        · exact .inl (.silent rfl rfl)

/-! ### Timers and the end of the connection -/

/-- A server that hears nothing for too long disconnects. -/
theorem recvTimerFired_line (hline : c.line = l) : Answer l [] c.recvTimerFired := by
  unfold recvTimerFired
  split
  · exact .silent hline rfl
  · split
    · exact answer_send hline rfl
    · exact .silent hline rfl
  · exact .silent hline rfl

/-- Each timer is followed by one packet at most. -/
theorem notifyTimerFired_line (kind : TimerKind) (c : Connection role pb) :
    Answer c.line [] (c.notifyTimerFired kind) := by
  unfold notifyTimerFired
  split
  · dsimp only
    split
    · split
      · apply answer_send <;> rfl
      · exact .silent rfl rfl
    · split
      · apply answer_send <;> rfl
      · exact .silent rfl rfl
    · exact .silent rfl rfl
  · exact recvTimerFired_line rfl
  · exact recvTimerFired_line rfl

/-- Giving packet identifiers back writes nothing. -/
theorem sends_releasePacketIds (ids : List Nat) (c : Connection role pb) :
    sends (releasePacketIds ids c).events = [] := by
  induction ids generalizing c with
  | nil => rfl
  | cons packetId ids ih =>
    have hone : sends (c.releasePacketId packetId).events = [] := by
      unfold releasePacketId
      split <;> rfl
    rw [releasePacketIds, Step.events_andThen, sends_append, hone, ih]
    rfl

/-- `notify_closed` sends nothing, and forgets the maximum packet size of the peer. -/
theorem notifyClosed_line (c : Connection role pb) :
    c.notifyClosed.conn.line =
        { c.line with status := .disconnected, maximumPacketSizeSend := packetSizeNoLimit } ∧
      sends c.notifyClosed.events = [] := by
  constructor
  · rw [notifyClosed_conn]
    rfl
  · unfold notifyClosed
    dsimp only
    split <;>
      simp only [Step.events_andThen, sends_append, sends_releasePacketIds, sends_cancelTimers,
        List.append_nil]

end

end Connection

/-- The calls that have nothing to do with the line. -/
def Connection.Op.isLocal {pb : PacketIdBytes} : Connection.Op pb → Bool
  | .send _ | .recv _ | .notifyTimerFired _ | .notifyClosed => false
  | _ => true

namespace Connection

variable {role : Role} {pb : PacketIdBytes}

/-- Calls that touch packet identifiers, the store or the settings do not reach the line. -/
theorem call_line_local {op : Op pb} (h : op.isLocal) (c : Connection role pb) :
    (c.call op).conn.line = c.line ∧ sends (c.call op).events = [] := by
  cases op with
  | send pv | recv is | notifyTimerFired kind | notifyClosed => exact nomatch h
  | restorePackets pvs =>
    obtain ⟨m, st, a, b, d, heq⟩ := c.restorePackets_eq pvs
    rw [call, heq]
    exact ⟨rfl, rfl⟩
  | releasePacketId id =>
    rw [call, releasePacketId]
    split <;> exact ⟨rfl, rfl⟩
  | setPingreqSendInterval duration =>
    rw [call, setPingreqSendInterval]
    split <;> exact ⟨rfl, rfl⟩
  | _ => exact ⟨rfl, rfl⟩

end Connection

end AsyncMqtt
