import AsyncMqtt.Spec.Line
import AsyncMqtt.Spec.ReceivedCorrect

/-!
# What `recv` tells its owner

Of the calls that `recv` makes to its owner, these are about the connection as a whole: a
packet was received, something is wrong with the stream, a DISCONNECT is to be sent, the
connection is to be closed. `signals` picks them out. What the nested calls of `send`
report about packets that they cannot send is not among them.

## Key results

- `Connection.signals_send`: an answer signals nothing, unless it is a DISCONNECT
- `Connection.recv_signals`: the ways a call of `recv` can go
-/

namespace AsyncMqtt

/-- The calls to the owner that are about the connection as a whole. -/
def Event.isSignal {pb : PacketIdBytes} : Event pb → Bool
  | .error ec => ec.category ≠ .mqttError
  | .close => true
  | .receive _ => true
  | .send pv _ => pv.type = .disconnect
  | _ => false

/-- The signals among all events. -/
def signals {pb : PacketIdBytes} (es : List (Event pb)) : List (Event pb) :=
  es.filter Event.isSignal

/-- No events signal nothing. -/
@[simp] theorem signals_nil {pb : PacketIdBytes} : signals ([] : List (Event pb)) = [] := rfl

/-- The signals of a longer list of events -/
@[simp] theorem signals_append {pb : PacketIdBytes} (es fs : List (Event pb)) :
    signals (es ++ fs) = signals es ++ signals fs := List.filter_append ..

/-- A signal among the events -/
theorem mem_signals {pb : PacketIdBytes} {es : List (Event pb)} {e : Event pb} :
    e ∈ signals es ↔ e ∈ es ∧ e.isSignal = true := List.mem_filter

/-- The packets that are given to the application, in order. -/
def receives {pb : PacketIdBytes} (es : List (Event pb)) : List (PacketVariant pb) :=
  es.filterMap fun e =>
    match e with
    | .receive pv => some pv
    | _ => none

/-- No events hand nothing over. -/
@[simp] theorem receives_nil {pb : PacketIdBytes} : receives ([] : List (Event pb)) = [] := rfl

/-- What a longer list of events hands over -/
@[simp] theorem receives_append {pb : PacketIdBytes} (es fs : List (Event pb)) :
    receives (es ++ fs) = receives es ++ receives fs := List.filterMap_append ..

/-- The packets that are given to the application are among the signals. -/
theorem receives_signals {pb : PacketIdBytes} (es : List (Event pb)) :
    receives (signals es) = receives es := by
  induction es with
  | nil => rfl
  | cons e es ih =>
    have hcons : ∀ fs : List (Event pb), receives (e :: fs) = receives [e] ++ receives fs :=
      fun fs => receives_append [e] fs
    by_cases he : e.isSignal = true
    · rw [signals, List.filter_cons_of_pos he, hcons, hcons es, ← ih]
      rfl
    · have hnone : receives [e] = [] := by
        cases e with
        | receive pv => exact absurd rfl he
        | _ => rfl
      rw [signals, List.filter_cons_of_neg he, hcons es, hnone, List.nil_append]
      exact ih

namespace Connection

variable {role : Role} {pb : PacketIdBytes}

/-! ### Timers and stored packets -/

/-- Cancelling timers signals nothing. -/
@[simp] theorem signals_cancelTimers (c : Connection role pb) :
    signals c.cancelTimers.events = [] := by
  simp only [cancelTimers, cancelTimer, Step.events_andThen, Step.conn_andThen, signals_append]
  split <;> split <;> split <;> rfl

/-- Setting the timer for the PINGREQ of the client signals nothing. -/
@[simp] theorem signals_pingreqRecvOp (c : Connection role pb) :
    signals c.pingreqRecvOp.events = [] := by
  unfold pingreqRecvOp
  split
  · rfl
  · split <;> rfl

/-- Setting the timer for the PINGREQ signals nothing. -/
@[simp] theorem signals_resetPingreqSend (c : Connection role pb) :
    signals c.resetPingreqSend.events = [] := by
  unfold resetPingreqSend
  split
  · split <;> rfl
  · rfl

/-- Handing a packet over is one signal. -/
@[simp] theorem signals_receive (pv : PacketVariant pb) (c : Connection role pb) :
    signals (c.receive pv).events = [.receive pv] := by
  rw [receive, Step.events_emit, signals_append, signals_pingreqRecvOp]
  rfl

/-- The properties of a CONNACK signal nothing. -/
@[simp] theorem signals_recvConnackProps (props : Properties) (c : Connection role pb) :
    signals (recvConnackProps props c).events = [] := by
  induction props generalizing c with
  | nil => rfl
  | cons prop props ih =>
    have hone : signals (recvConnackProp prop c).events = [] := by
      unfold recvConnackProp setPingreqSendInterval
      split <;> (try split) <;> (try split) <;> rfl
    rw [recvConnackProps, Step.events_andThen, signals_append, hone, ih]
    rfl

/-- A stored packet is a PUBLISH or a PUBREL. -/
@[simp] theorem signals_sendStored (c : Connection role pb) : signals c.sendStored.events = [] := by
  have helems : ∀ (pvs : List (StorePacketVariant pb)) (c : Connection role pb),
      signals (sendStoredElems pvs c).events = [] := by
    intro pvs
    induction pvs with
    | nil => exact fun _ => rfl
    | cons pv pvs ih =>
      intro c
      have hone : signals ((if c.maximumPacketSizeSend < pv.size then c.releaseId pv.packetId
          else ⟨c, [.send pv.packet.toPacketVariant none]⟩ : Step role pb)).events = [] := by
        split
        · rfl
        · cases pv.packet <;> rfl
      rw [sendStoredElems, Step.events_andThen, signals_append, hone, ih]
      rfl
  rw [sendStored, Step.events_andThen, signals_append, helems]
  rfl

/-- Resuming a session signals nothing. -/
@[simp] theorem signals_resumeSession (sessionPresent : Bool) (c : Connection role pb) :
    signals (c.resumeSession sessionPresent).events = [] := by
  unfold resumeSession
  split
  · exact c.signals_sendStored
  · rfl

/-- Setting the timer for the PINGREQ hands nothing over. -/
@[simp] theorem receives_resetPingreqSend (c : Connection role pb) :
    receives c.resetPingreqSend.events = [] := by
  rw [← receives_signals, signals_resetPingreqSend]
  rfl

/-! ### Sending -/

/-- A packet that may not be sent signals nothing. -/
theorem signals_failRelease (c : Connection role pb) (packetId : Nat) :
    signals (Sent.failRelease c MqttError.packetNotAllowedToSend packetId).step.events = [] := by
  unfold Sent.failRelease
  split <;> rfl

/-- A packet that is refused signals nothing. -/
theorem signals_send_refused {c : Connection role pb} {pv : PacketVariant pb}
    (h : ¬ c.passesChecks pv) : signals (c.send pv).events = [] := by
  obtain ⟨packetId, hsend⟩ := send_refused h
  rw [hsend]
  exact signals_failRelease c _

/-- What stops a PUBLISH or lets it go out gives nothing to the application. -/
theorem PublishOutcome.receives {c : Connection role pb} {pv : PacketVariant pb}
    {r : Sent role pb} (h : PublishOutcome c pv r) : receives r.step.events = [] := by
  cases h with
  | stopped henters hs =>
    apply List.filterMap_eq_nil_iff.mpr
    intro e he
    rcases hs.events e he with ⟨ec, rfl⟩ | rfl | ⟨x, rfl⟩ <;> rfl
  | plain _ _ _ _ _ _ _ hevents =>
    rw [hevents]
    split <;> rfl
  | failed _ ec _ hr =>
    rw [hr]
    unfold Sent.failRelease
    split <;> rfl
  | entered _ _ _ _ _ _ _ _ hevents =>
    rw [hevents]
    split <;> rfl

/-- `send` gives nothing to the application. -/
theorem receives_send (pv : PacketVariant pb) (c : Connection role pb) :
    receives (c.send pv).events = [] := by
  by_cases hallowed : c.sendAllowed pv = true
  · by_cases hsize : c.validateMaximumPacketSize pv.size = true
    -- the answer to a CONNECT may cancel timers before it goes out
    · have hconnack : ∀ s : Step role pb, receives s.events = [] → ∀ pv' : PacketVariant pb,
          receives (s.emit (.send pv' none)).events = [] := by
        intro s hs pv'
        rw [Step.events_emit, receives_append, hs]
        rfl
      have hcancel : ∀ c : Connection role pb, receives c.cancelTimers.events = [] := by
        intro c
        rw [← receives_signals, signals_cancelTimers]
        rfl
      have hactual : receives (c.processSendActual pv).step.events = [] := by
        cases pv with
        | v311Connack p =>
          apply hconnack
          unfold sendConnackV311
          split
          · rfl
          · exact hcancel _
        | v5Connack p =>
          apply hconnack
          unfold sendConnackV5
          split
          · rfl
          · exact hcancel _
        | v311Publish p => exact (c.sendPublishV311_outcome p).receives
        | v5Publish p => exact (c.sendPublishV5_outcome p).receives
        | v311Pingreq p | v5Pingreq p =>
          simp only [processSendActual, sendPingreq]
          split <;> rfl
        | v311Disconnect p | v5Disconnect p =>
          simp only [processSendActual, sendDisconnect, Step.events_emit, receives_append, hcancel]
          rfl
        | _ => rfl
      have hstored : ∀ c : Connection role pb, receives c.sendStored.events = [] := by
        intro c
        rw [← receives_signals, signals_sendStored]
        rfl
      rw [send_of_allowed hallowed hsize]
      split
      · split <;>
          simp only [Step.events_andThen, receives_append, hactual, hstored,
            receives_resetPingreqSend, List.append_nil]
      · exact hactual
    · rw [send_of_too_large hallowed hsize, ← receives_signals, signals_failRelease]
      rfl
  · rw [send_of_not_allowed hallowed]
    rfl

/-- An answer, and the CONNACK that refuses a CONNECT, signal nothing, unless it is a
    DISCONNECT that is sent. -/
theorem signals_send {r : PacketVariant pb} (hr : r.isAnswer ∨ r.type = .connack)
    (c : Connection role pb) :
    signals (c.send r).events =
      if r.type = .disconnect ∧ c.passesChecks r then [.send r none, .close] else [] := by
  by_cases hpass : c.passesChecks r = true
  · obtain ⟨hallowed, hsize⟩ := Bool.and_eq_true_iff.mp hpass
    have hactual : signals (c.processSendActual r).step.events =
        if r.type = .disconnect then [.send r none, .close] else [] := by
      -- a PINGREQ and a DISCONNECT of either version
      have hping : ∀ pv : PacketVariant pb, pv.type = .pingreq →
          signals (c.sendPingreq pv).step.events = [] := by
        intro pv htype
        unfold sendPingreq
        split <;> simp [signals, Sent.send, Event.isSignal, htype]
      have hdisconnect : ∀ pv : PacketVariant pb, pv.type = .disconnect →
          signals (c.sendDisconnect pv).step.events = [.send pv none, .close] := by
        intro pv htype
        simp only [sendDisconnect, Step.events_emit, signals_append, signals_cancelTimers]
        simp [signals, Event.isSignal, htype]
      -- of the answers only a DISCONNECT closes
      cases r with
      | v311Connack p =>
        simp only [processSendActual, Step.events_emit, signals_append]
        unfold sendConnackV311
        split
        · rfl
        · rw [signals_cancelTimers]
          rfl
      | v5Connack p =>
        simp only [processSendActual, Step.events_emit, signals_append]
        unfold sendConnackV5
        split
        · rfl
        · rw [signals_cancelTimers]
          rfl
      | v311Pingreq p | v5Pingreq p => exact hping _ rfl
      | v311Disconnect p | v5Disconnect p => exact hdisconnect _ rfl
      | v311Publish p | v5Publish p => rcases hr with hr | hr <;> cases hr
      | _ => rfl
    rw [send_of_allowed hallowed hsize]
    -- the store and the timer signal nothing
    split
    · split <;>
        simp only [Step.events_andThen, signals_append, signals_resetPingreqSend,
          signals_sendStored, hactual, hpass, and_true, List.append_nil]
    · simp only [hactual, hpass, and_true]
  · rw [signals_send_refused hpass, if_neg fun h => hpass h.2]

/-- A DISCONNECT can be sent: the connection is a v5.0 connection and is there, and the
    three bytes of the packet fit. -/
def canDisconnect (l : Line) : Bool :=
  l.protocolVersion = .v5 && l.status = .connected && decide (3 ≤ l.maximumPacketSizeSend)

/-- A DISCONNECT passes the checks exactly when the line allows one. -/
theorem passesChecks_disconnect (c : Connection role pb) (reasonCode : UInt8) :
    c.passesChecks (.v5Disconnect (V5.disconnectOf reasonCode)) = canDisconnect c.line := by
  have hrole : (canSendAsClient role || canSendAsServer role) = true := by cases role <;> rfl
  have hallowed : c.sendAllowed (.v5Disconnect (V5.disconnectOf reasonCode)) =
      (decide (c.protocolVersion = .v5) && decide (c.status = .connected)) := by
    rw [Bool.and_comm, ← Bool.true_and (decide (c.status = .connected)), ← hrole]
    simp only [sendAllowed, PacketVariant.isClientSendable, PacketVariant.isServerSendable,
      PacketVariant.type, PacketVariant.version, decide_true, Bool.and_true]
    rfl
  rw [passesChecks, hallowed]
  rfl

/-- What an answer with a DISCONNECT signals. -/
theorem signals_disconnectV5 (c : Connection role pb) (reasonCode : UInt8) :
    signals (c.disconnectV5 reasonCode).events =
      (if canDisconnect c.line then
        [.send (.v5Disconnect (V5.disconnectOf reasonCode)) none, .close] else []) ++
      [.error (.disconnect reasonCode)] := by
  rw [disconnectV5, Step.events_emit, signals_append, signals_send (.inl rfl),
    passesChecks_disconnect]
  simp only [PacketVariant.type, true_and]
  rfl

/-- An automatic answer signals nothing. -/
@[simp] theorem signals_respondIf (cond : Bool) {r : PacketVariant pb} (hr : r.isAnswer)
    (hdisconnect : r.type ≠ .disconnect) (c : Connection role pb) :
    signals (c.respondIf cond r).events = [] := by
  unfold respondIf
  split
  · rw [signals_send (.inl hr), if_neg fun h => hdisconnect h.1]
  · rfl

/-! ### Receiving -/

/-- What the processing of a packet signals. A PUBLISH may be delivered with the topic of
    its alias, or not at all. An error ends the connection only if it is there, and a
    DISCONNECT is never one. -/
inductive Signals (c : Connection role pb) (pv : PacketVariant pb) (es : List (Event pb)) :
    Prop where
  | nothing (htype : pv.type = .publish) (h : signals es = [])
  | delivered (hallowed : c.recvAllowed pv) (pv' : PacketVariant pb)
      (hpv' : pv' = pv ∨ pv.type = .publish ∧ pv'.type = .publish) (h : signals es = [.receive pv'])
  | notAllowed (hallowed : ¬ c.recvAllowed pv) (h : signals es = [.error protocolError])
  | disconnect (hallowed : c.recvAllowed pv) (hstatus : c.status = .connected)
      (htype : pv.type ≠ .disconnect) (hversion : pv.version = .v5) (reasonCode : UInt8)
      (h : signals es = (if canDisconnect c.line then
        [.send (.v5Disconnect (V5.disconnectOf reasonCode)) none, .close] else []) ++
        [.error (.disconnect reasonCode)])
  | closed (hallowed : c.recvAllowed pv) (hstatus : c.status = .connected)
      (htype : pv.type ≠ .disconnect) (hversion : pv.version ≠ .v5)
      (h : signals es = [.close, .error protocolError])

section

variable {c : Connection role pb} {pv : PacketVariant pb} {s : Step role pb}

/-- The packet is handed over behind events that signal nothing. -/
theorem Signals.ofDelivered (hallowed : c.recvAllowed pv) (h : signals s.events = []) :
    Signals c pv (s.emit (.receive pv)).events := by
  apply Signals.delivered hallowed pv (.inl rfl)
  rw [Step.events_emit, signals_append, h]
  rfl

/-- The same where handing over may set a timer -/
theorem Signals.ofReceive (hallowed : c.recvAllowed pv) (h : signals s.events = []) :
    Signals c pv (s.andThen (·.receive pv)).events := by
  rw [andThen_receive]
  apply Signals.ofDelivered hallowed
  rw [Step.events_andThen, signals_append, h, signals_pingreqRecvOp]
  rfl

/-- An acknowledgement that is not expected. -/
theorem Signals.ofInvalid (hallowed : c.recvAllowed pv) (hstatus : c.status = .connected)
    (htype : pv.type ≠ .disconnect) :
    Signals c pv (c.invalidPacketId pv.version).events := by
  unfold invalidPacketId
  split
  · next hversion =>
    exact .disconnect hallowed hstatus htype hversion _ (c.signals_disconnectV5 _)
  · next hversion => exact .closed hallowed hstatus htype hversion rfl

/-- PUBACK, PUBCOMP, SUBACK and UNSUBACK are handed over or are protocol errors. -/
theorem recvAck_signals (hallowed : c.recvAllowed pv) (hstatus : c.status = .connected)
    (htype : pv.type ≠ .disconnect) :
    Signals c pv (c.recvPuback pv.version pv).events ∧
      Signals c pv (c.recvPubcomp pv.version pv).events ∧
      Signals c pv (c.recvSuback pv.version pv).events ∧
      Signals c pv (c.recvUnsuback pv.version pv).events := by
  -- the identifier is given back, and the packet handed over
  have hreleased : ∀ {c' c'' : Connection role pb} (packetId : Nat),
      Signals c pv ((c'.releaseId packetId).andThen fun _ => c''.receive pv).events := by
    intro c' c'' packetId
    apply Signals.delivered hallowed pv (.inl rfl)
    rw [Step.events_andThen, signals_append, signals_receive]
    rfl
  unfold recvPuback recvPubcomp recvSuback recvUnsuback
  refine ⟨?_, ?_, ?_, ?_⟩
  · dsimp only
    split
    · exact hreleased _
    · exact .ofInvalid hallowed hstatus htype
  · dsimp only
    split
    · exact hreleased _
    · exact .ofInvalid hallowed hstatus htype
  · split
    · exact hreleased _
    · exact .ofInvalid hallowed hstatus htype
  · split
    · exact hreleased _
    · exact .ofInvalid hallowed hstatus htype

/-- A PUBREC is handed over or is a protocol error. -/
theorem recvPubrec_signals (hallowed : c.recvAllowed pv) (hstatus : c.status = .connected)
    (htype : pv.type ≠ .disconnect) (failed : Bool) :
    Signals c pv (c.recvPubrec pv.version failed pv).events := by
  unfold recvPubrec
  dsimp only
  split
  · apply Signals.ofReceive hallowed
    split
    · rfl
    · apply signals_respondIf _ (pubrelOf_isAnswer _ _)
      rw [pubrelOf_type]
      exact nofun
  · exact .ofInvalid hallowed hstatus htype

/-- The response to a PUBLISH, if there is one, and the timer that is set again. -/
theorem signals_response {c' : Connection role pb} {response : Option (PacketVariant pb)}
    (hresponse : ∀ pv ∈ response, pv.isAnswer ∧ pv.type ≠ .disconnect) :
    signals (Step.andThen (match response with
      | none => (⟨c', []⟩ : Step role pb)
      | some pv => c'.send pv) pingreqRecvOp).events = [] := by
  rw [Step.events_andThen, signals_append, signals_pingreqRecvOp, List.append_nil]
  cases response with
  | none => rfl
  | some pv =>
    obtain ⟨hanswer, htype⟩ := hresponse pv rfl
    rw [signals_send (.inl hanswer), if_neg fun h => htype h.1]

/-- The topic of a v5 PUBLISH is known, or the packet is a protocol error. -/
theorem recvPublishTopicV5_signals {p : V5.PublishPacket pb} (hstatus : c.status = .connected)
    {c' : Connection role pb} (hline : canDisconnect c'.line = canDisconnect c.line)
    {response : Option (PacketVariant pb)}
    (hresponse : ∀ pv ∈ response, pv.isAnswer ∧ pv.type ≠ .disconnect) (alreadyHandled : Bool) :
    Signals c (.v5Publish p) (c'.recvPublishTopicV5 p response alreadyHandled).events := by
  have hallowed : c.recvAllowed (.v5Publish p) := decide_eq_true hstatus
  unfold recvPublishTopicV5
  -- the alias is not known, and the packet is not handed over
  split
  · refine .disconnect hallowed hstatus nofun rfl DisconnectReasonCode.topicAliasInvalid ?_
    rw [signals_disconnectV5, hline]
  · next c'' p' halias =>
    have hsent := @signals_response role pb c'' response hresponse
    dsimp only
    generalize Step.andThen _ pingreqRecvOp = s at hsent ⊢
    -- a message that was handled before is only answered
    split
    · exact .nothing rfl hsent
    · apply Signals.delivered hallowed (.v5Publish p') (.inr ⟨rfl, rfl⟩)
      rw [Step.events_emit, signals_append, hsent]
      rfl

/-- A v5 PUBLISH is handed over, or dropped as handled before, or a protocol error. -/
theorem recvPublishV5_signals (p : V5.PublishPacket pb) (hstatus : c.status = .connected) :
    Signals c (.v5Publish p) (c.recvPublishV5 p).events := by
  have hpuback : (pubackOf .v5 pb p.packetId).type ≠ .disconnect := by
    rw [pubackOf_type]
    exact nofun
  have hpubrec : (pubrecOf .v5 pb p.packetId).type ≠ .disconnect := by
    rw [pubrecOf_type]
    exact nofun
  have hexceeded : Signals c (.v5Publish p)
      (c.disconnectV5 DisconnectReasonCode.receiveMaximumExceeded).events :=
    .disconnect (decide_eq_true hstatus) hstatus nofun rfl _ (c.signals_disconnectV5 _)
  unfold recvPublishV5
  split
  -- too many are unanswered, or the packet is handed over
  · split
    · exact hexceeded
    · apply recvPublishTopicV5_signals hstatus
      · rfl
      · exact forall_mem_response _ ⟨pubackOf_isAnswer _ _, hpuback⟩
  · split
    · exact hexceeded
    · apply recvPublishTopicV5_signals hstatus
      · rfl
      · exact forall_mem_response _ ⟨pubrecOf_isAnswer _ _, hpubrec⟩
  · exact recvPublishTopicV5_signals hstatus rfl
      (fun _ hpv => absurd hpv (Option.not_mem_none _)) _

/-- A v3.1.1 PUBLISH is handed over or dropped as handled before. -/
theorem recvPublishV311_signals (p : V311.PublishPacket pb) (hstatus : c.status = .connected) :
    Signals c (.v311Publish p) (c.recvPublishV311 p).events := by
  have hallowed : c.recvAllowed (.v311Publish p) := decide_eq_true hstatus
  unfold recvPublishV311
  split
  · apply Signals.delivered hallowed _ (.inl rfl)
    exact signals_receive _ c
  · apply Signals.ofReceive hallowed
    apply signals_respondIf _ (pubackOf_isAnswer _ _)
    rw [pubackOf_type]
    exact nofun
  · dsimp only
    generalize hs : Step.andThen _ pingreqRecvOp = s
    have hsent : signals s.events = [] := by
      rw [← hs, Step.events_andThen, signals_append, signals_pingreqRecvOp, List.append_nil]
      apply signals_respondIf _ (pubrecOf_isAnswer _ _)
      rw [pubrecOf_type]
      exact nofun
    -- a message that was handled before is only answered
    split
    · exact .nothing rfl hsent
    · exact .ofDelivered hallowed hsent
  · exact .nothing rfl rfl

/-- What the processing of a packet signals when it is allowed. -/
theorem processRecvActual_signals (hallowed : c.recvAllowed pv) :
    Signals c pv (c.processRecvActual pv).events := by
  have hreceive : ∀ c' : Connection role pb, Signals c pv (c'.receive pv).events := fun c' =>
    .delivered hallowed pv (.inl rfl) (signals_receive pv c')
  -- only the acknowledgements and PUBLISH can be protocol errors
  cases pv with
  | v311Connect p | v5Connect p => exact hreceive _
  | v311Connack p =>
    apply Signals.ofDelivered hallowed
    unfold recvConnackV311
    split
    · exact signals_resumeSession _ _
    · rfl
  | v5Connack p =>
    apply Signals.ofDelivered hallowed
    unfold recvConnackV5
    split
    · rw [Step.events_andThen, signals_append, signals_recvConnackProps, signals_resumeSession]
      rfl
    · rfl
  | v311Publish p => exact recvPublishV311_signals p (of_decide_eq_true hallowed)
  | v5Publish p => exact recvPublishV5_signals p (of_decide_eq_true hallowed)
  | v311Puback p | v5Puback p =>
    exact (recvAck_signals hallowed (of_decide_eq_true hallowed) nofun).1
  | v311Pubcomp p | v5Pubcomp p =>
    exact (recvAck_signals hallowed (of_decide_eq_true hallowed) nofun).2.1
  | v311Suback p | v5Suback p =>
    exact (recvAck_signals hallowed (of_decide_eq_true hallowed) nofun).2.2.1
  | v311Unsuback p | v5Unsuback p =>
    exact (recvAck_signals hallowed (of_decide_eq_true hallowed) nofun).2.2.2
  | v311Pubrec p | v5Pubrec p =>
    exact recvPubrec_signals hallowed (of_decide_eq_true hallowed) nofun _
  | v311Pubrel p | v5Pubrel p =>
    apply Signals.ofReceive hallowed
    apply signals_respondIf _ (pubcompOf_isAnswer _ _)
    rw [pubcompOf_type]
    exact nofun
  | v311Pingreq p | v5Pingreq p =>
    apply Signals.ofReceive hallowed
    apply signals_respondIf
    · rfl
    · exact nofun
  | v311Pingresp p | v5Pingresp p => exact .delivered hallowed _ (.inl rfl) rfl
  | v311Disconnect p | v5Disconnect p =>
    apply Signals.ofDelivered hallowed
    exact signals_cancelTimers _
  | v311Subscribe p | v5Subscribe p | v311Unsubscribe p | v5Unsubscribe p | v5Auth p =>
    exact hreceive c

/-- A packet that the status forbids is an error. -/
theorem processRecvDecoded_signals (pv : PacketVariant pb) (c : Connection role pb) :
    Signals c pv (c.processRecvDecoded pv).events := by
  unfold processRecvDecoded
  split
  · next h => exact processRecvActual_signals h
  · next h => exact .notAllowed h rfl

/-- The only error of the framing is a remaining length of more than four bytes. -/
theorem framing_error {rpb : RecvPacketBuilder} {is : List UInt8} {ec : ErrorCode}
    (h : (rpb.recv is).2.1 = some (.ec ec)) :
    ec = .disconnect DisconnectReasonCode.packetTooLarge := by
  -- the bytes are taken one by one, and only the remaining length can fail
  induction is generalizing rpb with
  | nil => exact nomatch h
  | cons byte is ih =>
    unfold RecvPacketBuilder.recv at h
    split at h
    · exact ih h
    · dsimp only at h
      split at h
      · split at h
        · exact nomatch h
        · exact ih h
      · split at h
        · exact (ErrorPacket.ec.inj (Option.some.inj h)).symm
        · exact ih h
    · dsimp only at h
      split at h <;> exact nomatch h

/-- A packet was received only if the framing did not fail. -/
theorem framingFails_of_received {is : List UInt8} {pv : PacketVariant pb}
    (h : c.received is = some pv) : c.framingFails is = false := by
  unfold received at h
  unfold framingFails
  rcases hrecv : c.rpb.recv is with ⟨rpb, out, rest⟩
  rw [hrecv] at h
  match out with
  | none => rfl
  | some (.ec ec) => exact nomatch h
  | some (.packet buf) => rfl

/-- A frame is longer than the connection allows. -/
def tooLarge (is : List UInt8) (c : Connection role pb) : Bool :=
  match (c.rpb.recv is).2.1 with
  | some (.packet buf) => c.maximumPacketSizeRecv < buf.length
  | _ => false

/-- What a call of `recv` signals: what the packet that it completes signals, or one of
    the errors that come before there is a packet. -/
inductive RecvSignals (c : Connection role pb) (is : List UInt8) (es : List (Event pb)) :
    Prop where
  | taken (pv : PacketVariant pb) (hpv : c.received is = some pv) (h : Signals c pv es)
  | nothing (hpv : c.received is = none) (hframing : ¬ c.framingFails is) (h : signals es = [])
  | framing (hpv : c.received is = none) (hframing : c.framingFails is) (ec : ErrorCode)
      (h : signals es = [.close, .error ec])
  | refused (hpv : c.received is = none) (hframing : ¬ c.framingFails is) (value : UInt8)
      (hvalue : c.refusedConnect is = some value) (h : signals es = [.error (.connect value)])
  | disconnect (hpv : c.received is = none) (hframing : ¬ c.framingFails is)
      (hwhy : c.tooLarge is ∨ c.status = .connected ∧ c.protocolVersion = .v5) (reasonCode : UInt8)
      (h : signals es = (if canDisconnect c.line then
        [.send (.v5Disconnect (V5.disconnectOf reasonCode)) none, .close] else []) ++
        [.error (.disconnect reasonCode)])
  | closed (hpv : c.received is = none) (hframing : ¬ c.framingFails is)
      (hwhy : ¬ (c.status = .connected ∧ c.protocolVersion = .v5)) (ec : ErrorCode)
      (h : signals es = [.close, .error ec])

/-- Whether the framing fails is told by the builder. -/
theorem framingFails_eq (is : List UInt8) (c : Connection role pb) :
    c.framingFails is = match (c.rpb.recv is).2.1 with
      | some (.ec _) => true
      | _ => false := rfl

/-- Whether a packet is too large is told by its length. -/
theorem tooLarge_eq (is : List UInt8) (c : Connection role pb) :
    c.tooLarge is = match (c.rpb.recv is).2.1 with
      | some (.packet buf) => decide (c.maximumPacketSizeRecv < buf.length)
      | _ => false := rfl

/-- A CONNECT is refused when it cannot be decoded while disconnected. -/
theorem refusedConnect_eq (is : List UInt8) (c : Connection role pb) :
    c.refusedConnect is = match (c.rpb.recv is).2.1 with
      | some (.packet buf) =>
        if c.maximumPacketSizeRecv < buf.length then none
        else
          match (bufferToPacketVariant pb c.protocolVersion).run buf with
          | .error (.error ec) =>
            if c.status = .disconnected ∧ ec.category = .connectReasonCode then
              some (UInt8.ofNat ec.value)
            else none
          | _ => none
      | _ => none := rfl

/-- What `recv` signals for the bytes it is given -/
theorem recv_signals (is : List UInt8) (c : Connection role pb) :
    RecvSignals c is (c.recv is).1.events := by
  cases hreceived : c.received is with
  | some pv =>
    apply RecvSignals.taken pv hreceived
    rw [recv_of_received hreceived]
    -- the packet builder has no part in what follows
    obtain ⟨c₀, hc₀⟩ : ∃ c₀ : Connection role pb, c₀ = { c with rpb := (c.rpb.recv is).1 } :=
      ⟨_, rfl⟩
    have hallowed : ∀ pv, c₀.recvAllowed pv = c.recvAllowed pv := by
      intro pv
      rw [hc₀]
      rfl
    rw [← hc₀]
    have hstatus : c₀.status = c.status := by rw [hc₀]
    have hline : c₀.line = c.line := by rw [hc₀]; rfl
    cases processRecvDecoded_signals pv c₀ with
    | nothing htype h => exact .nothing htype h
    | delivered ha pv' hpv' h => exact .delivered (hallowed pv ▸ ha) pv' hpv' h
    | notAllowed ha h => exact .notAllowed (hallowed pv ▸ ha) h
    | disconnect ha hs htype hversion reasonCode h =>
      exact .disconnect (hallowed pv ▸ ha) (hstatus ▸ hs) htype hversion reasonCode (hline ▸ h)
    | closed ha hs htype hversion h =>
      exact .closed (hallowed pv ▸ ha) (hstatus ▸ hs) htype hversion h
  | none =>
    have hnone := hreceived
    have hdisconnect : ∀ (c' : Connection role pb) (reasonCode : UInt8), c'.line = c.line →
        signals (c'.disconnectV5 reasonCode).events = (if canDisconnect c.line then
          [.send (.v5Disconnect (V5.disconnectOf reasonCode)) none, .close] else []) ++
          [.error (.disconnect reasonCode)] :=
      fun c' reasonCode hline => hline ▸ c'.signals_disconnectV5 reasonCode
    have hframing := c.framingFails_eq is
    have hlarge := c.tooLarge_eq is
    have hrefused := c.refusedConnect_eq is
    unfold received at hreceived
    unfold recv
    rcases hrecv : c.rpb.recv is with ⟨rpb, out, rest⟩
    rw [hrecv] at hreceived hframing hlarge hrefused
    rcases out with _ | ⟨ec | buf⟩
    · exact .nothing hnone (by rw [hframing]; exact Bool.false_ne_true) rfl
    · obtain rfl : ec = _ := framing_error (by rw [hrecv] : (c.rpb.recv is).2.1 = some (.ec ec))
      apply RecvSignals.framing hnone hframing (.disconnect DisconnectReasonCode.packetTooLarge)
      simp only [processRecvPacket, Step.events_emit, signals_append, signals_cancelTimers]
      rfl
    · have hframing : ¬ c.framingFails is := by
        rw [hframing]
        exact Bool.false_ne_true
      simp only [processRecvPacket] at hreceived hlarge hrefused ⊢
      split
      · next hsize =>
        apply RecvSignals.disconnect hnone hframing (.inl (hlarge.trans (decide_eq_true hsize)))
        exact hdisconnect _ _ rfl
      · next hsize =>
        rw [if_neg hsize] at hreceived hrefused
        split
        · next pv rest' hrun =>
          rw [hrun] at hreceived
          cases hreceived
        · next ec hrun =>
          unfold processRecvError
          simp only
          split
          · next hcond =>
            rw [hrun] at hrefused
            simp only [if_pos hcond] at hrefused
            apply RecvSignals.refused hnone hframing _ hrefused
            have hconnack : ∀ c' : Connection role pb,
                signals (c'.send (c'.refusal (UInt8.ofNat ec.value))).events = [] := by
              intro c'
              have htype := c'.refusal_type (UInt8.ofNat ec.value)
              rw [signals_send (.inr htype), htype]
              rfl
            rw [Step.events_emit, signals_append]
            exact congrArg (· ++ _) (hconnack { c with rpb := rpb, status := .connecting })
          · split
            · next hcond =>
              apply RecvSignals.disconnect hnone hframing (.inr hcond)
              exact hdisconnect _ _ rfl
            · next hcond => exact .closed hnone hframing hcond _ rfl
        · exact .nothing hnone hframing rfl

/-- Without a packet nothing is given to the application. -/
theorem receives_of_none {is : List UInt8} (hpv : c.received is = none) :
    receives (c.recv is).1.events = [] := by
  rw [← receives_signals]
  cases recv_signals is c with
  | taken pv hpv' h => exact nomatch hpv.symm.trans hpv'
  | nothing _ _ h | framing _ _ _ h | refused _ _ _ _ h | closed _ _ _ _ h =>
    rw [h]
    rfl
  | disconnect _ _ _ _ h =>
    rw [h]
    split <;> rfl

/-- Of a packet only itself is given to the application, or a PUBLISH with its topic. -/
theorem receives_of_signals {es : List (Event pb)} (h : Signals c pv es) :
    receives es = [] ∨ c.recvAllowed pv ∧ ∃ pv', receives es = [pv'] ∧
      (pv' = pv ∨ pv.type = .publish ∧ pv'.type = .publish) := by
  rw [← receives_signals]
  cases h with
  | nothing _ h | notAllowed _ h | closed _ _ _ _ h =>
    left
    rw [h]
    rfl
  | disconnect _ _ _ _ _ h =>
    left
    rw [h]
    split <;> rfl
  | delivered hallowed pv' hpv' h =>
    right
    rw [h]
    exact ⟨hallowed, pv', rfl, hpv'⟩

/-- A call of `recv` that completes a packet signals what the packet does. -/
theorem signals_of_received {is : List UInt8} (hpv : c.received is = some pv) :
    Signals c pv (c.recv is).1.events := by
  have hne : c.received is ≠ none := by
    rw [hpv]
    exact nofun
  cases recv_signals is c with
  | taken pv' hpv' h =>
    obtain rfl := Option.some.inj (hpv.symm.trans hpv')
    exact h
  | nothing h | framing h | refused h | disconnect h | closed h => exact absurd h hne

/-! ### The other calls -/

/-- A timer hands no packet over. -/
theorem receives_notifyTimerFired (kind : TimerKind) (c : Connection role pb) :
    receives (c.notifyTimerFired kind).events = [] := by
  have hfired : ∀ c : Connection role pb, receives c.recvTimerFired.events = [] := by
    intro c
    unfold recvTimerFired
    split
    · rfl
    · split
      · exact receives_send _ c
      · rfl
    · rfl
  unfold notifyTimerFired
  -- the PINGREQ is sent, or the two other timers end the connection
  split
  · dsimp only
    split
    · split
      · exact receives_send _ _
      · rfl
    · split
      · exact receives_send _ _
      · rfl
    · rfl
  · exact hfired _
  · exact hfired _

/-- The end of the connection hands nothing over. -/
theorem receives_notifyClosed (c : Connection role pb) :
    receives c.notifyClosed.events = [] := by
  have hids : ∀ (ids : List Nat) (c : Connection role pb),
      receives (releasePacketIds ids c).events = [] := by
    intro ids
    -- the identifiers are given back one by one
    induction ids with
    | nil => exact fun _ => rfl
    | cons packetId ids ih =>
      intro c
      have hone : receives (c.releasePacketId packetId).events = [] := by
        unfold releasePacketId
        split <;> rfl
      rw [releasePacketIds, Step.events_andThen, receives_append, hone, ih]
      rfl
  have htimers : ∀ c : Connection role pb, receives c.cancelTimers.events = [] := by
    intro c
    rw [← receives_signals, signals_cancelTimers]
    rfl
  unfold notifyClosed
  dsimp only
  split <;>
    simp only [Step.events_andThen, receives_append, hids, htimers, List.append_nil]

/-- Only `recv` gives packets to the application. -/
theorem receives_call {op : Op pb} (h : ∀ is, op ≠ .recv is) (c : Connection role pb) :
    receives (c.call op).events = [] := by
  cases op with
  | recv is => exact absurd rfl (h is)
  | send pv => exact receives_send pv c
  | notifyTimerFired kind => exact receives_notifyTimerFired kind c
  | notifyClosed => exact receives_notifyClosed c
  | releasePacketId packetId =>
    rw [call, releasePacketId]
    split <;> rfl
  | setPingreqSendInterval duration =>
    rw [call, setPingreqSendInterval]
    split <;> rfl
  | _ => rfl

end

end Connection

end AsyncMqtt
