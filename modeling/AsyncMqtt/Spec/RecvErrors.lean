import AsyncMqtt.Spec.RecvSignals

/-!
# Errors of `recv`

An error of the stream should end the connection: the owner is told to close it, a v5.0
peer gets a DISCONNECT first, and nothing that still comes on the stream is given to the
application. `recv_signals` lists the ways in which `recv` reports an error, and most of
them do so.

The others are the calls of `LeavesOpen`: a packet that comes when it is not allowed, a
CONNECT that is refused, and a DISCONNECT that cannot be sent. Only two ways make the
connection disconnected: the stream cannot be cut into frames, where nothing is sent, and
a DISCONNECT. Then the next packet that is given to the application is a CONNECT.

## Key results

- `Connection.recv_error_closes`: what an error of `recv` leads to
- `Connection.recv_error_stays_open`: a framing error without a DISCONNECT, and a packet
  that is received after an error
-/

namespace AsyncMqtt

/-- A DISCONNECT is sent, and then the owner is told to close the connection. -/
def DisconnectsFirst {pb : PacketIdBytes} (es : List (Event pb)) : Prop :=
  ∃ before after pv, es = before ++ .close :: after ∧ .send pv none ∈ before ∧
    pv.type = .disconnect

/-- The first two signals are a DISCONNECT and the call to close. -/
theorem DisconnectsFirst.of_signals {pb : PacketIdBytes} {es fs : List (Event pb)}
    {pv : PacketVariant pb} (htype : pv.type = .disconnect)
    (h : signals es = .send pv none :: .close :: fs) : DisconnectsFirst es := by
  obtain ⟨es₁, es₂, hes, -, -, hrest⟩ := List.filter_eq_cons_iff.mp h
  obtain ⟨es₃, es₄, hes₂, -, -, -⟩ := List.filter_eq_cons_iff.mp hrest
  refine ⟨es₁ ++ .send pv none :: es₃, es₄, pv, ?_, ?_, htype⟩
  · rw [hes, hes₂, List.append_assoc, List.cons_append]
  · exact List.mem_append_right _ List.mem_cons_self

namespace Connection

variable {role : Role} {pb : PacketIdBytes} {c : Connection role pb} {is : List UInt8}

/-- The errors that do not end the connection: a packet that is not allowed in this
    status, a CONNECT that is refused, and a DISCONNECT that cannot be sent. -/
def LeavesOpen (c : Connection role pb) (is : List UInt8) : Prop :=
  (∃ pv, c.received is = some pv ∧ ¬ c.recvAllowed pv) ∨
  (c.refusedConnect is).isSome ∨
  ¬ c.framingFails is ∧ (c.tooLarge is ∨ c.status = .connected ∧ c.protocolVersion = .v5) ∧
    ¬ canDisconnect c.line

/-- A call with which a network connection begins: it sends or receives a CONNECT, or it
    refuses one. -/
def Opens (c : Connection role pb) (op : Op pb) : Prop :=
  (∃ pv ∈ sends (c.call op).events, pv.type = .connect) ∨
  (∃ pv ∈ receives (c.call op).events, pv.type = .connect) ∨
  ∃ value, .error (.connect value) ∈ (c.call op).events

/-! ### While the connection is disconnected -/

theorem recvAllowed_disconnected {pv : PacketVariant pb} (hstatus : c.status = .disconnected)
    (hallowed : c.recvAllowed pv) : pv.type = .connect := by
  unfold recvAllowed at hallowed
  rw [hstatus] at hallowed
  cases htype : pv.type with
  | connect => rfl
  | _ => simp [htype] at hallowed

/-- No answer is a PUBLISH, a CONNACK or a CONNECT. -/
theorem isAnswer_type {r : PacketVariant pb} (hr : r.isAnswer) :
    r.type ≠ .publish ∧ r.type ≠ .connack ∧ r.type ≠ .connect := by
  unfold PacketVariant.isAnswer at hr
  refine ⟨?_, ?_, ?_⟩ <;> intro htype <;> simp [htype] at hr

/-- Of the packets that may be sent, only a CONNECT ends this status. -/
theorem afterSend_disconnected {pv : PacketVariant pb} (hstatus : c.status = .disconnected)
    (hpass : c.passesChecks pv) (hconnect : pv.type ≠ .connect) :
    (c.line.afterSend pv).status = .disconnected := by
  have hallowed := (Bool.and_eq_true_iff.mp hpass).1
  simp only [sendAllowed, hstatus, Bool.and_eq_true] at hallowed
  have hline : c.line.status = .disconnected := hstatus
  unfold Line.afterSend
  cases htype : pv.type with
  | connect => exact absurd htype hconnect
  | publish => exact hline
  | _ => simp [htype] at hallowed

theorem send_disconnected {pv : PacketVariant pb} (hstatus : c.status = .disconnected)
    (hconnect : ∀ pv' ∈ sends (c.send pv).events, pv'.type ≠ .connect) :
    (c.send pv).conn.status = .disconnected := by
  show (c.send pv).conn.line.status = .disconnected
  by_cases htype : pv.type = .publish
  · rw [(send_line_publish htype).1]
    exact hstatus
  · by_cases hpass : c.passesChecks pv = true
    · obtain ⟨hline, hsends⟩ := send_line htype hpass
      rw [hline]
      apply afterSend_disconnected hstatus hpass
      apply hconnect
      rw [hsends]
      exact List.mem_cons_self
    · rw [(send_line_refused hpass).1]
      exact hstatus

/-- No answer is a CONNECT. -/
theorem sends_answer_connect {r : PacketVariant pb} (hr : r.isAnswer) (c : Connection role pb) :
    ∀ pv ∈ sends (c.send r).events, pv.type ≠ .connect := by
  obtain ⟨hpublish, hconnack, hconnect⟩ := isAnswer_type hr
  intro pv hpv
  by_cases hpass : c.passesChecks r = true
  · rw [(send_line hpublish hpass).2, if_neg hconnack] at hpv
    obtain rfl := List.mem_singleton.mp hpv
    exact hconnect
  · rw [(send_line_refused hpass).2] at hpv
    exact nomatch hpv

theorem Answer.disconnected {l : Line} {stored : List (PacketVariant pb)} {s : Step role pb}
    (h : Answer l stored s) (hstatus : l.status = .disconnected) :
    s.conn.status = .disconnected := by
  show s.conn.line.status = .disconnected
  cases h with
  | silent hline hsends => rw [hline, hstatus]
  | sent c₁ r hc₁ hr hline hsends =>
    rw [hline]
    apply send_disconnected (by rw [← hstatus, ← hc₁]; rfl)
    exact sends_answer_connect hr c₁

/-- Without a connection only a CONNECT is given to the application. -/
theorem receives_disconnected (hstatus : c.status = .disconnected) :
    ∀ pv ∈ receives (c.recv is).1.events, pv.type = .connect := by
  have hnone : ∀ fs : List (Event pb), signals (c.recv is).1.events = fs → receives fs = [] →
      ∀ pv ∈ receives (c.recv is).1.events, pv.type = .connect := by
    intro fs hfs hnil pv hpv
    rw [← receives_signals, hfs, hnil] at hpv
    exact nomatch hpv
  -- while disconnected a status that needs a connection is contradicted
  cases recv_signals is c with
  | taken pv hpv h =>
    cases h with
    | nothing htype h => exact hnone _ h rfl
    | notAllowed hallowed h => exact hnone _ h rfl
    | disconnect hallowed hs htype hversion reasonCode h =>
      exact nomatch hstatus.symm.trans hs
    | closed hallowed hs htype hversion h => exact hnone _ h rfl
    | delivered hallowed pv' hpv' h =>
      have htype := recvAllowed_disconnected hstatus hallowed
      intro pv'' hmem
      rw [← receives_signals, h] at hmem
      obtain rfl := List.mem_singleton.mp hmem
      rcases hpv' with rfl | ⟨hpublish, -⟩
      · exact htype
      · exact nomatch htype.symm.trans hpublish
  | nothing hpv hframing h => exact hnone _ h rfl
  | framing hpv hframing ec h => exact hnone _ h rfl
  | refused hpv hframing value hvalue h => exact hnone _ h rfl
  | disconnect hpv hframing hwhy reasonCode h =>
    apply hnone _ h
    split <;> rfl
  | closed hpv hframing hwhy ec h => exact hnone _ h rfl

/-- A packet that is received changes the status only if the application gets it. -/
theorem recvLine_disconnected (hstatus : c.status = .disconnected)
    (hconnect : ∀ pv ∈ receives (c.recv is).1.events, pv.type ≠ .connect) :
    (c.recvLine is).status = .disconnected := by
  unfold recvLine
  cases hpv : c.received is with
  | none =>
    dsimp only
    split
    · rfl
    · exact hstatus
  | some pv =>
    dsimp only
    by_cases hallowed : c.recvAllowed pv = true
    · -- it is a CONNECT, which `recv` gives to the application
      exfalso
      have htype := recvAllowed_disconnected hstatus hallowed
      refine hconnect pv ?_ htype
      rw [recv_of_received hpv, processRecvDecoded, if_pos (by exact hallowed)]
      cases pv with
      | v311Connect p | v5Connect p =>
        rw [← receives_signals, processRecvActual, signals_receive]
        exact List.mem_singleton_self _
      | _ => cases htype
    · rw [(lineAfterRecv_of_not_allowed hallowed).1]
      exact hstatus

/-- While no network connection begins, the status stays as it is. -/
theorem next_disconnected {op : Op pb} (hopens : ¬ c.Opens op)
    (hstatus : c.status = .disconnected) : (c.next op).status = .disconnected := by
  obtain ⟨hsends, hreceives, herror⟩ : (∀ pv ∈ sends (c.call op).events, pv.type ≠ .connect) ∧
      (∀ pv ∈ receives (c.call op).events, pv.type ≠ .connect) ∧
      ∀ value, Event.error (.connect value) ∉ (c.call op).events :=
    ⟨fun pv hpv htype => hopens (.inl ⟨pv, hpv, htype⟩),
      fun pv hpv htype => hopens (.inr (.inl ⟨pv, hpv, htype⟩)),
      fun value he => hopens (.inr (.inr ⟨value, he⟩))⟩
  have hlocal : op.isLocal → (c.next op).status = .disconnected := fun h =>
    (congrArg Line.status (call_line_local h c).1).trans hstatus
  cases op with
  | send pv => exact send_disconnected hstatus hsends
  | recv is =>
    rcases recv_line is c with h | ⟨value, c₁, -, -, hs⟩
    · exact h.disconnected (recvLine_disconnected hstatus hreceives)
    · refine absurd ?_ (herror value)
      rw [call, hs, Step.events_emit]
      exact List.mem_append_right _ (List.mem_singleton_self _)
  | notifyTimerFired kind => exact (c.notifyTimerFired_line kind).disconnected hstatus
  | notifyClosed => exact congrArg Line.status c.notifyClosed_line.1
  | _ => exact hlocal rfl

/-! ### After an error -/

theorem framing_disconnected (h : c.framingFails is) :
    (c.recv is).1.conn.status = .disconnected := by
  unfold framingFails at h
  unfold recv
  rcases hrecv : c.rpb.recv is with ⟨rpb, out, rest⟩
  rw [hrecv] at h
  match out with
  | none => exact nomatch h
  | some (.packet buf) => exact nomatch h
  | some (.ec ec) =>
    simp only [processRecvPacket, Step.conn_emit, cancelTimers_conn]

/-- If `recv` sends a DISCONNECT, the connection is disconnected after it. -/
theorem disconnect_disconnected {pv : PacketVariant pb} (htype : pv.type = .disconnect)
    (hrefused : c.refusedConnect is = none) (hpv : pv ∈ sends (c.recv is).1.events) :
    (c.recv is).1.conn.status = .disconnected := by
  -- no stored packet is a DISCONNECT
  have hstored : ∀ pvs : List (PacketVariant pb), (∀ pv ∈ pvs, ∃ e : StorePacketVariant pb,
      e.packet.toPacketVariant = pv) → pv ∉ pvs := by
    intro pvs h hmem
    obtain ⟨e, rfl⟩ := h pv hmem
    cases hpacket : e.packet <;> rw [hpacket] at htype <;> exact nomatch htype
  rcases recv_line is c with h | ⟨value, c₁, hvalue, -⟩
  · show (c.recv is).1.conn.line.status = .disconnected
    cases h with
    | silent hline hsends =>
      rw [hsends] at hpv
      refine absurd hpv (hstored _ fun pv' hpv' => ?_)
      unfold recvResumed resumed at hpv'
      split at hpv'
      · split at hpv'
        · obtain ⟨e, -, -, he⟩ := mem_storedFit.mp hpv'
          exact ⟨e, he⟩
        · exact nomatch hpv'
      · exact nomatch hpv'
    -- the packet that was sent is the DISCONNECT
    | sent c₁ r hc₁ hr hline hsends =>
      obtain ⟨hpublish, hconnack, -⟩ := isAnswer_type hr
      rw [hsends] at hpv
      rw [hline]
      by_cases hpass : c₁.passesChecks r = true
      · obtain ⟨hline₁, hsends₁⟩ := send_line hpublish hpass
        rw [hsends₁, if_neg hconnack] at hpv
        obtain rfl := List.mem_singleton.mp hpv
        rw [hline₁, Line.afterSend, htype]
      · rw [(send_line_refused hpass).2] at hpv
        exact nomatch hpv
  · rw [hrefused] at hvalue
    exact nomatch hvalue

/-- What an error leads to whose DISCONNECT can be sent. -/
theorem closes_of_disconnect (hok : ¬ c.LeavesOpen is) (hframing : ¬ c.framingFails is)
    (hwhy : c.tooLarge is ∨ c.status = .connected ∧ c.protocolVersion = .v5) {reasonCode : UInt8}
    (h : signals (c.recv is).1.events = (if canDisconnect c.line then
      [.send (.v5Disconnect (V5.disconnectOf reasonCode)) none, .close] else []) ++
      [.error (.disconnect reasonCode)]) :
    DisconnectsFirst (c.recv is).1.events ∧ (c.recv is).1.conn.status = .disconnected := by
  have hcan : canDisconnect c.line = true := by
    by_contra hnot
    exact hok (.inr (.inr ⟨hframing, hwhy, hnot⟩))
  have hrefused : c.refusedConnect is = none := by
    by_contra hne
    exact hok (.inr (.inl (Option.isSome_iff_ne_none.mpr hne)))
  rw [if_pos hcan] at h
  refine ⟨.of_signals rfl h, ?_⟩
  have hmem : Event.send (.v5Disconnect (V5.disconnectOf reasonCode)) none ∈
      signals (c.recv is).1.events := by
    rw [h]
    exact List.mem_cons_self
  have hsent := mem_sends.mpr ⟨none, (mem_signals.mp hmem).1⟩
  exact disconnect_disconnected (by rfl) hrefused hsent

/-- An error that `recv` reports closes the connection. A v5.0 connection sends a
    DISCONNECT before that, unless the stream cannot be cut into frames. In both cases the
    next packet that is given to the application is the CONNECT of a new connection. -/
theorem recv_error_closes (hok : ¬ c.LeavesOpen is) {ec : ErrorCode}
    (hec : ec.category ≠ .mqttError) (herror : .error ec ∈ (c.recv is).1.events) :
    .close ∈ (c.recv is).1.events ∧
    (c.protocolVersion = .v5 → c.status = .connected → ¬ c.framingFails is →
      DisconnectsFirst (c.recv is).1.events) ∧
    (c.framingFails is ∨ c.protocolVersion = .v5 ∧ c.status = .connected →
      ∀ ops, Run.All next (fun c op => ¬ c.Opens op) (c.recv is).1.conn ops → ∀ is',
      ∀ pv ∈ receives (((c.recv is).1.conn.run ops).recv is').1.events, pv.type = .connect) := by
  have hsignal : .error ec ∈ signals (c.recv is).1.events :=
    mem_signals.mpr ⟨herror, decide_eq_true hec⟩
  -- a closed connection takes nothing but a CONNECT until it is opened again
  have hstays : (c.recv is).1.conn.status = .disconnected →
      ∀ ops, Run.All next (fun c op => ¬ c.Opens op) (c.recv is).1.conn ops → ∀ is',
      ∀ pv ∈ receives (((c.recv is).1.conn.run ops).recv is').1.events, pv.type = .connect := by
    intro hstatus ops hops is'
    apply receives_disconnected
    exact Run.final_invariant (Q := fun c : Connection role pb => c.status = .disconnected)
      (fun c op hopens h => next_disconnected hopens h) hstatus hops
  -- a DISCONNECT brings all three at once
  have hdisconnect : DisconnectsFirst (c.recv is).1.events ∧
      (c.recv is).1.conn.status = .disconnected → .close ∈ (c.recv is).1.events ∧
      (c.protocolVersion = .v5 → c.status = .connected → ¬ c.framingFails is →
        DisconnectsFirst (c.recv is).1.events) ∧
      (c.framingFails is ∨ c.protocolVersion = .v5 ∧ c.status = .connected →
        ∀ ops, Run.All next (fun c op => ¬ c.Opens op) (c.recv is).1.conn ops → ∀ is',
        ∀ pv ∈ receives (((c.recv is).1.conn.run ops).recv is').1.events,
          pv.type = .connect) := by
    rintro ⟨hfirst, hstatus⟩
    refine ⟨?_, fun _ _ _ => hfirst, fun _ => hstays hstatus⟩
    obtain ⟨before, after, pv, hes, -, -⟩ := hfirst
    rw [hes]
    exact List.mem_append_right _ List.mem_cons_self
  have hclosed : ∀ {e : ErrorCode}, signals (c.recv is).1.events = [.close, .error e] →
      .close ∈ (c.recv is).1.events := by
    intro e h
    have hmem : .close ∈ signals (c.recv is).1.events := by
      rw [h]
      exact List.mem_cons_self
    exact (mem_signals.mp hmem).1
  -- without a signal there is no error that could be reported
  have hnever : ∀ {P : Prop}, signals (c.recv is).1.events = [] → P := by
    intro P h
    rw [h] at hsignal
    cases hsignal
  cases recv_signals is c with
  | nothing hpv hframing h => exact hnever h
  | refused hpv hframing value hvalue h =>
    refine absurd (.inr (.inl ?_)) hok
    rw [hvalue]
    rfl
  | framing hpv hframing e h =>
    -- a stream that cannot be cut into frames closes the connection without a DISCONNECT
    exact ⟨hclosed h, fun _ _ hnot => absurd hframing hnot,
      fun _ => hstays (framing_disconnected hframing)⟩
  | disconnect hpv hframing hwhy reasonCode h =>
    exact hdisconnect (closes_of_disconnect hok hframing hwhy h)
  | closed hpv hframing hwhy e h =>
    -- no DISCONNECT goes out, because the connection is not one of v5.0 or is not connected
    refine ⟨hclosed h, fun hver hs _ => absurd ⟨hs, hver⟩ hwhy, ?_⟩
    rintro (hbroken | ⟨hver, hs⟩)
    · exact absurd hbroken hframing
    · exact absurd ⟨hs, hver⟩ hwhy
  | taken pv hpv h =>
    have hframing := framingFails_of_received hpv
    have hframing : ¬ c.framingFails is := by rw [hframing]; exact Bool.false_ne_true
    cases h with
    | nothing htype h => exact hnever h
    | notAllowed hallowed h => exact absurd (.inl ⟨pv, hpv, hallowed⟩) hok
    -- a packet that is delivered is the only signal, and it is no error
    | delivered hallowed pv' hpv' h =>
      rw [h] at hsignal
      cases List.mem_singleton.mp hsignal
    | disconnect hallowed hs htype hversion reasonCode h =>
      have hver : c.protocolVersion = .v5 := by
        by_cases hundetermined : c.protocolVersion = .undetermined
        · -- the only packet would be a CONNECT, which is not allowed now
          have hconnect := received_undetermined hpv hundetermined
          simp [recvAllowed, hconnect, hs] at hallowed
        · exact (received_version hpv hundetermined).symm.trans hversion
      exact hdisconnect (closes_of_disconnect hok hframing (.inr ⟨hs, hver⟩) h)
    | closed hallowed hs htype hversion h =>
      have hver : c.protocolVersion ≠ .v5 := by
        intro hver
        exact hversion ((received_version hpv (by rw [hver]; rintro ⟨⟩)).trans hver)
      refine ⟨hclosed h, fun h => absurd h hver, ?_⟩
      rintro (hbroken | ⟨h, -⟩)
      · exact absurd hbroken hframing
      · exact absurd h hver

/-- A PUBACK that nothing waits for, on a v5.0 connection: DISCONNECT and close. -/
theorem recv_error_closes_puback :
    let c := (make .server .two .v5).run
      [.recv [0x10, 0x0D, 0, 4, 0x4D, 0x51, 0x54, 0x54, 5, 2, 0, 10, 0, 0, 0],
        .send (.v5Connack (V5.connackOf false 0))]
    Event.close ∈ (c.recv [0x40, 2, 0, 1]).1.events ∧
    (c.protocolVersion = .v5 → c.status = .connected → ¬ c.framingFails [0x40, 2, 0, 1] →
      DisconnectsFirst (c.recv [0x40, 2, 0, 1]).1.events) ∧
    (c.framingFails [0x40, 2, 0, 1] ∨ c.protocolVersion = .v5 ∧ c.status = .connected →
      ∀ ops, Run.All next (fun c op => ¬ c.Opens op) (c.recv [0x40, 2, 0, 1]).1.conn ops →
      ∀ is', ∀ pv ∈ receives (((c.recv [0x40, 2, 0, 1]).1.conn.run ops).recv is').1.events,
        pv.type = .connect) := by
  refine @recv_error_closes .server .two _ _ ?_ (.disconnect DisconnectReasonCode.protocolError)
    (by decide) (by decide)
  rintro (⟨pv, hpv, hallowed⟩ | hrefused | ⟨-, -, hcan⟩)
  · obtain rfl := Option.some.inj hpv
    exact hallowed (by decide)
  · exact absurd hrefused (by decide)
  · exact hcan (by decide)

/-- A v5.0 connection whose stream cannot be cut into frames is closed without a
    DISCONNECT. A v3.1.1 connection that was told to close after a PUBACK that nothing waits
    for still receives a PINGREQ. -/
theorem recv_error_stays_open :
    let c₅ := (make .server .two .v5).run
      [.recv [0x10, 0x0D, 0, 4, 0x4D, 0x51, 0x54, 0x54, 5, 2, 0, 10, 0, 0, 0],
        .send (.v5Connack (V5.connackOf false 0))]
    let c₃ := (make .server .two .v311).run
      [.recv [0x10, 0x0C, 0, 4, 0x4D, 0x51, 0x54, 0x54, 4, 2, 0, 10, 0, 0],
        .send (.v311Connack (V311.connackPacket false 0))]
    (c₅.protocolVersion = .v5 ∧ c₅.status = .connected ∧
      signals (c₅.recv [0x30, 0xFF, 0xFF, 0xFF, 0xFF]).1.events =
        [.close, .error (.disconnect DisconnectReasonCode.packetTooLarge)]) ∧
    signals (c₃.recv [0x40, 2, 0, 1]).1.events = [.close, .error protocolError] ∧
    receives ((c₃.recv [0x40, 2, 0, 1]).1.conn.recv [0xC0, 0]).1.events =
      [.v311Pingreq (TwoBytePacket.make .pingreq)] := by
  refine ⟨⟨?_, ?_, ?_⟩, ?_, ?_⟩ <;> decide

end Connection

end AsyncMqtt
