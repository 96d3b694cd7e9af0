import AsyncMqtt.Spec.ConnectionSteps

/-!
# What a received packet does

`process_recv_packet` has a branch for each packet class, and most branches end in
one of a few ways. `Connection.RecvOutcome` lists them once, each with the state
after it and the events of the exchanges; the invariants of the connection are
proved by going through this list.

## Key results

- `Connection.processRecvDecoded_cases`: the list is complete
- `Connection.recv_cases`: the same for the bytes of a stream
- `Connection.notifyTimerFired_quiet`: a timer changes nothing of the session
-/

namespace AsyncMqtt

namespace Connection

variable {role : Role} {pb : PacketIdBytes}

/-- The response that a stored packet waits for, by the class and version of an
    acknowledgement. -/
def ackResponse (v5 v311 : ResponsePacket) (pv : PacketVariant pb) : ResponsePacket :=
  if pv.version = .v5 then v5 else v311

/-- `publish_send_count_` after an exchange has ended. -/
def endedCount (c : Connection role pb) : Nat :=
  if c.publishSendMax.isSome then (c.publishSendCount + (2 ^ 16 - 1)) % 2 ^ 16
  else c.publishSendCount

/-- The end of an exchange lowers the count. -/
theorem decPublishSendCount_eq (c : Connection role pb) :
    c.decPublishSendCount = { c with publishSendCount := c.endedCount } := by
  unfold endedCount decPublishSendCount
  split <;> rfl

/-- `publish_send_count_` after PUBACK or PUBCOMP: it is a matter of v5.0. -/
def ackedCount (pv : PacketVariant pb) (c : Connection role pb) : Nat :=
  if pv.version = .v5 then c.endedCount else c.publishSendCount

/-- What `process_recv_packet` does with a packet. -/
inductive RecvOutcome (c : Connection role pb) (pv : PacketVariant pb) (s : Step role pb) :
    Prop where
  | quiet (h : QuietStep c s)
  | connect (htype : pv.type = .connect) (hstatus : c.status = .disconnected) (clean : Bool)
      {timeout tas mps ns set} (htas : KeptOrNew none tas)
      (hconn : s.conn =
        { c with
          protocolVersion := pv.version, status := .connecting, isClient := false
          needStore := ns, publishSendMax := pv.receiveMaximum none, publishRecvMax := none
          publishSendCount := 0, topicAliasSend := tas, topicAliasRecv := none, publishRecv := ∅
          qos2PublishProcessing := ∅, pidSuback := ∅, pidUnsuback := ∅
          pidPuback := if clean then ∅ else c.pidPuback
          pidPubrec := if clean then ∅ else c.pidPubrec
          pidPubcomp := if clean then ∅ else c.pidPubcomp
          maximumPacketSizeSend := mps, pingreqRecvTimeoutMs := timeout, pingreqRecvSet := set })
      (hevents : exchanges s.events = [.receive pv]) (hclean : clean = pv.view.cleanStart)
  | connack (haccepts : pv.acceptsConnection) (hstatus : c.status = .connecting)
      {tas int set} {c₁ : Connection role pb} (htas : KeptOrNew c.topicAliasSend tas)
      (hc₁ : c₁ = { c with
        status := .connected, topicAliasSend := tas
        publishSendMax := pv.receiveMaximum c.publishSendMax
        maximumPacketSizeSend := pv.maximumPacketSize c.maximumPacketSizeSend
        pingreqSendIntervalMs := int, pingreqSendSet := set })
      (hconn : s.conn = (c₁.resumeSession pv.view.sessionPresent).conn)
      (hevents : exchanges s.events =
        exchanges (c₁.resumeSession pv.view.sessionPresent).events)
  | publish (htype : pv.type = .publish) {tar} (hconn : Quiet { c with topicAliasRecv := tar } s.conn)
      (hevents : ∀ e ∈ exchanges s.events, ∃ pv' : PacketVariant pb,
        e = .receive pv' ∧ pv'.type = .publish)
  | publishDelivered (htype : pv.type = .publish) (hqos : Pub.getQos pv.view.opts = Qos.exactlyOnce)
      (hnew : pv.packetId ∉ c.qos2PublishHandled) {tar}
      (hconn : Quiet { c with
        topicAliasRecv := tar, qos2PublishHandled := c.qos2PublishHandled.insert pv.packetId }
        s.conn) (pv' : PacketVariant pb) (htype' : pv'.type = .publish)
      (hqos' : Pub.getQos pv'.view.opts = Qos.exactlyOnce) (hid : pv'.packetId = pv.packetId)
      (hevents : exchanges s.events = [.receive pv'])
  | publishRejected {p : V5.PublishPacket pb} (hpv : pv = .v5Publish p)
      (hstatus : c.status = .connected) (hqos : Pub.getQos p.opts = Qos.exactlyOnce) (hmax : ¬ c.recvMaximumReached)
      (hnew : p.packetId ∉ c.qos2PublishHandled) (halias : c.recvTopicAlias p = none)
      (hconn : Quiet
        { c with qos2PublishHandled := c.qos2PublishHandled.insert p.packetId } s.conn)
      (hevents : exchanges s.events = [])
  | puback (htype : pv.type = .puback) (hstatus : c.status = .connected)
      (hmem : pv.packetId ∈ c.pidPuback)
      (hconn : s.conn =
        { c with
          pidPuback := c.pidPuback.erase pv.packetId
          store := c.store.erase (ackResponse .v5Puback .v311Puback pv) pv.packetId
          pidMan := c.pidMan.releaseId pv.packetId
          publishSendCount := c.ackedCount pv, pingreqRecvSet := c.nextPingreqRecvSet })
      (hevents : exchanges s.events = [.receive pv])
  | pubrecFailed {p : V5.PubResponsePacket pb} (hpv : pv = .v5Pubrec p)
      (hcode : reasonCodeFailed p.code) (hstatus : c.status = .connected)
      (hmem : p.packetId ∈ c.pidPubrec)
      (hconn : s.conn =
        { c with
          pidPubrec := c.pidPubrec.erase p.packetId
          store := c.store.erase .v5Pubrec p.packetId
          pidMan := c.pidMan.releaseId p.packetId
          qos2PublishProcessing := c.qos2PublishProcessing.erase p.packetId
          publishSendCount := c.endedCount, pingreqRecvSet := c.nextPingreqRecvSet })
      (hevents : exchanges s.events = [.receive pv])
  | pubrec (htype : pv.type = .pubrec) (hcode : ¬ reasonCodeFailed pv.view.code)
      (hstatus : c.status = .connected) (hmem : pv.packetId ∈ c.pidPubrec) {c₁ : Connection role pb} {r : Step role pb}
      (hc₁ : c₁ = { c with
        pidPubrec := c.pidPubrec.erase pv.packetId
        store := c.store.erase (ackResponse .v5Pubrec .v311Pubrec pv) pv.packetId })
      (hr : r = c₁.respondIf c₁.autoPubResponse (pubrelOf pv.version pb pv.packetId))
      (hconn : s.conn = { r.conn with pingreqRecvSet := r.conn.nextPingreqRecvSet })
      (hevents : exchanges s.events = exchanges r.events ++ [.receive pv])
  | pubrel (htype : pv.type = .pubrel)
      (hconn : Quiet
        { c with qos2PublishHandled := c.qos2PublishHandled.erase pv.packetId } s.conn)
      (hevents : exchanges s.events = [])
  | pubcomp (htype : pv.type = .pubcomp) (hstatus : c.status = .connected)
      (hmem : pv.packetId ∈ c.pidPubcomp)
      (hconn : s.conn =
        { c with
          pidPubcomp := c.pidPubcomp.erase pv.packetId
          store := c.store.erase (ackResponse .v5Pubcomp .v311Pubcomp pv) pv.packetId
          pidMan := c.pidMan.releaseId pv.packetId
          qos2PublishProcessing := c.qos2PublishProcessing.erase pv.packetId
          publishSendCount := c.ackedCount pv, pingreqRecvSet := c.nextPingreqRecvSet })
      (hevents : exchanges s.events = [.receive pv])
  | suback (htype : pv.type = .suback) (hmem : pv.packetId ∈ c.pidSuback)
      (hconn : s.conn = { c with
        pidSuback := c.pidSuback.erase pv.packetId
        pidMan := c.pidMan.releaseId pv.packetId, pingreqRecvSet := c.nextPingreqRecvSet })
      (hevents : exchanges s.events = [])
  | unsuback (htype : pv.type = .unsuback) (hmem : pv.packetId ∈ c.pidUnsuback)
      (hconn : s.conn = { c with
        pidUnsuback := c.pidUnsuback.erase pv.packetId
        pidMan := c.pidMan.releaseId pv.packetId, pingreqRecvSet := c.nextPingreqRecvSet })
      (hevents : exchanges s.events = [])

/-! ### CONNECT and CONNACK -/

/-- The keep-alive of a CONNECT sets the timeout. -/
theorem recvKeepAlive_eq (keepAlive : Nat) (c : Connection role pb) :
    c.recvKeepAlive keepAlive =
      { c with
        pingreqRecvTimeoutMs :=
          if keepAlive ≠ 0 then some (keepAlive * 1000 * 3 / 2) else c.pingreqRecvTimeoutMs } := by
  unfold recvKeepAlive
  split <;> rfl

/-- A packet is handed over in a state that is known. -/
theorem receive_conn_of_eq (pv : PacketVariant pb) {c c' : Connection role pb} (h : c = c') :
    (c.receive pv).conn = { c' with pingreqRecvSet := c.nextPingreqRecvSet } := by
  rw [receive_conn, h]

/-- What becomes of a v3.1.1 CONNECT -/
theorem recvConnectV311_outcome {c : Connection role pb} (hstatus : c.status = .disconnected)
    (p : V311.ConnectPacket) :
    RecvOutcome c (.v311Connect p) ((c.recvConnectV311 p).receive (.v311Connect p)) := by
  -- all but the timeout is written out
  have hconn : ∃ timeout, c.recvConnectV311 p =
      { c with
        protocolVersion := .v311, status := .connecting, isClient := false
        needStore := ! p.cleanSession, publishSendMax := none, publishRecvMax := none
        publishSendCount := 0, topicAliasSend := none, topicAliasRecv := none, publishRecv := ∅
        qos2PublishProcessing := ∅, pidSuback := ∅, pidUnsuback := ∅
        pidPuback := if p.cleanSession then ∅ else c.pidPuback
        pidPubrec := if p.cleanSession then ∅ else c.pidPubrec
        pidPubcomp := if p.cleanSession then ∅ else c.pidPubcomp
        pingreqRecvTimeoutMs := timeout } := by
    simp only [recvConnectV311, recvKeepAlive_eq]
    cases p.cleanSession <;> exact ⟨_, rfl⟩
  obtain ⟨timeout, hconn⟩ := hconn
  exact .connect rfl hstatus p.cleanSession (.inl rfl) (receive_conn_of_eq _ hconn)
    (exchanges_receive _ _) rfl

/-- What becomes of a v5 CONNECT -/
theorem recvConnectV5_outcome {c : Connection role pb} (hstatus : c.status = .disconnected)
    (p : V5.ConnectPacket) :
    RecvOutcome c (.v5Connect p) ((c.recvConnectV5 p).receive (.v5Connect p)) := by
  have hconn : ∃ timeout tas mps ns, KeptOrNew none tas ∧ c.recvConnectV5 p =
      { c with
        protocolVersion := .v5, status := .connecting, isClient := false
        needStore := ns, publishSendMax := lastVal .receiveMaximum some none p.props
        publishRecvMax := none, publishSendCount := 0
        topicAliasSend := tas, topicAliasRecv := none, publishRecv := ∅
        qos2PublishProcessing := ∅, pidSuback := ∅, pidUnsuback := ∅
        pidPuback := if p.cleanStart then ∅ else c.pidPuback
        pidPubrec := if p.cleanStart then ∅ else c.pidPubrec
        pidPubcomp := if p.cleanStart then ∅ else c.pidPubcomp
        maximumPacketSizeSend := mps, pingreqRecvTimeoutMs := timeout } := by
    simp only [recvConnectV5, recvKeepAlive_eq]
    -- the properties are read over the state that clean start leaves
    generalize hc₀ : (if p.cleanStart = true then _ else _ : Connection role pb) = c₀
    obtain ⟨tas, mps, ns, hprops, htas⟩ := foldl_recvConnectProp p.props c₀
    have hnone : c₀.topicAliasSend = none := by
      rw [← hc₀]
      cases p.cleanStart <;> rfl
    rw [hnone] at htas
    rw [hprops, ← hc₀]
    cases p.cleanStart <;> exact ⟨_, _, _, _, htas, rfl⟩
  obtain ⟨timeout, tas, mps, ns, htas, hconn⟩ := hconn
  exact .connect rfl hstatus p.cleanStart htas (receive_conn_of_eq _ hconn)
    (exchanges_receive _ _) rfl

/-- What becomes of a v3.1.1 CONNACK -/
theorem recvConnackV311_outcome {c : Connection role pb} (hstatus : c.status = .connecting)
    (p : V311.ConnackPacket) :
    RecvOutcome c (.v311Connack p) ((c.recvConnackV311 p).emit (.receive (.v311Connack p))) := by
  unfold recvConnackV311
  split
  · next hcode =>
    have haccepts : (PacketVariant.v311Connack p : PacketVariant pb).acceptsConnection := by
      simp [PacketVariant.acceptsConnection, PacketVariant.type, PacketVariant.view, hcode]
    refine .connack haccepts hstatus (.inl rfl) rfl rfl ?_
    rw [Step.events_emit, exchanges_append]
    exact List.append_nil _
  · exact .quiet ⟨.refl c, rfl⟩

/-- What becomes of a v5 CONNACK -/
theorem recvConnackV5_outcome {c : Connection role pb} (hstatus : c.status = .connecting)
    (p : V5.ConnackPacket) :
    RecvOutcome c (.v5Connack p) ((c.recvConnackV5 p).emit (.receive (.v5Connack p))) := by
  unfold recvConnackV5
  split
  · next hcode =>
    have haccepts : (PacketVariant.v5Connack p : PacketVariant pb).acceptsConnection := by
      simp [PacketVariant.acceptsConnection, PacketVariant.type, PacketVariant.view, hcode,
        ConnectReasonCode.success]
    obtain ⟨tas, int, set, hprops, htas⟩ :=
      recvConnackProps_conn p.props { c with status := .connected }
    refine .connack haccepts hstatus htas hprops rfl ?_
    rw [Step.events_emit, exchanges_append, Step.events_andThen, exchanges_append,
      exchanges_recvConnackProps]
    exact List.append_nil _
  · exact .quiet ⟨.refl c, rfl⟩

/-! ### PUBLISH -/

/-- A PUBLISH that changes nothing but what belongs to the connection. -/
theorem RecvOutcome.ofQuiet {c : Connection role pb} {pv : PacketVariant pb} {s t : Step role pb}
    {tar : Option TopicAliasRecv} {p : PacketVariant pb} (htype : pv.type = .publish)
    (h : QuietStep { c with topicAliasRecv := tar } s) (hp : p.type = .publish)
    (ht : t = s.emit (.receive p)) : RecvOutcome c pv t := by
  subst ht
  refine .publish htype h.1 fun e he => ?_
  rw [Step.events_emit, exchanges_append, h.2, List.nil_append, exchanges_cons] at he
  split at he
  · exact ⟨p, List.mem_singleton.mp he, hp⟩
  · exact nomatch he

/-- Handing over sets the timer first. -/
theorem andThen_receive (s : Step role pb) (pv : PacketVariant pb) :
    s.andThen (·.receive pv) = (s.andThen pingreqRecvOp).emit (.receive pv) := by
  simp only [Step.andThen, Step.emit, receive, List.append_assoc]

/-- A PUBLISH that is handed over belongs to an exchange. -/
theorem exchanges_receive_publish {pv : PacketVariant pb} (h : pv.type = .publish) :
    exchanges [Event.receive pv] = [.receive pv] := by
  rw [exchanges_cons, if_pos (by simp [Event.isExchange, h]), exchanges_nil]

/-- What becomes of a v3.1.1 PUBLISH -/
theorem recvPublishV311_outcome (p : V311.PublishPacket pb) (c : Connection role pb) :
    RecvOutcome c (.v311Publish p) (c.recvPublishV311 p) := by
  unfold recvPublishV311
  split
  · exact .ofQuiet rfl (quietStep_pingreqRecvOp c) rfl rfl
  · exact .ofQuiet rfl ((respondIf_quiet (pubackOf_quiet _ _ _) _ c).andThen
      (quietStep_pingreqRecvOp _)) rfl (andThen_receive _ _)
  · next hqos =>
    have hqos : Pub.getQos p.opts = Qos.exactlyOnce := UInt8.toNat_inj.mp hqos
    simp only
    -- a QoS 2 packet is handed over if its identifier is new
    split
    · next hmem =>
      have hsame : c.qos2PublishHandled.insert p.packetId = c.qos2PublishHandled :=
        OrdSet.insert_of_mem (by simpa using hmem)
      rw [hsame]
      exact .quiet ((respondIf_quiet (pubrecOf_quiet _ _ _) _ c).andThen
        (quietStep_pingreqRecvOp _))
    · next hmem =>
      have hnew : p.packetId ∉ c.qos2PublishHandled := by simpa using hmem
      have hquiet := (respondIf_quiet (pubrecOf_quiet .v311 pb p.packetId)
        (c.autoPubResponse || decide (p.packetId ∈ c.qos2PublishHandled))
        ({ c with qos2PublishHandled := c.qos2PublishHandled.insert p.packetId } :
          Connection role pb)).andThen (quietStep_pingreqRecvOp _)
      refine .publishDelivered rfl hqos hnew hquiet.1 (.v311Publish p) rfl hqos rfl ?_
      rw [Step.events_emit, exchanges_append, hquiet.2, List.nil_append,
        exchanges_receive_publish rfl]
  · exact .quiet ⟨.refl c, rfl⟩

/-- The topic alias only changes the table of aliases and the topic. -/
theorem recvTopicAlias_eq {p p' : V5.PublishPacket pb} {c c' : Connection role pb}
    (h : c.recvTopicAlias p = some (c', p')) :
    (∃ tar, c' = { c with topicAliasRecv := tar }) ∧ p'.opts = p.opts ∧ p'.packetId = p.packetId := by
  unfold recvTopicAlias at h
  -- the alias is looked up for an empty topic, and registered otherwise
  split at h
  · split at h
    · exact nomatch h
    · obtain ⟨rfl, rfl⟩ := Prod.mk.inj (Option.some.inj h)
      exact ⟨⟨_, rfl⟩, rfl, rfl⟩
  · exact nomatch h
  · split at h
    · exact nomatch h
    · split at h
      · dsimp only at h
        split at h
        · exact nomatch h
        · obtain ⟨rfl, rfl⟩ := Prod.mk.inj (Option.some.inj h)
          exact ⟨⟨_, rfl⟩, rfl, rfl⟩
      · obtain ⟨rfl, rfl⟩ := Prod.mk.inj (Option.some.inj h)
        exact ⟨⟨_, rfl⟩, rfl, rfl⟩

/-- The aliases that are known decide whether a topic is found. -/
theorem recvTopicAlias_eq_none {p : V5.PublishPacket pb} {c c' : Connection role pb}
    (h : c'.topicAliasRecv = c.topicAliasRecv) :
    c'.recvTopicAlias p = none ↔ c.recvTopicAlias p = none := by
  unfold recvTopicAlias
  rw [h]
  split
  · split <;> simp
  · simp
  · split
    · simp
    · split
      · dsimp only
        split <;> simp
      · simp

/-- After the QoS part a PUBLISH is rejected, or it is delivered unless it was handled
    before. -/
theorem recvPublishTopicV5_cases (p : V5.PublishPacket pb) {response : Option (PacketVariant pb)}
    (hresponse : ∀ pv ∈ response, pv.isQuiet) (alreadyHandled : Bool) (c : Connection role pb) :
    (c.recvTopicAlias p = none ∧ QuietStep c (c.recvPublishTopicV5 p response alreadyHandled)) ∨
    ∃ tar p' s, p'.opts = p.opts ∧ p'.packetId = p.packetId ∧
      QuietStep { c with topicAliasRecv := tar } s ∧
      c.recvPublishTopicV5 p response alreadyHandled =
        if alreadyHandled then s else s.emit (.receive (.v5Publish p')) := by
  unfold recvPublishTopicV5
  split
  · next h => exact .inl ⟨h, c.disconnectV5_quiet _⟩
  · next c' p' h =>
    obtain ⟨⟨tar, rfl⟩, hopts, hid⟩ := recvTopicAlias_eq h
    refine .inr ⟨tar, p', _, hopts, hid, ?_, rfl⟩
    cases response with
    | none => exact QuietStep.andThen ⟨.refl _, rfl⟩ (quietStep_pingreqRecvOp _)
    | some pv => exact (send_quiet (hresponse pv rfl) _).andThen (quietStep_pingreqRecvOp _)

/-- The same for a PUBLISH that is not recorded as handled. -/
theorem recvPublishTopicV5_outcome (p : V5.PublishPacket pb) {response : Option (PacketVariant pb)}
    (hresponse : ∀ pv ∈ response, pv.isQuiet) (ids : OrdSet Nat) (c : Connection role pb) :
    RecvOutcome c (.v5Publish p)
      (recvPublishTopicV5 p response false { c with publishRecv := ids }) := by
  rcases recvPublishTopicV5_cases p hresponse false
    ({ c with publishRecv := ids } : Connection role pb) with
    ⟨-, hq⟩ | ⟨tar, p', s, -, -, hq, heq⟩
  · exact .quiet ⟨(quiet_publishRecv c ids).trans hq.1, hq.2⟩
  · rw [heq]
    have hids := quiet_publishRecv ({ c with topicAliasRecv := tar } : Connection role pb) ids
    exact .ofQuiet rfl ⟨hids.trans hq.1, hq.2⟩ rfl rfl

/-- A response that is sent on a condition. -/
theorem forall_mem_response (cond : Prop) [Decidable cond] {P : PacketVariant pb → Prop}
    {r : PacketVariant pb} (h : P r) : ∀ pv ∈ (if cond then some r else none), P pv := by
  intro pv hpv
  split at hpv
  · exact Option.some.inj hpv ▸ h
  · exact nomatch hpv

/-- What becomes of a v5 PUBLISH -/
theorem recvPublishV5_outcome (p : V5.PublishPacket pb) {c : Connection role pb}
    (hstatus : c.status = .connected) : RecvOutcome c (.v5Publish p) (c.recvPublishV5 p) := by
  have hpuback := pubackOf_quiet .v5 pb p.packetId
  have hpubrec := pubrecOf_quiet .v5 pb p.packetId
  unfold recvPublishV5
  split
  · split
    · exact .quiet (c.disconnectV5_quiet _)
    · exact recvPublishTopicV5_outcome p (forall_mem_response _ hpuback) _ c
  · next hqos =>
    have hqos : Pub.getQos p.opts = Qos.exactlyOnce := UInt8.toNat_inj.mp hqos
    split
    · exact .quiet (c.disconnectV5_quiet _)
    · next hmax =>
      -- whether the identifier was handled before decides if the message is handed over
      by_cases hmem : p.packetId ∈ c.qos2PublishHandled
      · have hsame : c.qos2PublishHandled.insert p.packetId = c.qos2PublishHandled :=
          OrdSet.insert_of_mem hmem
        simp only [hmem, hsame, decide_true]
        rcases recvPublishTopicV5_cases p
          (forall_mem_response ((c.autoPubResponse || true) = true ∧ c.status = .connected) hpubrec)
          true
          ({ c with publishRecv := c.publishRecv.insert p.packetId } : Connection role pb) with
          ⟨-, hq'⟩ | ⟨tar, p', s, -, -, hq', heq⟩
        · exact .quiet ⟨(quiet_publishRecv c _).trans hq'.1, hq'.2⟩
        · rw [heq]
          have hids := quiet_publishRecv ({ c with topicAliasRecv := tar } : Connection role pb)
            (c.publishRecv.insert p.packetId)
          refine .publish rfl (hids.trans hq'.1) ?_
          rw [if_pos rfl, hq'.2]
          exact nofun
      · simp only [hmem, decide_false]
        rcases recvPublishTopicV5_cases p
          (forall_mem_response ((c.autoPubResponse || false) = true ∧ c.status = .connected) hpubrec)
          false
          ({ c with
            publishRecv := c.publishRecv.insert p.packetId
            qos2PublishHandled := c.qos2PublishHandled.insert p.packetId } :
            Connection role pb) with
          ⟨halias, hq'⟩ | ⟨tar, p', s, hopts, hid, hq', heq⟩
        · have hids := quiet_publishRecv
            ({ c with qos2PublishHandled := c.qos2PublishHandled.insert p.packetId } :
              Connection role pb) (c.publishRecv.insert p.packetId)
          have htar := @recvTopicAlias_eq_none role pb p c
            { c with
              publishRecv := c.publishRecv.insert p.packetId
              qos2PublishHandled := c.qos2PublishHandled.insert p.packetId } rfl
          have hkeeps := hids.trans hq'.1
          exact .publishRejected rfl hstatus hqos hmax hmem (htar.mp halias) hkeeps hq'.2
        · rw [heq]
          have hids := quiet_publishRecv
            ({ c with
              topicAliasRecv := tar
              qos2PublishHandled := c.qos2PublishHandled.insert p.packetId } :
              Connection role pb) (c.publishRecv.insert p.packetId)
          refine .publishDelivered rfl hqos hmem (hids.trans hq'.1) (.v5Publish p') rfl
            ((congrArg Pub.getQos hopts).trans hqos) hid ?_
          rw [if_neg Bool.false_ne_true, Step.events_emit, exchanges_append, hq'.2,
            exchanges_receive_publish rfl]
          rfl
  · exact recvPublishTopicV5_outcome p (fun _ hpv => absurd hpv (Option.not_mem_none _))
      c.publishRecv c

/-! ### Acknowledgements -/

/-- A packet of an exchange is handed over as such. -/
theorem exchanges_receive_of {pv : PacketVariant pb} (h : Event.isExchange (.receive pv) = true)
    (c : Connection role pb) : exchanges (c.receive pv).events = [.receive pv] := by
  rw [exchanges_receive, exchanges_cons, if_pos h, exchanges_nil]

/-- Only v5 lowers the count. -/
theorem ackedCount_eq (pv : PacketVariant pb) (c : Connection role pb) :
    (if pv.version = .v5 then c.decPublishSendCount else c) =
      { c with publishSendCount := c.ackedCount pv } := by
  unfold ackedCount
  split
  · rw [decPublishSendCount_eq]
  · rfl

/-- What becomes of a PUBACK -/
theorem recvPuback_outcome {pv : PacketVariant pb} (htype : pv.type = .puback)
    {c : Connection role pb} (hstatus : c.status = .connected) :
    RecvOutcome c pv (c.recvPuback pv.version pv) := by
  unfold recvPuback
  dsimp only
  split
  · next hmem =>
    refine .puback htype hstatus hmem ?_ ?_
    · rw [Step.conn_andThen, ackedCount_eq, receive_conn]
      rfl
    · rw [Step.events_andThen, exchanges_append,
        exchanges_receive_of (by simp [Event.isExchange, htype])]
      rfl
  · exact .quiet (c.invalidPacketId_quiet _)

/-- What becomes of a PUBCOMP -/
theorem recvPubcomp_outcome {pv : PacketVariant pb} (htype : pv.type = .pubcomp)
    {c : Connection role pb} (hstatus : c.status = .connected) :
    RecvOutcome c pv (c.recvPubcomp pv.version pv) := by
  unfold recvPubcomp
  dsimp only
  split
  · next hmem =>
    refine .pubcomp htype hstatus hmem ?_ ?_
    · rw [Step.conn_andThen, ackedCount_eq, receive_conn]
      rfl
    · rw [Step.events_andThen, exchanges_append,
        exchanges_receive_of (by simp [Event.isExchange, htype])]
      rfl
  · exact .quiet (c.invalidPacketId_quiet _)

/-- What becomes of a SUBACK -/
theorem recvSuback_outcome {pv : PacketVariant pb} (htype : pv.type = .suback)
    (c : Connection role pb) : RecvOutcome c pv (c.recvSuback pv.version pv) := by
  unfold recvSuback
  split
  · next hmem =>
    refine .suback htype hmem ?_ ?_
    · rw [Step.conn_andThen, receive_conn]
      rfl
    · rw [Step.events_andThen, exchanges_append, exchanges_receive]
      simp [releaseId, Event.isExchange, htype]
  · exact .quiet (c.invalidPacketId_quiet _)

/-- What becomes of an UNSUBACK -/
theorem recvUnsuback_outcome {pv : PacketVariant pb} (htype : pv.type = .unsuback)
    (c : Connection role pb) : RecvOutcome c pv (c.recvUnsuback pv.version pv) := by
  unfold recvUnsuback
  split
  · next hmem =>
    refine .unsuback htype hmem ?_ ?_
    · rw [Step.conn_andThen, receive_conn]
      rfl
    · rw [Step.events_andThen, exchanges_append, exchanges_receive]
      simp [releaseId, Event.isExchange, htype]
  · exact .quiet (c.invalidPacketId_quiet _)

/-- What becomes of a PUBREC -/
theorem recvPubrec_outcome {pv : PacketVariant pb} (htype : pv.type = .pubrec)
    (hcode : ¬ reasonCodeFailed pv.view.code) {c : Connection role pb}
    (hstatus : c.status = .connected) :
    RecvOutcome c pv (c.recvPubrec pv.version false pv) := by
  unfold recvPubrec
  dsimp only
  split
  · next hmem =>
    refine .pubrec htype hcode hstatus hmem rfl rfl ?_ ?_
    · rw [if_neg Bool.false_ne_true, Step.conn_andThen, receive_conn]
      rfl
    · rw [if_neg Bool.false_ne_true, Step.events_andThen, exchanges_append,
        exchanges_receive_of (by simp [Event.isExchange, htype])]
      rfl
  · exact .quiet (c.invalidPacketId_quiet _)

/-- What becomes of a PUBREC with a failure -/
theorem recvPubrecFailed_outcome {p : V5.PubResponsePacket pb} (hcode : reasonCodeFailed p.code)
    {c : Connection role pb} (hstatus : c.status = .connected) :
    RecvOutcome c (.v5Pubrec p) (c.recvPubrec .v5 true (.v5Pubrec p)) := by
  unfold recvPubrec
  dsimp only
  split
  · next hmem =>
    refine .pubrecFailed rfl hcode hstatus hmem ?_ ?_
    · rw [if_pos rfl, Step.conn_andThen, receive_conn, Step.conn_andThen, decPublishSendCount_eq]
      rfl
    · rw [if_pos rfl, Step.events_andThen, exchanges_append, exchanges_receive_of rfl]
      rfl
  · exact .quiet (c.invalidPacketId_quiet _)

/-- What becomes of a PUBREL -/
theorem recvPubrel_outcome {pv : PacketVariant pb} (htype : pv.type = .pubrel)
    (c : Connection role pb) : RecvOutcome c pv (c.recvPubrel pv.version pv) := by
  have hquiet := (respondIf_quiet (pubcompOf_quiet pv.version pb pv.packetId) c.autoPubResponse
    ({ c with qos2PublishHandled := c.qos2PublishHandled.erase pv.packetId } :
      Connection role pb)).andThen (quietStep_pingreqRecvOp _)
  have hevents := @QuietStep.emit _ _ _ _ (.receive pv) hquiet (by simp [Event.isExchange, htype])
  unfold recvPubrel
  dsimp only
  rw [andThen_receive]
  exact .pubrel htype hevents.1 hevents.2

/-! ### All packets -/

/-- What becomes of a packet that the status allows -/
theorem processRecvActual_cases (pv : PacketVariant pb) {c : Connection role pb}
    (h : c.recvAllowed pv) : RecvOutcome c pv (c.processRecvActual pv) := by
  have hreceive : ∀ {pv : PacketVariant pb}, Event.isExchange (.receive pv) = false →
      QuietStep c (c.receive pv) := fun he => (quietStep_pingreqRecvOp c).emit he
  -- each type has its outcome
  cases pv with
  | v311Connect p => exact recvConnectV311_outcome (of_decide_eq_true h) p
  | v5Connect p => exact recvConnectV5_outcome (of_decide_eq_true h) p
  | v311Connack p => exact recvConnackV311_outcome (of_decide_eq_true h) p
  | v5Connack p => exact recvConnackV5_outcome (of_decide_eq_true h) p
  | v311Publish p => exact recvPublishV311_outcome p c
  | v5Publish p => exact recvPublishV5_outcome p (of_decide_eq_true h)
  | v311Puback p | v5Puback p => exact recvPuback_outcome rfl (of_decide_eq_true h)
  | v311Pubrec p => exact @recvPubrec_outcome role pb (.v311Pubrec p) rfl Bool.false_ne_true c (of_decide_eq_true h)
  | v5Pubrec p =>
    simp only [processRecvActual]
    cases hcode : reasonCodeFailed p.code with
    | true => exact recvPubrecFailed_outcome hcode (of_decide_eq_true h)
    | false =>
      have hok : ¬ reasonCodeFailed (PacketVariant.v5Pubrec p).view.code := by
        simpa [PacketVariant.view] using hcode
      exact recvPubrec_outcome rfl hok (of_decide_eq_true h)
  | v311Pubrel p | v5Pubrel p => exact recvPubrel_outcome rfl c
  | v311Pubcomp p | v5Pubcomp p => exact recvPubcomp_outcome rfl (of_decide_eq_true h)
  | v311Suback p | v5Suback p => exact recvSuback_outcome rfl c
  | v311Unsuback p | v5Unsuback p => exact recvUnsuback_outcome rfl c
  | v311Pingreq p | v5Pingreq p =>
    simp only [processRecvActual, recvPingreq]
    rw [andThen_receive]
    exact .quiet (((respondIf_quiet rfl _ c).andThen (quietStep_pingreqRecvOp _)).emit rfl)
  | v311Pingresp p | v5Pingresp p => exact .quiet ⟨⟨_, _, _, _, _, .inl rfl, rfl⟩, rfl⟩
  | v311Disconnect p | v5Disconnect p =>
    refine .quiet ⟨?_, ?_⟩
    · rw [processRecvActual, recvDisconnect, Step.conn_emit, cancelTimers_conn]
      exact ⟨_, _, _, _, _, .inr rfl, rfl⟩
    · rw [processRecvActual, recvDisconnect, Step.events_emit, exchanges_append,
        exchanges_cancelTimers]
      rfl
  | v311Subscribe p | v5Subscribe p | v311Unsubscribe p | v5Unsubscribe p | v5Auth p =>
    exact .quiet (hreceive rfl)

/-- What becomes of any packet -/
theorem processRecvDecoded_cases (pv : PacketVariant pb) (c : Connection role pb) :
    RecvOutcome c pv (c.processRecvDecoded pv) := by
  unfold processRecvDecoded
  split
  · next h => exact processRecvActual_cases pv h
  · exact .quiet ⟨.refl c, rfl⟩

/-! ### Frames and timers -/

/-- The packet that a call of `recv` processes, if there is one. -/
def received (is : List UInt8) (c : Connection role pb) : Option (PacketVariant pb) :=
  match (c.rpb.recv is).2.1 with
  | some (.packet buf) =>
    if c.maximumPacketSizeRecv < buf.length then none
    else
      match (bufferToPacketVariant pb c.protocolVersion).run buf with
      | .ok (pv, _) => some pv
      | .error _ => none
  | _ => none

/-- A call of `recv` that completes a packet decodes this packet. -/
theorem recv_of_packet {is buf : List UInt8} {c : Connection role pb}
    (h : (c.rpb.recv is).2.1 = some (.packet buf)) :
    (c.recv is).1 = processRecvPacket (.packet buf) { c with rpb := (c.rpb.recv is).1 } := by
  unfold recv
  rcases hrecv : c.rpb.recv is with ⟨rpb, out, rest⟩
  rw [hrecv] at h
  dsimp only at h
  subst h
  rfl

/-- A packet that can be decoded is processed. -/
theorem recv_of_received {is : List UInt8} {c : Connection role pb} {pv : PacketVariant pb}
    (h : c.received is = some pv) :
    (c.recv is).1 = processRecvDecoded pv { c with rpb := (c.rpb.recv is).1 } := by
  unfold received at h
  split at h
  · next buf hbuf =>
    rw [recv_of_packet hbuf, processRecvPacket]
    split at h
    · exact nomatch h
    · next hsize =>
      rw [if_neg hsize]
      split at h
      · next pv' rest' hrun =>
        obtain rfl := Option.some.inj h
        rw [hrun]
      · exact nomatch h
  · exact nomatch h

/-- The reason code of the CONNACK that answers a CONNECT which cannot be decoded. -/
def refusedConnect (is : List UInt8) (c : Connection role pb) : Option UInt8 :=
  match (c.rpb.recv is).2.1 with
  | some (.packet buf) =>
    if c.maximumPacketSizeRecv < buf.length then none
    else
      match (bufferToPacketVariant pb c.protocolVersion).run buf with
      | .error (.error ec) =>
        if c.status = .disconnected ∧ ec.category = .connectReasonCode then
          some (UInt8.ofNat ec.value)
        else none
      | _ => none
  | _ => none

/-- A CONNECT that cannot be decoded is no packet. -/
theorem received_of_refused {is : List UInt8} {c : Connection role pb} {value : UInt8}
    (h : c.refusedConnect is = some value) : c.received is = none := by
  unfold refusedConnect at h
  unfold received
  split at h
  · split at h
    · exact nomatch h
    · next hsize =>
      split at h
      · next ec hrun => simp only [hrun, ite_self]
      · exact nomatch h
  · exact nomatch h

/-- The CONNACK that answers a CONNECT which cannot be decoded. -/
def refusal (c : Connection role pb) (value : UInt8) : PacketVariant pb :=
  if c.protocolVersion = .v5 then .v5Connack (V5.connackOf false value)
  else .v311Connack (V311.connackPacket false value)

/-- A refusal is a CONNACK. -/
theorem refusal_type (c : Connection role pb) (value : UInt8) :
    (c.refusal value).type = .connack := by
  unfold refusal
  split <;> rfl

/-- A CONNECT that cannot be decoded is answered with a CONNACK. -/
theorem recv_of_refused {is : List UInt8} {c : Connection role pb} {value : UInt8}
    (h : c.refusedConnect is = some value) :
    (c.recv is).1 = (send (c.refusal value)
      { c with rpb := (c.rpb.recv is).1, status := .connecting }).emit
        (.error (.connect value)) := by
  unfold refusedConnect at h
  -- the packet was framed, is not too large, and failed to decode
  split at h
  · next buf hbuf =>
    rw [recv_of_packet hbuf, processRecvPacket]
    split at h
    · exact nomatch h
    · next hsize =>
      rw [if_neg hsize]
      split at h
      · next ec hrun =>
        split at h
        · next hcond =>
          obtain rfl := Option.some.inj h
          rw [hrun]
          exact if_pos hcond
        · exact nomatch h
      · exact nomatch h
  · exact nomatch h

/-- A call of `recv` processes a packet, or answers a malformed CONNECT, or changes
    nothing of the session. -/
theorem recv_cases (is : List UInt8) {c c₀ : Connection role pb}
    (hc₀ : c₀ = { c with rpb := (c.rpb.recv is).1 }) :
    QuietStep c₀ (c.recv is).1 ∨
    (∃ pv, c.received is = some pv ∧ RecvOutcome c₀ pv (c.recv is).1) ∨
    (∃ value c₁, c.refusedConnect is = some value ∧ c.status = .disconnected ∧
      c₁ = { c₀ with status := .connecting } ∧
      (c.recv is).1 = (c₁.send (c.refusal value)).emit (.error (.connect value))) := by
  unfold recv received refusedConnect
  rcases hrecv : c.rpb.recv is with ⟨rpb, out, rest⟩
  rw [hrecv] at hc₀
  subst hc₀
  match out with
  -- no packet is complete
  | none => exact .inl ⟨.refl _, rfl⟩
  | some (.ec ec) =>
    refine .inl ⟨?_, ?_⟩
    · simp only [processRecvPacket, Step.conn_emit, cancelTimers_conn]
      exact ⟨_, _, _, _, _, .inr rfl, rfl⟩
    · simp only [processRecvPacket, Step.events_emit, exchanges_append, exchanges_cancelTimers]
      rfl
  | some (.packet buf) =>
    simp only [processRecvPacket]
    -- too large, decoded, refused or not readable
    split
    · exact .inl (disconnectV5_quiet _ _)
    · split
      · next pv rest' hrun =>
        exact .inr (.inl ⟨pv, by rw [hrun], processRecvDecoded_cases pv _⟩)
      · next ec hrun =>
        unfold processRecvError
        simp only
        split
        · next hrefused =>
          refine .inr (.inr ⟨UInt8.ofNat ec.value, _, ?_, hrefused.1, rfl, rfl⟩)
          rw [hrun]
          exact if_pos hrefused
        · split
          · exact .inl (disconnectV5_quiet _ _)
          · exact .inl ⟨.refl _, rfl⟩
      · exact .inl ⟨.refl _, rfl⟩

/-- The timer of the server is quiet. -/
theorem recvTimerFired_quiet (c : Connection role pb) : QuietStep c c.recvTimerFired := by
  unfold recvTimerFired
  split
  · exact ⟨.refl c, rfl⟩
  · split
    · exact send_quiet rfl c
    · exact ⟨.refl c, rfl⟩
  · exact ⟨.refl c, rfl⟩

/-- Every timer is quiet. -/
theorem notifyTimerFired_quiet (kind : TimerKind) (c : Connection role pb) :
    QuietStep c (c.notifyTimerFired kind) := by
  have hset : ∀ {a b d : Bool} {s : Step role pb},
      QuietStep { c with pingreqSendSet := a, pingreqRecvSet := b, pingrespRecvSet := d } s →
        QuietStep c s := fun h => ⟨Quiet.trans ⟨_, _, _, _, _, .inl rfl, rfl⟩ h.1, h.2⟩
  unfold notifyTimerFired
  -- the PINGREQ is sent, or the two other timers end the connection
  split
  · refine @hset false c.pingreqRecvSet c.pingrespRecvSet _ ?_
    dsimp only
    split
    · split
      · exact send_quiet rfl _
      · exact ⟨.refl _, rfl⟩
    · split
      · exact send_quiet rfl _
      · exact ⟨.refl _, rfl⟩
    · exact ⟨.refl _, rfl⟩
  · exact @hset c.pingreqSendSet false c.pingrespRecvSet _ (recvTimerFired_quiet _)
  · exact @hset c.pingreqSendSet c.pingreqRecvSet false _ (recvTimerFired_quiet _)

end Connection

end AsyncMqtt
