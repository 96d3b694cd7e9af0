import AsyncMqtt.Spec.RecvCases
import AsyncMqtt.Spec.SendCases

/-!
# Delivery of QoS 2 messages

A QoS 2 PUBLISH whose identifier is in `qos2_publish_handled_` is not given to the
application again, so an identifier should get there only when the application has
received the message. The identifier is recorded before the topic alias is checked,
however: a PUBLISH with a bad alias is dropped, and yet recorded as handled.

## Key results

- `Connection.handled_step`: which steps record an identifier
- `Connection.handled_since_delivery`: in a run without such a PUBLISH every identifier
  was delivered
- `Connection.handled_without_delivery`: a run with one
-/

namespace AsyncMqtt

/-- A PUBLISH with QoS 2. -/
def PacketVariant.isQos2Publish {pb : PacketIdBytes} (pv : PacketVariant pb) : Bool :=
  pv.type = .publish && Pub.getQos pv.view.opts = Qos.exactlyOnce

namespace Connection

variable {role : Role} {pb : PacketIdBytes}

/-- A step that gives the application a QoS 2 PUBLISH with this identifier, or that
    restores the identifier. -/
def Delivers (packetId : Nat) (c : Connection role pb) (op : Op pb) : Prop :=
  (∃ pids, op = .restoreQos2PublishHandledPids pids ∧ packetId ∈ pids) ∨
  ∃ pv, Event.receive pv ∈ (c.call op).events ∧ pv.type = .publish ∧
    Pub.getQos pv.view.opts = Qos.exactlyOnce ∧ pv.packetId = packetId

/-- A QoS 2 PUBLISH that is new is dropped because of its topic alias. -/
def dropsPublish (is : List UInt8) (c : Connection role pb) : Prop :=
  ∃ p, c.received is = some (.v5Publish p) ∧ c.status = .connected ∧
    Pub.getQos p.opts = Qos.exactlyOnce ∧ ¬ c.recvMaximumReached ∧
    p.packetId ∉ c.qos2PublishHandled ∧ c.recvTopicAlias p = none

/-- A call that does not drop a QoS 2 PUBLISH. -/
def KeepsPublish (c : Connection role pb) (op : Op pb) : Prop :=
  ∀ is, op = .recv is → ¬ c.dropsPublish is

/-! ### One step -/

theorem Quiet.handled {c c' : Connection role pb} (h : Quiet c c') :
    c'.qos2PublishHandled = c.qos2PublishHandled := by
  obtain ⟨_, _, _, _, _, -, rfl⟩ := h
  rfl

theorem PublishOutcome.handled {c : Connection role pb} {pv : PacketVariant pb}
    {r : Sent role pb} (h : PublishOutcome c pv r) :
    r.step.conn.qos2PublishHandled = c.qos2PublishHandled := by
  cases h with
  | stopped _ hs =>
    obtain ⟨tas, m, hconn, -, -⟩ := hs.conn
    rw [hconn]
  | plain _ pv' _ _ _ _ hconn => rw [hconn]
  | failed _ ec hc₁ hr =>
    have hentered : (c.publishEntered pv).qos2PublishHandled = c.qos2PublishHandled := by
      rw [publishEntered_eq]
    obtain ⟨m, hm, -⟩ := failRelease_conn _ ec pv.packetId
    rw [hr, hm, hc₁]
    exact hentered
  | entered _ _ pv' _ _ _ _ hconn => rw [hconn, publishEntered_eq]

/-- Sending records nothing as handled. -/
theorem send_handled (pv : PacketVariant pb) (c : Connection role pb) {packetId : Nat}
    (h : packetId ∈ (c.send pv).conn.qos2PublishHandled) : packetId ∈ c.qos2PublishHandled := by
  cases send_cases pv c with
  | quiet hq => exact hq.1.handled ▸ h
  | tooLarge _ _ _ _ hconn => rw [hconn] at h; exact h
  | connect _ _ _ _ hc₁ hconn => rw [hconn.handled, hc₁] at h; exact h
  | connack _ _ _ _ hc₁ hconn =>
    rw [hconn.handled, sendStored_conn, hc₁] at h
    exact h
  | pubrecRefused _ _ hconn => exact (OrdSet.mem_erase.mp (hconn.handled ▸ h)).1
  | pubrel _ _ _ _ _ hconn => exact hconn.handled ▸ h
  | subscribe _ _ hconn => exact hconn.handled ▸ h
  | unsubscribe _ _ hconn => exact hconn.handled ▸ h
  | publish _ _ hp hconn => rw [hconn.handled, hp.handled] at h; exact h

/-- A received packet records no identifier but that of a QoS 2 PUBLISH which is
    delivered, or dropped because of its topic alias. -/
theorem RecvOutcome.handled {c : Connection role pb} {pv : PacketVariant pb} {s : Step role pb}
    (hout : RecvOutcome c pv s) {packetId : Nat} (h : packetId ∈ s.conn.qos2PublishHandled) :
    packetId ∈ c.qos2PublishHandled ∨
    (pv.isQos2Publish ∧ pv.packetId = packetId) ∧
    ((∃ pv', Event.receive pv' ∈ s.events ∧ pv'.type = .publish ∧
      Pub.getQos pv'.view.opts = Qos.exactlyOnce ∧ pv'.packetId = packetId) ∨
    ∃ p, pv = .v5Publish p ∧ c.status = .connected ∧ Pub.getQos p.opts = Qos.exactlyOnce ∧
      ¬ c.recvMaximumReached ∧ p.packetId ∉ c.qos2PublishHandled ∧
      c.recvTopicAlias p = none) := by
  -- only a PUBLISH with QoS 2 notes its identifier
  cases hout with
  | quiet hq => exact .inl (hq.1.handled ▸ h)
  | connect _ _ _ _ hconn => rw [hconn] at h; exact .inl h
  | connack _ _ _ hc₁ hconn =>
    rw [hconn, resumeSession, hc₁] at h
    split at h
    · rw [sendStored_conn] at h
      exact .inl h
    · exact .inl h
  | publish _ hconn => exact .inl (hconn.handled ▸ h)
  -- the message is handed over when its identifier is noted
  | publishDelivered htype hqos hnew hconn pv' htype' hqos' hid hevents =>
    rcases OrdSet.mem_insert.mp (hconn.handled ▸ h) with rfl | h
    · have hmem : Event.receive pv' ∈ exchanges s.events := by
        rw [hevents]
        exact List.mem_singleton_self _
      have hqos2 : pv.isQos2Publish := by simp [PacketVariant.isQos2Publish, htype, hqos]
      exact .inr ⟨⟨hqos2, rfl⟩, .inl ⟨pv', (List.mem_filter.mp hmem).1, htype', hqos', hid⟩⟩
    · exact .inl h
  -- the identifier was noted, but the alias of the PUBLISH is not known
  | @publishRejected p hpv hstatus hqos hmax hnew halias hconn =>
    rcases OrdSet.mem_insert.mp (hconn.handled ▸ h) with rfl | h
    · have hqos2 : (PacketVariant.v5Publish p).isQos2Publish := by
        simp only [PacketVariant.isQos2Publish, Bool.and_eq_true, decide_eq_true_eq]
        exact ⟨rfl, hqos⟩
      exact .inr ⟨hpv ▸ ⟨hqos2, rfl⟩, .inr ⟨p, hpv, hstatus, hqos, hmax, hnew, halias⟩⟩
    · exact .inl h
  | puback _ _ _ hconn => rw [hconn] at h; exact .inl h
  | pubrecFailed _ _ _ _ hconn => rw [hconn] at h; exact .inl h
  | @pubrec _ _ _ _ c₁ r hc₁ hr hconn =>
    have hr' : packetId ∈ r.conn.qos2PublishHandled := by rw [hconn] at h; exact h
    rw [hr, respondIf] at hr'
    have hmem : packetId ∈ c₁.qos2PublishHandled := by
      split at hr'
      · exact send_handled _ _ hr'
      · exact hr'
    rw [hc₁] at hmem
    exact .inl hmem
  | pubrel _ hconn => exact .inl (OrdSet.mem_erase.mp (hconn.handled ▸ h)).1
  | pubcomp _ _ _ hconn => rw [hconn] at h; exact .inl h
  | suback _ _ hconn => rw [hconn] at h; exact .inl h
  | unsuback _ _ hconn => rw [hconn] at h; exact .inl h

/-- An identifier that is recorded after a step was recorded before it, or the step
    delivers it. -/
theorem handled_step {c : Connection role pb} {op : Op pb} (hkeeps : c.KeepsPublish op)
    {packetId : Nat} (h : packetId ∈ (c.next op).qos2PublishHandled) :
    Delivers packetId c op ∨ packetId ∈ c.qos2PublishHandled := by
  -- bytes and restorations note identifiers
  cases op with
  | recv is =>
    have hdrops := hkeeps is rfl
    rcases recv_cases is (c := c) rfl with hq | ⟨pv, hpv, hout⟩ | ⟨value, c₁, -, -, hc₁, hs⟩
    · exact .inr (hq.1.handled ▸ h)
    · rcases hout.handled h with hmem | ⟨-, hdelivered | ⟨p, rfl, hdrop⟩⟩
      · exact .inr hmem
      · exact .inl (.inr hdelivered)
      · have halias := (@recvTopicAlias_eq_none role pb p c { c with rpb := (c.rpb.recv is).1 }
          rfl).mp hdrop.2.2.2.2
        exact absurd ⟨p, hpv, hdrop.1, hdrop.2.1, hdrop.2.2.1, hdrop.2.2.2.1, halias⟩ hdrops
    · rw [next, call, hs, Step.conn_emit] at h
      have hmem := send_handled _ _ h
      rw [hc₁] at hmem
      exact .inr hmem
  | send pv => exact .inr (send_handled pv c h)
  | notifyTimerFired kind => exact .inr ((notifyTimerFired_quiet kind c).1.handled ▸ h)
  | notifyClosed =>
    rw [next, call, notifyClosed_conn] at h
    dsimp only at h
    split at h
    · exact .inr h
    · exact absurd h (OrdSet.notMem_empty _)
  | restorePackets pvs =>
    obtain ⟨m, st, a, b, d, heq⟩ := c.restorePackets_eq pvs
    rw [next, call, heq] at h
    exact .inr h
  | restoreQos2PublishHandledPids pids => exact .inl (.inl ⟨pids, rfl, h⟩)
  | releasePacketId id =>
    rw [next, call, releasePacketId_conn] at h
    exact .inr h
  | setPingreqSendInterval duration =>
    rw [next, call, setPingreqSendInterval] at h
    split at h <;> exact .inr h
  | _ => exact .inr h

/-! ### Runs -/

/-- In a run that drops no QoS 2 PUBLISH because of its topic alias, every identifier in
    `qos2_publish_handled_` was restored, or the application has received a QoS 2 PUBLISH
    with it, and it has not left the set since. -/
theorem handled_since_delivery (ver : ProtocolVersion) (ops : List (Op pb))
    (hops : Run.All next KeepsPublish (make role pb ver) ops) (packetId : Nat)
    (h : packetId ∈ ((make role pb ver).run ops).qos2PublishHandled) :
    Run.Since next (Delivers packetId) (packetId ∈ ·.qos2PublishHandled) (make role pb ver) ops :=
  Run.since_of_step (fun _ _ hkeeps hmem => handled_step hkeeps hmem) (OrdSet.notMem_empty _) hops h

/-- A packet of v3.1.1 is not dropped. -/
theorem not_dropsPublish {is : List UInt8} {c : Connection role pb}
    (h : (c.received is).map (·.version) = some .v311) : ¬ c.dropsPublish is := by
  rintro ⟨p, hp, -⟩
  rw [hp] at h
  exact nomatch h

/-- A CONNECT, the CONNACK and a QoS 2 PUBLISH of v3.1.1: identifier 1 was delivered. -/
theorem handled_since_delivery_publish :
    let ops : List (Op .two) :=
      [.recv [0x10, 0x0C, 0, 4, 0x4D, 0x51, 0x54, 0x54, 4, 2, 0, 10, 0, 0],
        .send (.v311Connack (V311.connackPacket false 0)),
        .recv [0x34, 0x05, 0, 1, 0x61, 0, 1]]
    Run.Since next (Delivers 1) (1 ∈ ·.qos2PublishHandled) (make .server .two .v311) ops := by
  refine handled_since_delivery .v311 _ ?_ 1 (by decide)
  simp only [Run.all_cons, Run.all_nil, and_true]
  refine ⟨?_, nofun, ?_⟩
  · rintro _ ⟨⟩
    exact not_dropsPublish (by decide)
  · rintro _ ⟨⟩
    exact not_dropsPublish (by decide)

/-- A CONNECT without Topic Alias Maximum, the CONNACK and a QoS 2 PUBLISH with a topic
    alias: identifier 1 is recorded as handled although it was never delivered. -/
theorem handled_without_delivery :
    let ops : List (Op .two) :=
      [.recv [0x10, 0x0D, 0, 4, 0x4D, 0x51, 0x54, 0x54, 5, 2, 0, 10, 0, 0, 0],
        .send (.v5Connack (V5.connackOf false 0)),
        .recv [0x34, 0x09, 0, 1, 0x61, 0, 1, 3, 0x23, 0, 1]]
    1 ∈ ((make .server .two .v5).run ops).qos2PublishHandled ∧
    ¬ Run.Since next (Delivers 1) (1 ∈ ·.qos2PublishHandled) (make .server .two .v5) ops := by
  refine ⟨by decide, ?_⟩
  rintro ⟨j, op, hj, hdelivers, hsince⟩
  -- the identifier is not there before the last step, and the last step delivers nothing
  rcases j with _ | _ | _ | j
  · exact absurd (hsince 1 (by decide) (by decide)) (by decide)
  · exact absurd (hsince 2 (by decide) (by decide)) (by decide)
  · obtain rfl := Option.some.inj hj
    rcases hdelivers with ⟨_, hop, -⟩ | ⟨pv, hpv, htype, -⟩
    · cases hop
    · have hmem : Event.receive pv ∈ exchanges _ :=
        List.mem_filter.mpr ⟨hpv, by simp [Event.isExchange, htype]⟩
      cases hmem
  · cases hj

end Connection

end AsyncMqtt
