import AsyncMqtt.Spec.Qos2Delivery

/-!
# QoS 2 messages after a fresh start

A session is started afresh by a CONNECT with clean session (clean start in v5.0) that is
sent or received, and by a CONNACK that accepts the connection without a session. Nothing
of the old session counts any more, so the first QoS 2 PUBLISH with an identifier is a new
message and the application should receive it.

None of the four ways to start a session clears `qos2_publish_handled_`. `notify_closed`
does, but only if the session was not to be kept. So the identifiers of a kept session
are still there when the next session is started afresh.

## Key results

- `Connection.handled_of_not_received`: only a received PUBLISH records its identifier
- `Connection.recv_delivers`: a QoS 2 PUBLISH that is new is delivered
- `Connection.first_publish_delivered`: in a run in which no fresh start finds recorded
  identifiers, the first QoS 2 PUBLISH after it is delivered
- `Connection.first_publish_suppressed`: a run in which one does
-/

namespace AsyncMqtt

/-- `on_receive` -/
def Event.isReceive {pb : PacketIdBytes} : Event pb → Bool
  | .receive _ => true
  | _ => false

namespace Connection

variable {role : Role} {pb : PacketIdBytes}

/-- A step that starts a session afresh. -/
def StartsAfresh (c : Connection role pb) : Op pb → Prop
  | .send pv =>
    pv.type = .connect ∧ pv.view.cleanStart ∧ c.sendAllowed pv ∧
      c.validateMaximumPacketSize pv.size
  | .recv is => ∃ pv, c.received is = some pv ∧
      (pv.type = .connect ∧ pv.view.cleanStart ∧ c.status = .disconnected ∨
        pv.acceptsConnection ∧ ¬ pv.view.sessionPresent ∧ c.status = .connecting)
  | _ => False

/-- A step that receives a QoS 2 PUBLISH with this identifier. -/
def ReceivesQos2 (packetId : Nat) (c : Connection role pb) (op : Op pb) : Prop :=
  ∃ is pv, op = .recv is ∧ c.received is = some pv ∧ pv.isQos2Publish ∧ pv.packetId = packetId

/-- The application restores the identifiers of an old session. -/
def RestoresQos2 (op : Op pb) : Prop := ∃ pids, op = .restoreQos2PublishHandledPids pids

/-- A QoS 2 PUBLISH that breaks the protocol: it comes without a connection, or above the
    receive maximum, or with a topic alias that is not valid. -/
def refusesPublish (c : Connection role pb) : PacketVariant pb → Bool
  | .v5Publish p =>
    c.status ≠ .connected || c.recvMaximumReached || (c.recvTopicAlias p).isNone
  | _ => c.status ≠ .connected

/-- A step after which nothing is left of an old session: a fresh start finds no recorded
    identifiers, and no QoS 2 PUBLISH breaks the protocol. -/
def ForgetsSession (c : Connection role pb) (op : Op pb) : Prop :=
  (c.StartsAfresh op → c.qos2PublishHandled = ∅) ∧
  ∀ is pv, op = .recv is → c.received is = some pv → pv.isQos2Publish → ¬ c.refusesPublish pv

/-! ### One step -/

/-- A step that neither receives a QoS 2 PUBLISH with an identifier nor restores any does
    not record the identifier. -/
theorem handled_of_not_received {c : Connection role pb} {op : Op pb} {packetId : Nat}
    (hreceives : ¬ ReceivesQos2 packetId c op) (hrestores : ¬ RestoresQos2 op)
    (h : packetId ∈ (c.next op).qos2PublishHandled) : packetId ∈ c.qos2PublishHandled := by
  -- only a PUBLISH with QoS 2 and a restoration note an identifier
  cases op with
  | recv is =>
    rcases recv_cases is (c := c) rfl with hq | ⟨pv, hpv, hout⟩ | ⟨value, c₁, -, -, hc₁, hs⟩
    · exact hq.1.handled ▸ h
    · rcases hout.handled h with hmem | ⟨hqos2, -⟩
      · exact hmem
      · exact absurd ⟨is, pv, rfl, hpv, hqos2⟩ hreceives
    · rw [next, call, hs, Step.conn_emit] at h
      have hmem := send_handled _ _ h
      rw [hc₁] at hmem
      exact hmem
  | restoreQos2PublishHandledPids pids => exact absurd ⟨pids, rfl⟩ hrestores
  | send pv => exact send_handled pv c h
  | notifyTimerFired kind => exact (notifyTimerFired_quiet kind c).1.handled ▸ h
  | notifyClosed =>
    rw [next, call, notifyClosed_conn] at h
    dsimp only at h
    split at h
    · exact h
    · exact absurd h (OrdSet.notMem_empty _)
  | restorePackets pvs =>
    obtain ⟨m, st, a, b, d, heq⟩ := c.restorePackets_eq pvs
    rw [next, call, heq] at h
    exact h
  | releasePacketId id =>
    rw [next, call, releasePacketId_conn] at h
    exact h
  | setPingreqSendInterval duration =>
    rw [next, call, setPingreqSendInterval] at h
    split at h <;> exact h
  | _ => exact h

/-- A fresh start receives no PUBLISH and restores nothing. -/
theorem StartsAfresh.not_received {c : Connection role pb} {op : Op pb} (h : c.StartsAfresh op)
    (packetId : Nat) : ¬ ReceivesQos2 packetId c op ∧ ¬ RestoresQos2 op := by
  constructor
  · rintro ⟨is, pv, rfl, hpv, hqos2, -⟩
    obtain ⟨pv', hpv', hstart⟩ := h
    obtain rfl := Option.some.inj (hpv.symm.trans hpv')
    simp only [PacketVariant.isQos2Publish, Bool.and_eq_true, decide_eq_true_eq] at hqos2
    rcases hstart with ⟨htype, -⟩ | ⟨haccepts, -⟩
    · cases hqos2.1.symm.trans htype
    · simp only [PacketVariant.acceptsConnection, Bool.and_eq_true, decide_eq_true_eq] at haccepts
      cases hqos2.1.symm.trans haccepts.1
  · rintro ⟨pids, rfl⟩
    exact h

/-- A QoS 2 PUBLISH that is new and does not break the protocol is given to the
    application. -/
theorem recv_delivers {c : Connection role pb} {is : List UInt8} {pv : PacketVariant pb}
    (hpv : c.received is = some pv) (hqos2 : pv.isQos2Publish) (hok : ¬ c.refusesPublish pv)
    (hnew : pv.packetId ∉ c.qos2PublishHandled) :
    ∃ pv', Event.receive pv' ∈ (c.recv is).1.events ∧ pv'.isQos2Publish ∧
      pv'.packetId = pv.packetId := by
  have hlast : ∀ {s : Step role pb} {e : Event pb}, e ∈ (s.emit e).events := by
    intro s e
    exact List.mem_append_right _ (List.mem_singleton_self e)
  rw [recv_of_received hpv]
  cases pv with
  | v311Publish p =>
    have hstatus : c.status = .connected := by simpa [refusesPublish] using hok
    have hqos : (Pub.getQos p.opts).toNat = 2 := by
      simp only [PacketVariant.isQos2Publish, Bool.and_eq_true, decide_eq_true_eq] at hqos2
      exact congrArg UInt8.toNat hqos2.2
    have hnot : decide (p.packetId ∈ c.qos2PublishHandled) = false := decide_eq_false hnew
    refine ⟨.v311Publish p, ?_, hqos2, rfl⟩
    rw [processRecvDecoded, if_pos (by exact decide_eq_true hstatus)]
    simp only [processRecvActual, recvPublishV311, hqos, hnot, Bool.false_eq_true, if_false]
    exact hlast
  | v5Publish p =>
    simp only [refusesPublish, Bool.or_eq_true, not_or, Bool.not_eq_true, decide_eq_false_iff_not,
      not_not, Option.isNone_eq_false_iff] at hok
    obtain ⟨⟨hstatus, hmax⟩, halias⟩ := hok
    have hqos : (Pub.getQos p.opts).toNat = 2 := by
      simp only [PacketVariant.isQos2Publish, Bool.and_eq_true, decide_eq_true_eq] at hqos2
      exact congrArg UInt8.toNat hqos2.2
    have hnot : decide (p.packetId ∈ c.qos2PublishHandled) = false := decide_eq_false hnew
    have hmax : recvMaximumReached
        ({ c with rpb := (c.rpb.recv is).1 } : Connection role pb) = false := hmax
    rw [processRecvDecoded, if_pos (by exact decide_eq_true hstatus)]
    simp only [processRecvActual, recvPublishV5, hqos, hnot, hmax, Bool.false_eq_true, if_false,
      recvPublishTopicV5]
    -- the alias is looked up in a state that differs in the recorded identifiers only
    split
    · next hnone =>
      rw [recvTopicAlias_eq_none (c := c) (by rfl)] at hnone
      rw [hnone] at halias
      cases halias
    · next c' p' halias' =>
      obtain ⟨-, hopts, hid⟩ := recvTopicAlias_eq halias'
      refine ⟨.v5Publish p', hlast, ?_, hid⟩
      simp only [PacketVariant.isQos2Publish, Bool.and_eq_true, decide_eq_true_eq] at hqos2 ⊢
      exact ⟨rfl, (congrArg Pub.getQos hopts).trans hqos2.2⟩
  | _ => cases hqos2

/-! ### Runs -/

/-- In a run in which no fresh start finds recorded identifiers, the first QoS 2 PUBLISH
    with an identifier after a fresh start is given to the application, unless the
    application has restored identifiers in between. -/
theorem first_publish_delivered (ver : ProtocolVersion) (ops : List (Op pb))
    (hops : Run.All next ForgetsSession (make role pb ver) ops) {j k : Nat} (hjk : j < k)
    {op : Op pb} (hj : ops[j]? = some op)
    (hstart : ((make role pb ver).run (ops.take j)).StartsAfresh op) {is : List UInt8}
    (hk : ops[k]? = some (.recv is)) {pv : PacketVariant pb}
    (hpv : ((make role pb ver).run (ops.take k)).received is = some pv) (hqos2 : pv.isQos2Publish)
    (hfirst : ∀ i op, j < i → i < k → ops[i]? = some op →
      ¬ ReceivesQos2 pv.packetId ((make role pb ver).run (ops.take i)) op ∧ ¬ RestoresQos2 op) :
    ∃ pv', Event.receive pv' ∈ (((make role pb ver).run (ops.take k)).call (.recv is)).events ∧
      pv'.isQos2Publish ∧ pv'.packetId = pv.packetId := by
  have hklt : k < ops.length := (List.getElem?_eq_some_iff.mp hk).1
  have hempty := (hops j op hj).1 hstart
  have hafter : pv.packetId ∉
      (Run.final next (make role pb ver) (ops.take (j + 1))).qos2PublishHandled := by
    intro hmem
    rw [Run.final_take_succ next hj] at hmem
    obtain ⟨hreceives, hrestores⟩ := hstart.not_received pv.packetId
    have hbefore := handled_of_not_received hreceives hrestores hmem
    exact OrdSet.notMem_empty _ (hempty ▸ hbefore)
  -- from the fresh start on the identifier stays unrecorded
  have hnew : pv.packetId ∉
      (Run.final next (make role pb ver) (ops.take k)).qos2PublishHandled := by
    have hle : j + 1 ≤ k := hjk
    refine Run.invariant_between
      (Q := fun c : Connection role pb => pv.packetId ∉ c.qos2PublishHandled) hle (by omega)
      (fun i a hi hik ha hnot hmem => ?_) hafter
    obtain ⟨hreceives, hrestores⟩ := hfirst i a (by omega) hik ha
    exact hnot (handled_of_not_received hreceives hrestores hmem)
  exact recv_delivers hpv hqos2 ((hops k _ hk).2 is pv rfl hpv hqos2) hnew

/-- A call of `recv` in a state without recorded identifiers. -/
theorem forgetsSession_recv {c : Connection role pb} {is : List UInt8}
    (hempty : c.qos2PublishHandled = ∅)
    (h : (c.received is).all fun pv => ! (pv.isQos2Publish && c.refusesPublish pv)) :
    c.ForgetsSession (.recv is) := by
  refine ⟨fun _ => hempty, ?_⟩
  rintro _ pv ⟨⟩ hpv hqos2 hrefuses
  rw [hpv] at h
  simp [hqos2, hrefuses] at h

/-- A clean CONNECT, the CONNACK and a QoS 2 PUBLISH: identifier 1 is delivered. -/
theorem first_publish_delivered_connect :
    let ops : List (Op .two) :=
      [.recv [0x10, 0x0C, 0, 4, 0x4D, 0x51, 0x54, 0x54, 4, 2, 0, 10, 0, 0],
        .send (.v311Connack (V311.connackPacket false 0)),
        .recv [0x34, 0x05, 0, 1, 0x61, 0, 1]]
    ∃ pv', Event.receive pv' ∈ (((make .server .two .v311).run (ops.take 2)).call
      (.recv [0x34, 0x05, 0, 1, 0x61, 0, 1])).events ∧ pv'.isQos2Publish ∧ pv'.packetId = 1 := by
  refine @first_publish_delivered .server .two .v311 _ ?_ 0 2 (by decide) _ rfl ?_ _ rfl
    (.v311Publish ⟨0x34, [0x61], [0, 1], [0, 1], [], 5, [5]⟩) rfl (by decide) ?_
  · simp only [Run.all_cons, Run.all_nil, and_true]
    exact ⟨forgetsSession_recv rfl (by decide), ⟨nofun, nofun⟩,
      forgetsSession_recv rfl (by decide)⟩
  · exact ⟨_, rfl, .inl (by decide)⟩
  · intro i op hi hik hop
    obtain rfl : i = 1 := by omega
    obtain rfl := Option.some.inj hop
    constructor
    · rintro ⟨is, pv, hrecv, -⟩
      exact nomatch hrecv
    · rintro ⟨pids, hrestore⟩
      exact nomatch hrestore

/-- A session that is kept, a QoS 2 PUBLISH, and then a session that is started afresh by
    a clean CONNECT: the first QoS 2 PUBLISH of the new session with identifier 1 is not
    given to the application. -/
theorem first_publish_suppressed :
    let ops : List (Op .two) :=
      [.recv [0x10, 0x0D, 0, 4, 0x4D, 0x51, 0x54, 0x54, 4, 0, 0, 10, 0, 1, 0x61],
        .send (.v311Connack (V311.connackPacket false 0)),
        .recv [0x34, 0x05, 0, 1, 0x61, 0, 1],
        .notifyClosed,
        .recv [0x10, 0x0D, 0, 4, 0x4D, 0x51, 0x54, 0x54, 4, 2, 0, 10, 0, 1, 0x61],
        .send (.v311Connack (V311.connackPacket false 0)),
        .recv [0x34, 0x05, 0, 1, 0x61, 0, 1]]
    let c := (make .server .two .v311).run (ops.take 6)
    ((make .server .two .v311).run (ops.take 4)).StartsAfresh
      (.recv [0x10, 0x0D, 0, 4, 0x4D, 0x51, 0x54, 0x54, 4, 2, 0, 10, 0, 1, 0x61]) ∧
    (∃ pv, c.received [0x34, 0x05, 0, 1, 0x61, 0, 1] = some pv ∧ pv.isQos2Publish ∧
      pv.packetId = 1 ∧ ¬ c.refusesPublish pv) ∧
    ∀ e ∈ (c.call (.recv [0x34, 0x05, 0, 1, 0x61, 0, 1])).events, ¬ e.isReceive :=
  ⟨⟨_, rfl, .inl (by decide)⟩, ⟨_, rfl, by decide, by decide, by decide⟩, by decide⟩

end Connection

end AsyncMqtt
