import AsyncMqtt.Spec.TwoParties

/-!
# The messages between two parties

What a client and a server of the library come to, whatever their applications do within the rules
and whenever the line between them breaks: messages with QoS 2 arrive once and in order, no message
is lost, and what is on the line is expected where it arrives.

## Key results

- `Parties.exactly_once`: messages with QoS 2
- `Parties.every_message_kept`: what was not delivered is stored
- `Parties.all_settled`: when nothing is on the line, all is delivered and nothing is stored
- `Parties.unused_everywhere`: an identifier that does not wait is unknown to the peer
- `Parties.acknowledgement_expected`: an acknowledgement ends what it acknowledges
-/

namespace AsyncMqtt

open Delivery

/-! ### Rules that can be computed -/

namespace PacketVariant

variable {pb : PacketIdBytes}

/-- Whether the properties set limits can be decided. -/
instance (props : Properties) : Decidable (NoLimits props) :=
  inferInstanceAs (Decidable (∀ prop ∈ props, _))

/-- Whether a packet is plain can be decided. -/
instance (ver : ProtocolVersion) (pv : PacketVariant pb) : Decidable (Plain ver pv) :=
  decidable_of_iff (pv.version = ver ∧
    (pv.type = .connect → ¬ pv.view.cleanStart ∧ (ver = .v5 →
      ∃ prop ∈ pv.view.props, prop.id = .sessionExpiryInterval ∧ prop.val ≠ 0)) ∧
    (pv.type = .connect ∨ pv.type = .connack → NoLimits pv.view.props) ∧
    (pv.type = .publish → ver = .v5 →
      pv.view.topic ≠ [] ∧ Connection.getTopicAlias pv.view.props = none) ∧
    (pv.type = .pubrec → ¬ reasonCodeFailed pv.view.code))
    ⟨fun h => ⟨h.1, h.2.1, h.2.2.1, h.2.2.2.1, h.2.2.2.2⟩,
      fun h => ⟨h.version, h.connect, h.handshake, h.publish, h.pubrec⟩⟩

end PacketVariant

namespace V5.PublishPacket

variable {pb : PacketIdBytes}

/-- Whether a PUBLISH is well-formed can be decided. -/
instance (p : PublishPacket pb) : Decidable p.WellFormed :=
  decidable_of_iff (((p.topicName.length ≤ 65535 ∧
      p.topicNameLengthBuf = endianStore 2 p.topicName.length) ∧
    (p.propertyLength = p.props.size ∧ p.remainingLength = p.body.length) ∧
      p.remainingLength < 2 ^ 32) ∧
    makeFixedHeader .publish 0b0000 ||| p.fixedHeader = p.fixedHeader ∧
      p.packetIdBuf.length = pb.bytes)
    ⟨fun h => ⟨⟨h.1.1.1, h.1.1.2, h.1.2.1.1, h.1.2.1.2, h.1.2.2⟩, h.2.1, h.2.2⟩,
      fun h => ⟨⟨⟨h.topicName_le, h.topicNameLengthBuf⟩, ⟨h.propertyLength, h.remainingLength⟩,
        h.remainingLength_lt⟩, h.fixedHeader, h.packetIdBuf⟩⟩

/-- Whether a PUBLISH is consistent can be decided. -/
instance (p : PublishPacket pb) : Decidable p.Consistent :=
  decidable_of_iff ((p.topicName.length ≤ 65535 ∧
      p.topicNameLengthBuf = endianStore 2 p.topicName.length) ∧
    (p.propertyLength = p.props.size ∧
      p.propertyLengthBuf = valToVariableBytes p.propertyLength) ∧
    p.remainingLength = p.body.length ∧ p.remainingLength ≤ 268435455 ∧
      p.remainingLengthBuf = valToVariableBytes p.remainingLength)
    ⟨fun h => ⟨h.1.1, h.1.2, h.2.1.1, h.2.1.2, h.2.2.1, h.2.2.2.1, h.2.2.2.2⟩,
      fun h => ⟨⟨h.topicName_le, h.topicNameLengthBuf⟩, ⟨h.propertyLength, h.propertyLengthBuf⟩,
        h.remainingLength, h.remainingLength_le, h.remainingLengthBuf⟩⟩

end V5.PublishPacket

namespace PacketVariant

variable {pb : PacketIdBytes}

/-- Whether a packet was built can be decided. -/
instance : (pv : PacketVariant pb) → Decidable pv.Built
  | .v5Publish p =>
    decidable_of_iff (p.WellFormed ∧ p.Consistent)
      ⟨fun h _ hp => PacketVariant.v5Publish.inj hp ▸ h, fun h => h p rfl⟩
  | .v311Connect _ | .v311Connack _ | .v311Publish _ | .v311Puback _ | .v311Pubrec _
  | .v311Pubrel _ | .v311Pubcomp _ | .v311Subscribe _ | .v311Suback _ | .v311Unsubscribe _
  | .v311Unsuback _ | .v311Pingreq _ | .v311Pingresp _ | .v311Disconnect _ | .v5Connect _
  | .v5Connack _ | .v5Puback _ | .v5Pubrec _ | .v5Pubrel _ | .v5Pubcomp _ | .v5Subscribe _
  | .v5Suback _ | .v5Unsubscribe _ | .v5Unsuback _ | .v5Pingreq _ | .v5Pingresp _ | .v5Disconnect _
  | .v5Auth _ => .isTrue (by rintro _ ⟨⟩)

end PacketVariant

namespace Connection

variable {role : Role} {pb : PacketIdBytes}

/-- Whether a packet may be sent can be decided. -/
instance (ver : ProtocolVersion) (s : Owned role pb) (pv : PacketVariant pb) :
    Decidable (MaySend ver s pv) :=
  decidable_of_iff ((pv.Plain ver ∧ pv.Built ∧ ¬ pv.isHandshake) ∧
    (pv.type ≠ .puback ∧ pv.type ≠ .pubrec ∧ pv.type ≠ .pubrel ∧ pv.type ≠ .pubcomp) ∧
    (pv.ownPacketId → pv.packetId ∈ s.held ∧ s.conn.pidMan.isUsedId pv.packetId ∨
      pv.type = .publish ∧ ¬ isQos12 pv.view.opts ∧ pv.packetId = 0) ∧
    (pv.type = .publish → isQos12 pv.view.opts →
      s.conn.status = .connected ∨ s.conn.offlinePublish ∧ s.conn.needStore))
    ⟨fun h => ⟨h.1.1, h.1.2.1, h.1.2.2, h.2.1, h.2.2.1, h.2.2.2⟩,
      fun h => ⟨⟨h.plain, h.built, h.handshake⟩, h.exchange, h.owned, h.ready⟩⟩

/-- Whether a call is permitted can be decided. -/
instance (ver : ProtocolVersion) (s : Owned role pb) : (op : Op pb) → Decidable (Permits ver s op)
  | .acquireUniquePacketId => inferInstanceAs (Decidable (¬ _))
  | .registerPacketId _ => inferInstanceAs (Decidable (_ → _))
  | .releasePacketId packetId => inferInstanceAs (Decidable (packetId.val ∈ s.held))
  | .send pv => inferInstanceAs (Decidable (MaySend ver s pv))
  | .recv _ | .restorePackets _ | .restoreQos2PublishHandledPids _ => .isFalse id
  | .setAutoPubResponse val => inferInstanceAs (Decidable (val = true))
  | .notifyTimerFired _ | .notifyClosed | .setPingreqSendInterval _ | .setPingrespRecvTimeout _
  | .setOfflinePublish _ | .setAutoPingResponse _ | .setAutoMapTopicAliasSend _
  | .setAutoReplaceTopicAliasSend _ | .clock _ => .isTrue trivial

end Connection

namespace Parties

variable {pb : PacketIdBytes}

/-- Whether the client obeys can be decided. -/
instance (ver : ProtocolVersion) (s : Parties pb) (op : Connection.Op pb) :
    Decidable (s.ClientObeys ver op) := inferInstanceAs (Decidable (_ ∧ _))

/-- Whether the server obeys can be decided. -/
instance (ver : ProtocolVersion) (s : Parties pb) (op : Connection.Op pb) :
    Decidable (s.ServerObeys ver op) := inferInstanceAs (Decidable (_ ∧ _))

/-- Whether an action obeys can be decided. -/
instance (ver : ProtocolVersion) (s : Parties pb) : (a : Action pb) → Decidable (s.Obeys ver a)
  | .client op => inferInstanceAs (Decidable (s.ClientObeys ver op))
  | .server op => inferInstanceAs (Decidable (s.ServerObeys ver op))
  | .toServer | .toClient | .dial | .cut => .isTrue trivial

/-- The steps keep to the rules. -/
instance decidableObeys (ver : ProtocolVersion) :
    (s : Parties pb) → (as : List (Action pb)) → Decidable (Run.All step (Obeys ver) s as)
  | _, [] => .isTrue Run.all_nil
  | s, a :: as =>
    have := decidableObeys ver (s.step a) as
    decidable_of_iff (s.Obeys ver a ∧ Run.All step (Obeys ver) (s.step a) as) Run.all_cons.symm

/-- Whether packets carry nothing can be decided. -/
instance (pvs : List (PacketVariant pb)) : Decidable (Silent pvs) :=
  inferInstanceAs (Decidable (_ ∧ _))

end Parties

namespace PacketVariant

variable {pb : PacketIdBytes} {pvs : List (PacketVariant pb)} {pv : PacketVariant pb} {packetId : Nat}

/-- A packet with a message is not about another identifier. -/
theorem ne_of_outgoings (h : ∀ o ∈ outgoings pvs, o.key ≠ packetId) (hpv : pv ∈ pvs)
    (hsome : pv.outgoing?.isSome) : pv.packetId ≠ packetId := by
  obtain ⟨o, ho⟩ := Option.isSome_iff_exists.mp hsome
  have hne := h o (List.mem_filterMap.mpr ⟨pv, hpv, ho⟩)
  unfold outgoing? at ho
  split at ho
  · split at ho
    · obtain rfl := Option.some.inj ho
      exact hne
    · cases ho
  · obtain rfl := Option.some.inj ho
    exact hne
  · cases ho

/-- A packet with a reply is not about another identifier. -/
theorem ne_of_replies (h : ∀ r ∈ replies pvs, r.key ≠ packetId) (hpv : pv ∈ pvs)
    (hsome : pv.reply?.isSome) : pv.packetId ≠ packetId := by
  obtain ⟨r, hr⟩ := Option.isSome_iff_exists.mp hsome
  have hne := h r (List.mem_filterMap.mpr ⟨pv, hpv, hr⟩)
  unfold reply? at hr
  split at hr
  · obtain rfl := Option.some.inj hr
    exact hne
  · split at hr
    · cases hr
    · obtain rfl := Option.some.inj hr
      exact hne
  · obtain rfl := Option.some.inj hr
    exact hne
  · cases hr

end PacketVariant

namespace Connection

variable {role : Role} {pb : PacketIdBytes} {ver : ProtocolVersion} {s : Owned role pb}

/-- An acknowledgement that is awaited ends the stay of a stored packet. -/
theorem Sound.acknowledged (h : Sound ver s) {pv : PacketVariant pb} (hp : pv.Plain ver)
    {k : AckKind} (hk : k.IsStored) (htype : pv.type = k.type)
    (hstatus : s.conn.status = .connected)
    (hawaited : pv.reply? = some (k.reply pv.packetId) →
      ∃ o ∈ s.conn.kept, o.awaits Message.once = k.reply pv.packetId) :
    ∃ e ∈ s.conn.store.elems, e.packetId = pv.packetId ∧ storedAck e = k ∧
      Acked e pv (s.conn.processRecvDecoded pv) := by
  -- the reply on the way belongs to something that is kept
  obtain ⟨o, ho, hawaits⟩ := hawaited (reply?_ack hp hk htype).1
  obtain ⟨e, he, rfl⟩ := List.mem_map.mp ho
  rw [awaits_outgoing, AckKind.reply_inj (storedAck_isStored e) hk] at hawaits
  obtain ⟨rfl, hid⟩ := hawaits
  have hversion : pv.version = s.conn.protocolVersion :=
    hp.version.trans h.unlimited.protocolVersion.symm
  have hdetermined : s.conn.protocolVersion ≠ .undetermined := by
    rw [h.unlimited.protocolVersion]
    exact h.unlimited.determined
  have hmem : pv.packetId ∈ s.conn.waiting (storedAck e) := hid ▸ h.ackable.awaited e he
  -- an acknowledgement is allowed once the connection stands
  have hallowed : s.conn.recvAllowed pv = true := by
    unfold recvAllowed
    rw [htype]
    rcases hk with hk | hk | hk <;> rw [hk] <;> exact decide_eq_true hstatus
  have hactual : s.conn.processRecvDecoded pv = s.conn.processRecvActual pv := if_pos hallowed
  refine ⟨e, he, hid, rfl, ?_⟩
  refine (processRecvDecoded_cases pv s.conn).acked h.ackable he htype hid.symm hdetermined
    hversion ?_
  rw [hactual]
  exact signals_awaited htype hmem

end Connection

namespace Parties

variable {pb : PacketIdBytes}

/-! ### Results -/

/-- A client that connects twice: the PUBREC for its message is lost with the first line. -/
def sampleRun (c : V311.ConnectPacket) (p : V311.PublishPacket .two) : List (Action .two) :=
  [.dial, .client (.send (.v311Connect c)), .toServer,
    .server (.send (.v311Connack (V311.connackPacket false 0))), .toClient,
    .client .acquireUniquePacketId, .client (.send (.v311Publish p)), .toServer, .cut,
    .client .notifyClosed, .server .notifyClosed,
    .dial, .client (.send (.v311Connect c)), .toServer,
    .server (.send (.v311Connack (V311.connackPacket true 0))), .toClient, .toServer]

variable {ver : ProtocolVersion} {as : List (Action pb)}

/-- In every run, the messages with QoS 2 arrive in the order in which they were handed over, none
    twice and none left out, in both directions. -/
theorem exactly_once (hver : ver ≠ .undetermined)
    (hok : Run.All step (Obeys ver) (init pb ver) as) :
    let s := Run.final step (init pb ver) as
    s.serverDelivered.filter Message.once <+: s.clientOffered.filter Message.once ∧
      s.clientDelivered.filter Message.once <+: s.serverOffered.filter Message.once :=
  ⟨(run_inv hver hok).up.once_prefix, (run_inv hver hok).down.once_prefix⟩

/-- The message arrives twice and is delivered once. -/
theorem exactly_once_resent :
    ∃ c p, V311.connectPacket false 0 [0x63] none none none = .ok c ∧
      V311.publishPacket .two 1 [0x61] [[0x62]] 4 = .ok p ∧
      let s := Run.final step (init .two .v311) (sampleRun c p)
      s.serverDelivered.length = 1 ∧
        s.serverDelivered.filter Message.once <+: s.clientOffered.filter Message.once ∧
        s.clientDelivered.filter Message.once <+: s.serverOffered.filter Message.once :=
  ⟨_, _, rfl, rfl, by decide +kernel, exactly_once (by decide) (by decide +kernel)⟩

/-- In every run, what was delivered was handed over, and of what was handed over the first
    messages were delivered, in order, and the others are stored, in order. -/
theorem every_message_kept (hver : ver ≠ .undetermined)
    (hok : Run.All step (Obeys ver) (init pb ver) as) :
    let s := Run.final step (init pb ver) as
    ((∀ m ∈ s.serverDelivered, m ∈ s.clientOffered) ∧
      ∃ first later, s.clientOffered = first ++ later ∧ first.Sublist s.serverDelivered ∧
        later.Sublist (messages s.client.conn.kept)) ∧
    (∀ m ∈ s.clientDelivered, m ∈ s.serverOffered) ∧
      ∃ first later, s.serverOffered = first ++ later ∧ first.Sublist s.clientDelivered ∧
        later.Sublist (messages s.server.conn.kept) := by
  have h := run_inv hver hok
  exact ⟨⟨fun m => h.up.delivered_offered, h.up.nothing_lost⟩,
    fun m => h.down.delivered_offered, h.down.nothing_lost⟩

/-- A message that is on a line that breaks is stored. -/
theorem every_message_kept_broken_line :
    ∃ c p, V311.connectPacket false 0 [0x63] none none none = .ok c ∧
      V311.publishPacket .two 1 [0x61] [[0x62]] 4 = .ok p ∧
      let s := Run.final step (init .two .v311) ((sampleRun c p).take 7 ++ [.cut])
      s.serverDelivered = [] ∧
        ∃ first later, s.clientOffered = first ++ later ∧ first.Sublist s.serverDelivered ∧
          later.Sublist (messages s.client.conn.kept) :=
  ⟨_, _, rfl, rfl, by decide +kernel,
    (@every_message_kept .two .v311 _ (by decide) (by decide +kernel)).1.2⟩

/-- In every run, an identifier that does not wait at one of the parties is on the line in none of
    its exchanges, and the peer does not remember it. -/
theorem unused_everywhere (hver : ver ≠ .undetermined)
    (hok : Run.All step (Obeys ver) (init pb ver) as) (packetId : Nat) :
    let s := Run.final step (init pb ver) as
    (s.client.conn.Unwaited packetId →
      (∀ pv ∈ s.toServer, pv.outgoing?.isSome → pv.packetId ≠ packetId) ∧
      (∀ pv ∈ s.toClient, pv.reply?.isSome → pv.packetId ≠ packetId) ∧
      packetId ∉ s.server.conn.qos2PublishHandled) ∧
    (s.server.conn.Unwaited packetId →
      (∀ pv ∈ s.toClient, pv.outgoing?.isSome → pv.packetId ≠ packetId) ∧
      (∀ pv ∈ s.toServer, pv.reply?.isSome → pv.packetId ≠ packetId) ∧
      packetId ∉ s.client.conn.qos2PublishHandled) := by
  intro s
  have h : Inv ver s := run_inv hver hok
  -- an identifier that nobody holds is in no part of its direction
  constructor
  · intro hun
    obtain ⟨hforward, hbackward, hhandled⟩ := h.up.free (h.client.free hun)
    exact ⟨fun pv hpv => PacketVariant.ne_of_outgoings hforward hpv,
      fun pv hpv => PacketVariant.ne_of_replies hbackward hpv, of_decide_eq_false hhandled⟩
  · intro hun
    obtain ⟨hforward, hbackward, hhandled⟩ := h.down.free (h.server.free hun)
    exact ⟨fun pv hpv => PacketVariant.ne_of_outgoings hforward hpv,
      fun pv hpv => PacketVariant.ne_of_replies hbackward hpv, of_decide_eq_false hhandled⟩

/-- After the exchange the identifier is free, and the server has forgotten it. -/
theorem unused_everywhere_after_exchange :
    ∃ c p, V311.connectPacket false 0 [0x63] none none none = .ok c ∧
      V311.publishPacket .two 1 [0x61] [[0x62]] 4 = .ok p ∧
      let s := Run.final step (init .two .v311) (sampleRun c p ++ [.toClient, .toServer, .toClient])
      s.clientOffered.length = 1 ∧ 1 ∉ s.server.conn.qos2PublishHandled :=
  ⟨_, _, rfl, rfl, by decide +kernel,
    ((@unused_everywhere .two .v311 _ (by decide) (by decide +kernel) 1).1 (by decide +kernel)).2.2⟩

/-- In every run, an acknowledgement that arrives at a party on the line acknowledges a stored
    packet: the party accepts it, and the packet is no longer stored. -/
theorem acknowledgement_expected (hver : ver ≠ .undetermined)
    (hok : Run.All step (Obeys ver) (init pb ver) as) {k : AckKind} (hk : k.IsStored)
    {pv : PacketVariant pb} (htype : pv.type = k.type) :
    let s := Run.final step (init pb ver) as
    (pv ∈ s.toClient → s.client.conn.status = .connected →
      ∃ e ∈ s.client.conn.store.elems, e.packetId = pv.packetId ∧ Connection.storedAck e = k ∧
        Connection.Acked e pv (s.client.conn.processRecvDecoded pv)) ∧
    (pv ∈ s.toServer → s.server.conn.status = .connected →
      ∃ e ∈ s.server.conn.store.elems, e.packetId = pv.packetId ∧ Connection.storedAck e = k ∧
        Connection.Acked e pv (s.server.conn.processRecvDecoded pv)) := by
  intro s
  have h : Inv ver s := run_inv hver hok
  constructor
  · intro hpv hstatus
    exact h.client.acknowledged (h.toClient pv hpv).1 hk htype hstatus fun hr =>
      h.up.awaited (List.mem_filterMap.mpr ⟨pv, hpv, hr⟩)
  · intro hpv hstatus
    exact h.server.acknowledged (h.toServer pv hpv).1 hk htype hstatus fun hr =>
      h.down.awaited (List.mem_filterMap.mpr ⟨pv, hpv, hr⟩)

/-- The PUBREC on the second line ends the stay of the message in the store. -/
theorem acknowledgement_expected_pubrec :
    ∃ c p pv, V311.connectPacket false 0 [0x63] none none none = .ok c ∧
      V311.publishPacket .two 1 [0x61] [[0x62]] 4 = .ok p ∧
      let s := Run.final step (init .two .v311) (sampleRun c p)
      s.toClient = [pv] ∧ ∃ e ∈ s.client.conn.store.elems, e.packetId = pv.packetId ∧
        Connection.storedAck e = .pubrec ∧
        Connection.Acked e pv (s.client.conn.processRecvDecoded pv) := by
  refine ⟨_, _, .v311Pubrec (V311.pubrecPacket .two 1), rfl, rfl, by decide +kernel, ?_⟩
  exact (@acknowledgement_expected .two .v311 _ (by decide) (by decide +kernel) .pubrec
    (.inr (.inl rfl)) _ rfl).1 (by decide +kernel) (by decide +kernel)

end Parties

end AsyncMqtt
