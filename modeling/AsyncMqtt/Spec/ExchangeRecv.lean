import AsyncMqtt.Spec.ExchangeTraffic

/-!
# Receiving the packets of an exchange

What a connection without limits does with a packet that arrives, once the connection has
begun: a message is answered and given to the application, a release is answered, and an
answer ends the stay of what awaits it.

## Key results

- `Connection.recv_turn`: the receipt of a packet is one of these
-/

namespace AsyncMqtt

open Delivery

namespace Connection

variable {role : Role} {pb : PacketIdBytes} {ver : ProtocolVersion} {c : Connection role pb}

/-- What the receipt of a packet comes to. -/
inductive RecvTurn (c : Connection role pb) (pv : PacketVariant pb) : Traffic → Prop where
  | aside (ho : pv.outgoing? = none) (hr : pv.reply? = none) : RecvTurn c pv c.idle
  /-- there is no connection any more -/
  | lost (hstatus : c.status ≠ .connected) : RecvTurn c pv c.idle
  | message {k : Nat} {m : Message} (ho : pv.outgoing? = some (.message k m))
      (hstatus : c.status = .connected) :
      RecvTurn c pv { c.idle with
        handled := if m.once then Function.update c.handled k true else c.handled
        replies := [Outgoing.awaits Message.once (.message k m)]
        deliveries := if m.once && c.handled k then [] else [m] }
  | release {k : Nat} (ho : pv.outgoing? = some (.release k)) (hstatus : c.status = .connected) :
      RecvTurn c pv { c.idle with
        handled := Function.update c.handled k false
        replies := [.complete k] }
  | answered {r : Reply Nat} (hr : pv.reply? = some r) (hstatus : c.status = .connected) :
      RecvTurn c pv { c.idle with
        kept := c.kept.filter (fun o => o.awaits Message.once ≠ r) ++ r.next
        outgoings := r.next }
  | unexpected {r : Reply Nat} (hr : pv.reply? = some r)
      (hnone : ∀ o ∈ c.kept, o.awaits Message.once ≠ r) : RecvTurn c pv c.idle

/-! ### PUBLISH -/

/-- The answer to a PUBLISH with QoS 1 or 2 -/
def publishReply (ver : ProtocolVersion) (pv : PacketVariant pb) : PacketVariant pb :=
  if pv.message.once then pubrecOf ver pb pv.packetId else pubackOf ver pb pv.packetId

/-- The reply to a PUBLISH is a response. -/
theorem publishReply_isAck (ver : ProtocolVersion) (pv : PacketVariant pb) :
    IsAck ver (publishReply ver pv) ∧ (publishReply ver pv).isQuiet := by
  unfold publishReply
  split
  · exact ⟨⟨_, .inr (.inl rfl)⟩, pubrecOf_quiet ver pb _⟩
  · exact ⟨⟨_, .inl rfl⟩, pubackOf_quiet ver pb _⟩

/-- The QoS says how often a message is delivered. -/
theorem once_of_qos (pv : PacketVariant pb) {n : Nat} (h : (Pub.getQos pv.view.opts).toNat = n) :
    pv.message.once = decide (n = 2) := by
  subst h
  exact decide_eq_decide.mpr UInt8.toNat_inj.symm

/-- The state in which a PUBLISH with QoS 1 or 2 is answered -/
def publishTaken (c : Connection role pb) (pv : PacketVariant pb) (publishRecv : OrdSet Nat) :
    Connection role pb :=
  { c with
    publishRecv := publishRecv
    qos2PublishHandled :=
      if pv.message.once then c.qos2PublishHandled.insert pv.packetId else c.qos2PublishHandled }

/-- A PUBLISH with QoS 1 or 2 is answered, and given to the application unless it was handled
    before. -/
def publishAnswered (ver : ProtocolVersion) (c : Connection role pb) (pv : PacketVariant pb)
    (publishRecv : OrdSet Nat) : Step role pb :=
  let s := ((c.publishTaken pv publishRecv).send (publishReply ver pv)).andThen pingreqRecvOp
  if pv.message.once && c.handled pv.packetId then s else s.emit (.receive pv)

/-- An automatic answer of a connected endpoint is sent. -/
theorem respondIf_of {cond : Bool} (hcond : cond) {c : Connection role pb}
    (hstatus : c.status = .connected) (r : PacketVariant pb) : c.respondIf cond r = c.send r :=
  if_pos ⟨hcond, hstatus⟩

/-- A v3.1.1 PUBLISH is answered. -/
theorem recvPublishV311_eq (h : c.Unlimited .v311) (hstatus : c.status = .connected)
    {p : V311.PublishPacket pb} (hqos : isQos12 p.opts) :
    c.recvPublishV311 p = publishAnswered .v311 c (.v311Publish p) c.publishRecv := by
  rcases isQos12_iff_toNat.mp hqos with hq | hq
  · have honce : (PacketVariant.v311Publish p).message.once = false :=
      once_of_qos (.v311Publish p) hq
    unfold recvPublishV311 publishAnswered publishTaken publishReply
    rw [hq, honce]
    simp only [Bool.false_and, Bool.false_eq_true, if_false]
    rw [← andThen_receive, respondIf_of h.autoPubResponse hstatus]
    rfl
  · have honce : (PacketVariant.v311Publish p).message.once = true :=
      once_of_qos (.v311Publish p) hq
    unfold recvPublishV311 publishAnswered publishTaken publishReply
    rw [hq, honce]
    simp only [Bool.true_and, if_true]
    rw [respondIf_of (by rw [h.autoPubResponse, Bool.true_or]) (by exact hstatus)]
    rfl

/-- A v5 PUBLISH with a topic is answered. -/
theorem recvPublishV5_eq (h : c.Unlimited .v5) (hstatus : c.status = .connected)
    {p : V5.PublishPacket pb} (hqos : isQos12 p.opts) (htopic : p.topic ≠ [])
    (halias : getTopicAlias p.props = none) :
    c.recvPublishV5 p =
      publishAnswered .v5 c (.v5Publish p) (c.publishRecv.insert p.packetId) := by
  have hmax : c.recvMaximumReached = false := by
    rw [recvMaximumReached, h.publishRecvMax]
  -- the topic is there, so that no alias is looked up
  have hkeeps : ∀ c : Connection role pb, c.recvTopicAlias p = some (c, p) := by
    intro c
    rw [recvTopicAlias, halias]
    exact if_neg htopic
  -- QoS 1 is answered with a PUBACK, QoS 2 with a PUBREC
  rcases isQos12_iff_toNat.mp hqos with hq | hq
  · have honce : (PacketVariant.v5Publish p).message.once = false :=
      once_of_qos (.v5Publish p) hq
    unfold recvPublishV5 publishAnswered publishTaken publishReply
    rw [hq, honce, hmax]
    simp only [Bool.false_and, Bool.false_eq_true, if_false, recvPublishTopicV5, hkeeps]
    rw [if_pos ⟨h.autoPubResponse, hstatus⟩]
    rfl
  · have honce : (PacketVariant.v5Publish p).message.once = true :=
      once_of_qos (.v5Publish p) hq
    unfold recvPublishV5 publishAnswered publishTaken publishReply
    rw [hq, honce, hmax]
    have hcond : (c.autoPubResponse || decide (p.packetId ∈ c.qos2PublishHandled)) = true ∧
        c.status = .connected := ⟨by rw [h.autoPubResponse, Bool.true_or], hstatus⟩
    simp only [Bool.true_and, Bool.false_eq_true, if_true, if_false, recvPublishTopicV5, hkeeps]
    rw [if_pos hcond]
    rfl

/-- The reply to a PUBLISH is the one that its message waits for. -/
theorem reply?_publishReply (hdetermined : ver ≠ .undetermined) (pv : PacketVariant pb) :
    outgoings [publishReply ver pv] = [] ∧ replies [publishReply ver pv] =
      [Outgoing.awaits Message.once (.message pv.packetId pv.message)] := by
  have hlt := pv.packetId_lt
  cases ver with
  | undetermined => exact absurd rfl hdetermined
  | v311 | v5 =>
    simp only [publishReply, Outgoing.awaits]
    constructor
    · split <;> rfl
    · split
      · exact congrArg (fun n => [Reply.received n]) (endianLoad_endianStore hlt)
      · exact congrArg (fun n => [Reply.ack n]) (endianLoad_endianStore hlt)

/-- The turn of a PUBLISH -/
theorem publishAnswered_turn (h : c.Unlimited ver) (hstatus : c.status = .connected)
    {pv : PacketVariant pb} (htype : pv.type = .publish) (hqos : isQos12 pv.view.opts)
    (ids : OrdSet Nat) :
    Calm ver c (publishAnswered ver c pv ids) ∧
      RecvTurn c pv (publishAnswered ver c pv ids).traffic := by
  have hout := outgoing?_publish htype hqos
  have htaken : (c.publishTaken pv ids).Unlimited ver := by
    have hne : c.status ≠ .disconnected := by
      rw [hstatus]
      exact ConnectionStatus.noConfusion
    have hsame : (c.publishTaken pv c.publishRecv).Unlimited ver := h.handle hne _
    exact hsame.quiet (quiet_publishRecv _ ids)
  have hhandled : (c.publishTaken pv ids).handled =
      if pv.message.once then Function.update c.handled pv.packetId true else c.handled := by
    unfold publishTaken
    split
    · exact c.handled_insert pv.packetId
    · rfl
  obtain ⟨hack, hquiet⟩ := publishReply_isAck ver pv
  obtain ⟨hq, hsends, hreceives⟩ := htaken.respond hstatus hack hquiet
  generalize hs : ((c.publishTaken pv ids).send (publishReply ver pv)).andThen pingreqRecvOp = s
  have hqs : Quiet (c.publishTaken pv ids) s.conn := by
    rw [← hs]
    exact hq.trans (quiet_pingreqRecvOp _)
  have hss : sends s.events = [publishReply ver pv] := by
    rw [← hs, Step.events_andThen, sends_append, hsends, sends_pingreqRecvOp]
    rfl
  have hrs : receives s.events = [] := by
    rw [← hs, Step.events_andThen, receives_append, hreceives, ← receives_signals,
      signals_pingreqRecvOp]
    rfl
  -- the message is given to the application, unless it was handled before
  obtain ⟨t, ht, hqt, hst, hrt⟩ : ∃ t, publishAnswered ver c pv ids = t ∧
      Quiet (c.publishTaken pv ids) t.conn ∧ sends t.events = [publishReply ver pv] ∧
      deliveries t.events =
        if pv.message.once && c.handled pv.packetId then [] else [pv.message] := by
    refine ⟨_, rfl, ?_⟩
    unfold publishAnswered
    dsimp only
    rw [hs]
    split
    · exact ⟨hqs, hss, by rw [deliveries, hrs]; rfl⟩
    · refine ⟨hqs, by rw [Step.events_emit, sends_append, hss]; rfl, ?_⟩
      rw [deliveries, Step.events_emit, receives_append, hrs]
      simp only [receives, outgoings, List.nil_append, List.filterMap_cons, List.filterMap_nil, hout]
      rfl
  rw [ht]
  refine ⟨⟨htaken.quiet hqt, hqt.status, fun r hr => ?_⟩, ?_⟩
  · rw [hst] at hr
    obtain rfl := List.mem_singleton.mp hr
    exact hack.plain h.determined
  · rw [hqt.traffic, hst, hrt, (reply?_publishReply h.determined pv).1,
      (reply?_publishReply h.determined pv).2]
    have hidle : (c.publishTaken pv ids).idle = { c.idle with
        handled := if pv.message.once then Function.update c.handled pv.packetId true
          else c.handled } := by
      rw [idle, hhandled]
      rfl
    rw [hidle]
    exact .message hout hstatus

/-- A PUBLISH with QoS 1 or 2 -/
theorem recvPublish_turn (h : c.Unlimited ver) (hstatus : c.status = .connected)
    {pv : PacketVariant pb} (hp : pv.Plain ver) (htype : pv.type = .publish)
    (hqos : isQos12 pv.view.opts) :
    Calm ver c (c.processRecvActual pv) ∧ RecvTurn c pv (c.processRecvActual pv).traffic := by
  have hversion := hp.version
  cases pv with
  | v311Publish p =>
    obtain rfl : ProtocolVersion.v311 = ver := hversion
    simp only [processRecvActual, recvPublishV311_eq h hstatus hqos]
    exact publishAnswered_turn h hstatus htype hqos _
  | v5Publish p =>
    obtain rfl : ProtocolVersion.v5 = ver := hversion
    obtain ⟨htopic, halias⟩ := hp.publish rfl rfl
    simp only [processRecvActual, recvPublishV5_eq h hstatus hqos htopic halias]
    exact publishAnswered_turn h hstatus htype hqos _
  | _ => cases htype

/-! ### PUBREL -/

/-- The turn of a PUBREL -/
theorem recvPubrel_turn (h : c.Unlimited ver) (hstatus : c.status = .connected)
    {pv : PacketVariant pb} (hp : pv.Plain ver) (htype : pv.type = .pubrel) :
    Calm ver c (c.processRecvActual pv) ∧ RecvTurn c pv (c.processRecvActual pv).traffic := by
  have hactual : c.processRecvActual pv = c.recvPubrel ver pv := by
    rw [← hp.version]
    cases pv <;> first | rfl | cases htype
  have hout : pv.outgoing? = some (.release pv.packetId) := by
    rw [PacketVariant.outgoing?, htype]
  have hne : c.status ≠ .disconnected := by
    rw [hstatus]
    exact ConnectionStatus.noConfusion
  have hack : IsAck ver (pubcompOf ver pb pv.packetId) := ⟨_, .inr (.inr (.inr rfl))⟩
  obtain ⟨hq, hsends, hreceives⟩ :=
    (h.handle hne (c.qos2PublishHandled.erase pv.packetId)).respond hstatus hack
      (pubcompOf_quiet ver pb _)
  have hidle := c.handled_erase pv.packetId
  unfold recvPubrel at hactual
  -- the PUBCOMP is sent for a state in which the identifier is no longer noted
  dsimp only at hactual
  rw [respondIf_of (by exact h.autoPubResponse) (by exact hstatus)] at hactual
  generalize hc₁ : ({ c with qos2PublishHandled := c.qos2PublishHandled.erase pv.packetId } :
    Connection role pb) = c₁ at hactual hq hsends hreceives hidle
  have hkept : c₁.kept = c.kept := kept_congr (by rw [← hc₁])
  have hq' : Quiet c₁ (c.processRecvActual pv).conn := by
    rw [hactual]
    exact hq.trans (quiet_receive pv _)
  have hs' : sends (c.processRecvActual pv).events = [pubcompOf ver pb pv.packetId] := by
    rw [hactual, Step.events_andThen, sends_append, hsends, sends_receive]
    rfl
  have hd' : deliveries (c.processRecvActual pv).events = [] := by
    rw [hactual, deliveries, Step.events_andThen, receives_append, hreceives, receives_taken]
    simp only [List.nil_append, outgoings, List.filterMap_cons, hout]
    rfl
  have hreply : outgoings [pubcompOf ver pb pv.packetId] = [] ∧
      replies [pubcompOf ver pb pv.packetId] = [.complete pv.packetId] := by
    have hlt := pv.packetId_lt
    cases ver with
    | undetermined => exact absurd rfl h.determined
    | v311 | v5 => exact ⟨rfl, congrArg (fun n => [Reply.complete n]) (endianLoad_endianStore hlt)⟩
  constructor
  · constructor
    · refine Unlimited.quiet ?_ hq'
      rw [← hc₁]
      exact h.handle hne _
    · have hst : c₁.status = c.status := by rw [← hc₁]
      exact hst ▸ hq'.status
    · intro r hr
      rw [hs'] at hr
      obtain rfl := List.mem_singleton.mp hr
      exact hack.plain h.determined
  · rw [hq'.traffic, hs', hd', hreply.1, hreply.2, idle, hidle, hkept]
    exact .release hout hstatus

/-! ### Acknowledgements -/

/-- A response carries its reply. -/
theorem reply?_ack {pv : PacketVariant pb} {k : AckKind} (hp : pv.Plain ver)
    (hk : AckKind.IsStored k) (htype : pv.type = k.type) :
    pv.reply? = some (k.reply pv.packetId) ∧ pv.outgoing? = none := by
  rcases hk with rfl | rfl | rfl
  · rw [PacketVariant.reply?, PacketVariant.outgoing?, htype]
    exact ⟨rfl, rfl⟩
  · rw [PacketVariant.reply?, PacketVariant.outgoing?, htype]
    exact ⟨if_neg (hp.pubrec htype), rfl⟩
  · rw [PacketVariant.reply?, PacketVariant.outgoing?, htype]
    exact ⟨rfl, rfl⟩

/-- The session goes on in the midst of a connection. -/
theorem Unlimited.go (h : c.Unlimited ver) (hstatus : c.status = .connected)
    {c' : Connection role pb} {a b d q : OrdSet Nat} {m : PacketIdManager pb} {st : Store pb}
    (hc' : c' = { c with
      pidPuback := a, pidPubrec := b, pidPubcomp := d, qos2PublishProcessing := q, pidMan := m
      store := st })
    (hstored : ∀ e ∈ st.elems, e.Plain ver) : c'.Unlimited ver := by
  subst hc'
  exact { h with
    unstarted := fun hns => absurd (h.started (by rw [hstatus]; exact ConnectionStatus.noConfusion)) hns
    connecting := fun hs => by
      rw [hstatus] at hs
      cases hs
    stored := hstored }

/-- What is left in the store is plain. -/
theorem Unlimited.stored_erase (h : c.Unlimited ver) (res : ResponsePacket) (packetId : Nat) :
    ∀ e ∈ (c.store.erase res packetId).elems, e.Plain ver :=
  fun e he => h.stored e (List.mem_of_mem_filter he)

/-- An acknowledgement that is expected ends the stay of the packet that awaits it. -/
theorem acked_turn (h : c.Unlimited ver) (hackable : c.Ackable) (hstatus : c.status = .connected)
    {pv : PacketVariant pb} (hp : pv.Plain ver) {k : AckKind} (hk : AckKind.IsStored k)
    (htype : pv.type = k.type) (hnext : (k.reply pv.packetId).next (M := Message) = [])
    {c₁ : Connection role pb} {a b d q : OrdSet Nat} {m : PacketIdManager pb}
    (hc₁ : c₁ = { c with
      pidPuback := a, pidPubrec := b, pidPubcomp := d, qos2PublishProcessing := q, pidMan := m
      store := c.store.erase (k.response pv) pv.packetId })
    {s : Step role pb} (hs : s = (⟨c₁, [.packetIdRelease pv.packetId]⟩ : Step role pb).andThen
      (·.receive pv)) : Calm ver c s ∧ RecvTurn c pv s.traffic := by
  obtain ⟨hreply, hout⟩ := reply?_ack hp hk htype
  have hversion : ∀ e ∈ c.store.elems, e.version = pv.version := by
    intro e he
    rw [hp.version, ← h.protocolVersion]
    exact hackable.version (by rw [h.protocolVersion]; exact h.determined) e he
  -- of what is kept the packet that has waited for the response is gone
  have hkept : c₁.kept = c.kept.filter fun o => o.awaits Message.once ≠ k.reply pv.packetId :=
    kept_erase hk hversion (by rw [hc₁])
  have hq : Quiet c₁ s.conn := by
    rw [hs]
    exact quiet_receive pv c₁
  have hsends : sends s.events = [] := by
    rw [hs, Step.events_andThen, sends_append, sends_receive]
    rfl
  have hdeliveries : deliveries s.events = [] := by
    rw [hs, deliveries, Step.events_andThen, receives_append, receives_taken, outgoings_append]
    simp only [outgoings, List.filterMap_cons, hout]
    rfl
  have hst : c₁.status = c.status := by rw [hc₁]
  refine ⟨⟨(h.go hstatus hc₁ (h.stored_erase _ _)).quiet hq, hst ▸ hq.status, fun r hr => ?_⟩, ?_⟩
  · rw [hsends] at hr
    cases hr
  · have hturn := RecvTurn.answered hreply hstatus
    rw [hnext, List.append_nil, ← hkept] at hturn
    rw [hq.traffic, hsends, hdeliveries, idle, handled_congr (c := c) (by rw [hc₁])]
    exact hturn

/-- A PUBREL that is sent in the midst of a session is stored. -/
theorem send_pubrel_eq {c : Connection role pb} {p : StorePacket pb}
    (htype : p.toPacketVariant.type = .pubrel) (hstore : c.needStore)
    (hpass : c.passesChecks p.toPacketVariant) :
    c.send p.toPacketVariant =
      (⟨{ c with store := c.store.add p, pidPubcomp := c.pidPubcomp.insert p.packetId },
        [.send p.toPacketVariant none]⟩ : Step role pb).andThen resetPingreqSend := by
  obtain ⟨hallowed, hsize⟩ := Bool.and_eq_true_iff.mp hpass
  have hconnack : p.toPacketVariant.type ≠ .connack := by
    rw [htype]
    exact ControlPacketType.noConfusion
  have hactual : c.processSendActual p.toPacketVariant =
      .send { c with store := c.store.add p, pidPubcomp := c.pidPubcomp.insert p.packetId }
        p.toPacketVariant none := by
    cases p with
    | v311Publish p | v5Publish p => cases htype
    | v311Pubrel p | v5Pubrel p =>
      simp only [StorePacket.toPacketVariant, processSendActual, sendPubrel_eq, if_pos hstore]
  rw [send_of_allowed hallowed hsize, hactual, if_neg hconnack]
  exact if_pos rfl

/-- The PUBREL that answers a PUBREC -/
theorem pubrelOf_stored (hdetermined : ver ≠ .undetermined) {packetId : Nat}
    (hlt : packetId < pb.limit) : ∃ (p : StorePacket pb) (e : StorePacketVariant pb),
      p.toPacketVariant = pubrelOf ver pb packetId ∧ StorePacketVariant.ofPacket? p = some e ∧
      e.packetId = packetId ∧ e.outgoing = .release packetId ∧ e.Plain ver := by
  have hack : IsAck ver (pubrelOf ver pb packetId) := ⟨_, .inr (.inr (.inl rfl))⟩
  have hplain := (hack.plain hdetermined).1
  have hsize := size_isAck hack
  have hid : endianLoad pb.bytes (endianStore pb.bytes packetId) = packetId :=
    endianLoad_endianStore hlt
  cases ver with
  | undetermined => exact absurd rfl hdetermined
  | v311 =>
    exact ⟨.v311Pubrel (V311.pubrelPacket pb packetId), ⟨_, .v311Pubcomp, rfl⟩, rfl, rfl, hid,
      congrArg Outgoing.release hid, hsize, hplain⟩
  | v5 =>
    exact ⟨.v5Pubrel (V5.pubResponseOf .pubrel 0b0010 pb packetId), ⟨_, .v5Pubcomp, rfl⟩, rfl, rfl,
      hid, congrArg Outgoing.release hid, hsize, hplain⟩

/-- A PUBREC that is expected ends the stay of the PUBLISH, and begins that of the PUBREL. -/
theorem recvPubrec_turn (h : c.Unlimited ver) (hackable : c.Ackable) (hstatus : c.status = .connected)
    {pv : PacketVariant pb} (hp : pv.Plain ver) (htype : pv.type = .pubrec)
    (hmem : pv.packetId ∈ c.pidPubrec) :
    Calm ver c (c.processRecvActual pv) ∧ RecvTurn c pv (c.processRecvActual pv).traffic := by
  have hk : AckKind.IsStored .pubrec := .inr (.inl rfl)
  obtain ⟨hreply, hout⟩ := reply?_ack hp hk htype
  have hdetermined : c.protocolVersion ≠ .undetermined := by
    rw [h.protocolVersion]
    exact h.determined
  have hversion : ∀ e ∈ c.store.elems, e.version = pv.version := by
    rw [hp.version, ← h.protocolVersion]
    exact hackable.version hdetermined
  have hlt := pv.packetId_lt
  have hactual : c.processRecvActual pv = c.recvPubrec ver false pv := by
    have hcode := Bool.not_eq_true _ ▸ hp.pubrec htype
    rw [← hp.version]
    cases pv with
    | v311Pubrec p => rfl
    | v5Pubrec p => exact congrArg (fun failed => c.recvPubrec .v5 failed (.v5Pubrec p)) hcode
    | _ => cases htype
  unfold recvPubrec at hactual
  dsimp only at hactual
  rw [if_pos hmem, if_neg Bool.false_ne_true, respondIf_of (by exact h.autoPubResponse)
    (by exact hstatus)] at hactual
  have hgone := hackable.erased hdetermined (k := .pubrec) (fun e => e.response_of_ack.2.1)
    (hp.version.trans h.protocolVersion.symm) hmem
  -- the PUBLISH leaves the store
  generalize hc₁ : ({ c with
      pidPubrec := c.pidPubrec.erase pv.packetId
      store := c.store.erase (if ver = .v5 then .v5Pubrec else .v311Pubrec) pv.packetId } :
    Connection role pb) = c₁ at hactual
  have hstore : c₁.store = c.store.erase (AckKind.response .pubrec pv) pv.packetId := by
    rw [← hc₁, ← hp.version]
    rfl
  have hkept : c₁.kept = c.kept.filter fun o =>
      o.awaits Message.once ≠ AckKind.reply pv.packetId .pubrec := kept_erase hk hversion hstore
  have h₁ : c₁.Unlimited ver := h.go hstatus hc₁.symm (h.stored_erase _ _)
  have hstatus₁ : c₁.status = .connected := by
    rw [← hc₁]
    exact hstatus
  -- the PUBREL is stored and sent
  obtain ⟨p, e, hpv, he, hid, hrelease, hplain⟩ := @pubrelOf_stored pb ver h.determined _ hlt
  have hack : IsAck ver (pubrelOf ver pb pv.packetId) := ⟨_, .inr (.inr (.inl rfl))⟩
  have hfree : ∀ o ∈ c₁.kept, o.key ≠ e.packetId := by
    intro o ho
    obtain ⟨e', he', rfl⟩ := List.mem_map.mp ho
    rw [hstore] at he'
    rw [StorePacketVariant.key_outgoing, hid]
    exact (hgone e' he').2
  have hsend := send_pubrel_eq (p := p) (c := c₁)
    (by rw [hpv]; exact pubrelOf_type ver pv.packetId)
    (h₁.started (by rw [hstatus₁]; exact ConnectionStatus.noConfusion))
    (hpv ▸ h₁.passes_ack hstatus₁ hack)
  rw [hpv] at hsend
  generalize hc₂ : ({ c₁ with
    store := c₁.store.add p, pidPubcomp := c₁.pidPubcomp.insert p.packetId } :
      Connection role pb) = c₂ at hsend
  have hkept₂ : c₂.kept = c₁.kept ++ [.release pv.packetId] := by
    rw [← hrelease]
    exact kept_add he hfree (by rw [← hc₂])
  have h₂ : c₂.Unlimited ver := by
    refine h₁.go hstatus₁ hc₂.symm fun e' he' => ?_
    rw [Store.add, he, Store.mem_emplaceBack] at he'
    rcases he' with he' | ⟨rfl, -⟩
    · exact h₁.stored e' he'
    · exact hplain
  rw [hsend] at hactual
  have hq : Quiet c₂ (c.processRecvActual pv).conn := by
    rw [hactual]
    exact (quiet_resetPingreqSend c₂).trans (quiet_receive pv _)
  have hsends : sends (c.processRecvActual pv).events = [pubrelOf ver pb pv.packetId] := by
    rw [hactual]
    simp only [Step.events_andThen, sends_append, sends_resetPingreqSend, sends_receive,
      List.append_nil]
    rfl
  have hdeliveries : deliveries (c.processRecvActual pv).events = [] := by
    rw [hactual, deliveries]
    simp only [Step.events_andThen, receives_append, receives_resetPingreqSend, receives_taken,
      outgoings_append]
    simp only [outgoings, List.filterMap_cons, hout]
    rfl
  have htoken : outgoings [pubrelOf ver pb pv.packetId] = [.release pv.packetId] ∧
      replies [pubrelOf ver pb pv.packetId] = [] := by
    rw [← hpv]
    simp only [outgoings, replies, List.filterMap_cons, List.filterMap_nil]
    have hpacket : e.packet = p := by
      unfold StorePacketVariant.ofPacket? at he
      split at he
      · cases he
        rfl
      · cases he
    have heq := e.outgoing?_eq
    rw [hpacket, hrelease] at heq
    rw [heq, hpv]
    cases ver <;> exact ⟨rfl, rfl⟩
  have hst : c₂.status = c.status := by rw [← hc₂, ← hc₁]
  refine ⟨⟨h₂.quiet hq, hst ▸ hq.status, fun r hr => ?_⟩, ?_⟩
  · rw [hsends] at hr
    obtain rfl := List.mem_singleton.mp hr
    exact hack.plain h.determined
  · have hturn := RecvTurn.answered hreply hstatus
    rw [hq.traffic, hsends, hdeliveries, htoken.1, htoken.2, idle, hkept₂, hkept,
      handled_congr (c := c) (by rw [← hc₂, ← hc₁])]
    exact hturn

/-! ### The other packets -/

/-- SUBACK and UNSUBACK end the use of their identifier. -/
theorem subacked_aside (h : c.Unlimited ver) (hstatus : c.status = .connected)
    {a b : OrdSet Nat} {m : PacketIdManager pb} {c₁ : Connection role pb}
    (hc₁ : c₁ = { c with pidSuback := a, pidUnsuback := b, pidMan := m }) (packetId : Nat) :
    Aside ver c ⟨c₁, [.packetIdRelease packetId]⟩ := by
  subst hc₁
  have hnot : c.status ≠ .connecting := by
    rw [hstatus]
    exact ConnectionStatus.noConfusion
  refine ⟨{ h with connecting := fun hs => absurd hs hnot }, .inl rfl, rfl, fun r hr => ?_⟩
  cases hr

/-- A v5 PUBLISH with QoS 0 is beside the exchanges. -/
theorem recvPublishTopicV5_aside (h : c.Unlimited .v5) {p : V5.PublishPacket pb}
    (hqos : ¬ isQos12 p.opts) : Aside .v5 c (c.recvPublishTopicV5 p none false) := by
  have hout : (PacketVariant.v5Publish p).outgoing? = none := if_neg hqos
  unfold recvPublishTopicV5
  split
  · exact (send_aside h rfl rfl).emit rfl rfl
  · next c' p' halias =>
    -- without an agreement on topic aliases the packet is taken as it is
    have hsame : c' = c ∧ p' = p := by
      rw [recvTopicAlias, h.topicAliasRecv] at halias
      split at halias
      · split at halias
        · cases halias
        · cases halias
          exact ⟨rfl, rfl⟩
      · cases halias
      · next hsome => cases hsome
    rw [hsame.1, hsame.2]
    change Aside .v5 c (((⟨c, []⟩ : Step role pb).andThen pingreqRecvOp).emit _)
    rw [← andThen_receive]
    exact (aside_stay h rfl rfl).receive hout

/-- A packet that belongs to no exchange is received. -/
theorem recv_aside (h : c.Unlimited ver) {pv : PacketVariant pb} (hp : pv.Plain ver)
    (hallowed : c.recvAllowed pv)
    (haside : pv.isAside ∨ pv.type = .publish ∧ ¬ isQos12 pv.view.opts) :
    Aside ver c (c.processRecvActual pv) := by
  have hempty : Aside ver c ⟨c, []⟩ := aside_stay h rfl rfl
  have hstay : ∀ pv : PacketVariant pb, pv.outgoing? = none → Aside ver c (c.receive pv) :=
    fun pv hpv => hempty.receive hpv
  have hstatus : pv.type ≠ .connect → pv.type ≠ .connack → pv.type ≠ .auth →
      c.status = .connected := by
    intro h₁ h₂ h₃
    unfold recvAllowed at hallowed
    split at hallowed
    · next h => exact absurd h h₁
    · next h => exact absurd h h₂
    · next h => exact absurd h h₃
    · exact of_decide_eq_true hallowed
  have hqos : ∀ opts, ¬ isQos12 opts →
      ¬ isQos12 opts ∧ (Pub.getQos opts).toNat ≠ 1 ∧ (Pub.getQos opts).toNat ≠ 2 := by
    intro opts hqos
    exact ⟨hqos, fun h => hqos (isQos12_iff_toNat.mpr (.inl h)),
      fun h => hqos (isQos12_iff_toNat.mpr (.inr h))⟩
  -- a PUBLISH with QoS 0 is handed over without an answer
  cases pv with
  | v311Publish p =>
    obtain ⟨hqos, h₁, h₂⟩ := hqos p.opts (haside.resolve_left Bool.false_ne_true).2
    change Aside ver c (c.recvPublishV311 p)
    unfold recvPublishV311
    split
    · exact hstay _ (if_neg hqos)
    · next hq => exact absurd hq h₁
    · next hq => exact absurd hq h₂
    · exact aside_stay h rfl rfl
  | v5Publish p =>
    obtain ⟨hqos, h₁, h₂⟩ := hqos p.opts (haside.resolve_left Bool.false_ne_true).2
    obtain rfl : ProtocolVersion.v5 = ver := hp.version
    change Aside .v5 c (c.recvPublishV5 p)
    unfold recvPublishV5
    split
    · next hq => exact absurd hq h₁
    · next hq => exact absurd hq h₂
    · exact recvPublishTopicV5_aside h hqos
  | v311Suback p | v5Suback p =>
    simp only [processRecvActual, recvSuback]
    split
    · exact (subacked_aside h (hstatus (by rintro ⟨⟩) (by rintro ⟨⟩) (by rintro ⟨⟩)) rfl _).receive rfl
    · exact invalidPacketId_aside h _
  | v311Unsuback p | v5Unsuback p =>
    simp only [processRecvActual, recvUnsuback]
    split
    · exact (subacked_aside h (hstatus (by rintro ⟨⟩) (by rintro ⟨⟩) (by rintro ⟨⟩)) rfl _).receive rfl
    · exact invalidPacketId_aside h _
  | v311Pingreq p | v5Pingreq p => exact (respondIf_aside h rfl rfl _).receive rfl
  | v311Pingresp p | v5Pingresp p =>
    exact aside_of_quiet h ⟨_, _, _, _, _, .inl rfl, rfl⟩ (fun r hr => by cases hr) rfl
  | v311Disconnect p | v5Disconnect p =>
    simp only [processRecvActual, recvDisconnect]
    refine aside_of_quiet h ?_ (fun r hr => ?_) ?_
    · rw [Step.conn_emit, cancelTimers_conn]
      exact ⟨_, _, _, _, _, .inr rfl, rfl⟩
    · rw [Step.events_emit, sends_append, sends_cancelTimers] at hr
      cases hr
    · rw [Step.events_emit, deliveries_append, deliveries, ← receives_signals,
        signals_cancelTimers]
      rfl
  | v311Subscribe p | v5Subscribe p | v311Unsubscribe p | v5Unsubscribe p | v5Auth p =>
    exact hstay _ rfl
  | _ =>
    rcases haside with haside | haside
    · exact absurd haside Bool.false_ne_true
    · cases haside.1

/-- A step beside the exchanges takes a turn that changes nothing. -/
theorem Aside.turn {s : Step role pb} {pv : PacketVariant pb} (h : Aside ver c s)
    (hturn : RecvTurn c pv c.idle) : Calm ver c s ∧ RecvTurn c pv s.traffic :=
  ⟨h.calm, h.traffic ▸ hturn⟩

/-- No stored packet awaits an answer with an identifier that does not wait. -/
theorem not_awaited (hackable : c.Ackable) {k : AckKind} (hk : AckKind.IsStored k)
    {packetId : Nat} (hmem : packetId ∉ c.waiting k) :
    ∀ o ∈ c.kept, o.awaits Message.once ≠ k.reply packetId := by
  intro o ho heq
  obtain ⟨e, he, rfl⟩ := List.mem_map.mp ho
  rw [awaits_outgoing, AckKind.reply_inj (storedAck_isStored e) hk] at heq
  obtain ⟨rfl, rfl⟩ := heq
  exact hmem (hackable.awaited e he)

/-- Without a limit nothing is counted. -/
theorem receive_counted {c' : Connection role pb} (h : c'.publishSendMax = none)
    (ver' : ProtocolVersion) (pv : PacketVariant pb) :
    (if ver' = .v5 then c'.decPublishSendCount else c').receive pv = c'.receive pv := by
  split
  · rw [decPublishSendCount, h]
    rfl
  · rfl

/-- Steps with the same events and the same end -/
theorem andThen_congr {s t : Step role pb} {f g : Connection role pb → Step role pb}
    (hevents : s.events = t.events) (h : f s.conn = g t.conn) : s.andThen f = t.andThen g := by
  rw [Step.andThen, Step.andThen, hevents, h]

/-- A PUBACK that is awaited ends its exchange. -/
theorem recvPuback_eq (h : c.Unlimited ver) {pv : PacketVariant pb}
    (hmem : pv.packetId ∈ c.pidPuback) :
    c.recvPuback pv.version pv =
      (⟨{ c with
        pidPuback := c.pidPuback.erase pv.packetId
        store := c.store.erase (AckKind.response .puback pv) pv.packetId
        pidMan := c.pidMan.releaseId pv.packetId }, [.packetIdRelease pv.packetId]⟩ :
        Step role pb).andThen (·.receive pv) := by
  refine (if_pos hmem).trans (andThen_congr rfl (receive_counted ?_ pv.version pv))
  exact h.publishSendMax

/-- A PUBCOMP that is awaited ends its exchange. -/
theorem recvPubcomp_eq (h : c.Unlimited ver) {pv : PacketVariant pb}
    (hmem : pv.packetId ∈ c.pidPubcomp) :
    c.recvPubcomp pv.version pv =
      (⟨{ c with
        pidPubcomp := c.pidPubcomp.erase pv.packetId
        store := c.store.erase (AckKind.response .pubcomp pv) pv.packetId
        pidMan := c.pidMan.releaseId pv.packetId
        qos2PublishProcessing := c.qos2PublishProcessing.erase pv.packetId },
        [.packetIdRelease pv.packetId]⟩ : Step role pb).andThen (·.receive pv) := by
  refine (if_pos hmem).trans (andThen_congr rfl (receive_counted ?_ pv.version pv))
  exact h.publishSendMax

/-- A PUBACK, PUBREC or PUBCOMP -/
theorem recvAck_turn (h : c.Unlimited ver) (hackable : c.Ackable) (hstatus : c.status = .connected)
    {pv : PacketVariant pb} (hp : pv.Plain ver) {k : AckKind} (hk : AckKind.IsStored k)
    (htype : pv.type = k.type) :
    Calm ver c (c.processRecvActual pv) ∧ RecvTurn c pv (c.processRecvActual pv).traffic := by
  by_cases hmem : pv.packetId ∈ c.waiting k
  · rcases hk with rfl | rfl | rfl
    · have hactual : c.processRecvActual pv = c.recvPuback pv.version pv := by
        cases pv <;> first | rfl | cases htype
      exact acked_turn h hackable hstatus hp (.inl rfl) htype rfl rfl
        (hactual.trans (recvPuback_eq h hmem))
    · exact recvPubrec_turn h hackable hstatus hp htype hmem
    · have hactual : c.processRecvActual pv = c.recvPubcomp pv.version pv := by
        cases pv <;> first | rfl | cases htype
      exact acked_turn h hackable hstatus hp (.inr (.inr rfl)) htype rfl rfl
        (hactual.trans (recvPubcomp_eq h hmem))
  · have hinvalid : c.processRecvActual pv = c.invalidPacketId pv.version := by
      rcases hk with rfl | rfl | rfl <;> cases pv <;> first | exact if_neg hmem | cases htype
    rw [hinvalid]
    exact (invalidPacketId_aside h _).turn
      (.unexpected (reply?_ack hp hk htype).1 (not_awaited hackable hk hmem))

/-- What the receipt of a packet comes to, once the connection has begun. -/
theorem recv_turn (h : c.Unlimited ver) (hackable : c.Ackable) {pv : PacketVariant pb}
    (hp : pv.Plain ver) (hnot : ¬ pv.isHandshake) :
    Calm ver c (c.processRecvDecoded pv) ∧ RecvTurn c pv (c.processRecvDecoded pv).traffic := by
  unfold processRecvDecoded
  split
  · next hallowed =>
    -- a packet beside the exchanges carries nothing
    by_cases haside : pv.isAside
    · obtain ⟨ho, hr⟩ := pv.isAside_token haside
      exact (recv_aside h hp hallowed (.inl haside)).turn (.aside ho hr)
    · have hstatus : c.status = .connected := by
        cases pv <;> first
          | exact of_decide_eq_true hallowed
          | exact absurd rfl haside
          | exact absurd rfl hnot
      -- the exchanges: a message, a release or a reply
      cases pv with
      | v311Publish p | v5Publish p =>
        by_cases hqos : isQos12 p.opts
        · exact recvPublish_turn h hstatus hp rfl hqos
        · exact (recv_aside h hp hallowed (.inr ⟨rfl, hqos⟩)).turn (.aside (if_neg hqos) rfl)
      | v311Pubrel p | v5Pubrel p => exact recvPubrel_turn h hstatus hp rfl
      | v311Puback p | v5Puback p => exact recvAck_turn h hackable hstatus hp (.inl rfl) rfl
      | v311Pubrec p | v5Pubrec p => exact recvAck_turn h hackable hstatus hp (.inr (.inl rfl)) rfl
      | v311Pubcomp p | v5Pubcomp p =>
        exact recvAck_turn h hackable hstatus hp (.inr (.inr rfl)) rfl
      | _ => first | exact absurd rfl haside | exact absurd rfl hnot
  · next hallowed =>
    apply (aside_stay h rfl rfl).turn
    -- a packet that the status forbids is lost, unless it carries nothing
    by_cases haside : pv.isAside
    · obtain ⟨ho, hr⟩ := pv.isAside_token haside
      exact .aside ho hr
    · refine .lost fun hstatus => hallowed ?_
      cases pv <;> first
        | exact decide_eq_true hstatus
        | exact absurd rfl haside
        | exact absurd rfl hnot

end Connection

end AsyncMqtt
