import AsyncMqtt.Spec.ExchangeTraffic
import AsyncMqtt.Spec.RegulateStore

/-!
# Calls of the application and the exchanges

What the calls of an application come to that keeps to the rules of the library: it hands over
packet identifiers that it holds, it leaves the acknowledgements to the connection, and it
publishes with QoS 1 or 2 when the message is kept. Such a call offers one message, or has
nothing to do with the exchanges.

## Key results

- `Connection.publish_turn`: a PUBLISH that `send` takes is kept, and is on the line if the
  connection is up
- `Connection.call_turn`: the calls of the application
-/

namespace AsyncMqtt

open Delivery

/-- An error is reported, or an exception leaves the function. -/
def Event.isFailure {pb : PacketIdBytes} : Event pb → Bool
  | .error _ | .threw _ => true
  | _ => false

namespace PacketVariant

variable {pb : PacketIdBytes}

/-- A v5.0 PUBLISH is an object of its class, and its lengths are those of its parts. -/
def Built (pv : PacketVariant pb) : Prop :=
  ∀ p, pv = .v5Publish p → p.WellFormed ∧ p.Consistent

set_option maxRecDepth 4000 in
/-- The DUP flag is not the RETAIN flag. -/
theorem getRetain_setDup : ∀ v : UInt8, Pub.getRetain (Pub.setDup v) = Pub.getRetain v := by
  decide

/-- The DUP flag does not belong to the message. -/
theorem message_setDup (pb : PacketIdBytes) :
    (∀ p : V311.PublishPacket pb, (PacketVariant.v311Publish p.setDup).message =
      (PacketVariant.v311Publish p).message) ∧
    ∀ p : V5.PublishPacket pb, (PacketVariant.v5Publish p.setDup).message =
      (PacketVariant.v5Publish p).message := by
  constructor
  · intro p
    have hqos : Pub.getQos p.setDup.opts = Pub.getQos p.opts := Connection.getQos_setDup _
    have hretain : Pub.getRetain p.setDup.opts = Pub.getRetain p.opts := getRetain_setDup _
    simp only [message, view, hqos, hretain]
    rfl
  · intro p
    have hqos : Pub.getQos p.setDup.opts = Pub.getQos p.opts := Connection.getQos_setDup _
    have hretain : Pub.getRetain p.setDup.opts = Pub.getRetain p.opts := getRetain_setDup _
    simp only [message, view, hqos, hretain]
    rfl

/-- A plain v3.1.1 PUBLISH is plain with the DUP flag. -/
theorem Plain.setDupV311 {ver : ProtocolVersion} {p : V311.PublishPacket pb}
    (h : Plain ver (.v311Publish p)) : Plain ver (.v311Publish p.setDup) :=
  ⟨h.version, by rintro ⟨⟩, by rintro (⟨⟨⟩⟩ | ⟨⟨⟩⟩), h.publish, by rintro ⟨⟩⟩

/-- A plain v5 PUBLISH is plain with the DUP flag. -/
theorem Plain.setDupV5 {ver : ProtocolVersion} {p : V5.PublishPacket pb}
    (h : Plain ver (.v5Publish p)) : Plain ver (.v5Publish p.setDup) :=
  ⟨h.version, by rintro ⟨⟩, by rintro (⟨⟨⟩⟩ | ⟨⟨⟩⟩), h.publish, by rintro ⟨⟩⟩

end PacketVariant

/-- A packet whose lengths are right is not changed by writing them anew. -/
theorem V5.PublishPacket.rewritten_self {pb : PacketIdBytes} {p : V5.PublishPacket pb}
    (h : p.Consistent) : p.rewritten p.topic p.props = p := by
  have hlength : p.lengthWith p.topic p.props = p.remainingLength := by
    rw [h.remainingLength, length_body, h.topicNameLengthBuf, h.propertyLengthBuf,
      h.propertyLength, length_endianStore]
    rfl
  rw [rewritten, hlength, ← h.propertyLength, ← h.propertyLengthBuf, ← h.remainingLengthBuf]
  have htopic : endianStore 2 p.topic.length = p.topicNameLengthBuf := h.topicNameLengthBuf.symm
  rw [htopic]
  rfl

namespace Connection

variable {role : Role} {pb : PacketIdBytes} {ver : ProtocolVersion} {c : Connection role pb}
  {pv : PacketVariant pb}

/-- Without an alias there is none to erase. -/
theorem eraseTopicAlias_of_none {props : Properties} (h : getTopicAlias props = none) :
    eraseTopicAlias props = props := by
  refine List.eraseP_of_forall_not fun prop hprop hid => ?_
  rw [getTopicAlias, Option.map_eq_none_iff] at h
  exact absurd (of_decide_eq_true hid) (by simpa using List.find?_eq_none.mp h prop hprop)

/-- The entry holds its packet. -/
theorem packet_of_ofPacket {p : StorePacket pb} {e : StorePacketVariant pb}
    (h : StorePacketVariant.ofPacket? p = some e) : e.packet = p := by
  unfold StorePacketVariant.ofPacket? at h
  split at h
  · cases h
    rfl
  · cases h

/-- The copy that is stored is the message. -/
theorem storedCopy_outgoing (hp : pv.Plain ver) (hbuilt : pv.Built) {e : StorePacketVariant pb}
    (hqos : isQos12 pv.view.opts) (he : c.storedCopy pv = some e) :
    e.outgoing = .message pv.packetId pv.message ∧ e.packetId = pv.packetId ∧
      e.size = pv.size ∧ e.packet.toPacketVariant.Plain ver := by
  cases pv with
  -- a v3.1.1 PUBLISH is stored with the DUP flag
  | v311Publish p =>
    have hpacket := packet_of_ofPacket he
    have hmessage := (PacketVariant.message_setDup pb).1 p
    refine ⟨?_, congrArg StorePacket.packetId hpacket, congrArg StorePacket.size hpacket, ?_⟩
    rotate_left
    · rw [hpacket]
      exact hp.setDupV311
    rw [StorePacketVariant.outgoing, hpacket]
    exact congrArg (Outgoing.message p.packetId) hmessage
  -- a v5 PUBLISH is stored with its topic, and it has no alias to be erased
  | v5Publish p =>
    obtain ⟨hwf, hconsistent⟩ := hbuilt p rfl
    obtain ⟨htopic, halias⟩ := hp.publish rfl hp.version.symm
    obtain ⟨sp, hsp, hof⟩ := Option.bind_eq_some_iff.mp he
    obtain rfl : sp = p := by
      obtain ⟨topic, htop, hstore⟩ := storePacket_of_storedPublishV5 hsp
      rw [storedTopic, if_neg (by exact htopic)] at htop
      obtain rfl := Option.some.inj htop
      have heq := storePacket_eq_rewritten hwf hqos hstore
      have herase : eraseTopicAlias p.props = p.props := eraseTopicAlias_of_none halias
      rw [herase, V5.PublishPacket.rewritten_self hconsistent] at heq
      exact heq
    have hpacket := packet_of_ofPacket hof
    have hmessage := (PacketVariant.message_setDup pb).2 sp
    refine ⟨?_, congrArg StorePacket.packetId hpacket, congrArg StorePacket.size hpacket, ?_⟩
    rotate_left
    · rw [hpacket]
      exact hp.setDupV5
    rw [StorePacketVariant.outgoing, hpacket]
    exact congrArg (Outgoing.message sp.packetId) hmessage
  | _ => cases he

/-- A packet with a response has an entry. -/
theorem ofPacket_of_response {p : StorePacket pb} {res : ResponsePacket}
    (h : p.response? = some res) : StorePacketVariant.ofPacket? p = some ⟨p, res, h⟩ := by
  unfold StorePacketVariant.ofPacket?
  split
  · next hr =>
    cases hr.symm.trans h
    rfl
  · next hr => cases hr.symm.trans h

/-- A v3.1.1 PUBLISH with QoS 1 or 2 has a response. -/
theorem storePacketV311_response {p : V311.PublishPacket pb} (hqos : isQos12 p.opts) :
    ∃ res, (StorePacket.v311Publish p.setDup).response? = some res := by
  refine ⟨_, v311Publish_response ?_⟩
  have hsame : Pub.getQos p.setDup.opts = Pub.getQos p.opts := getQos_setDup _
  rw [isQos12, hsame]
  exact hqos

/-- A PUBLISH that enters the session is stored. -/
theorem storeEntered_eq (hstores : c.storesPublish) (henters : c.publishEnters pv) :
    ∃ p e, c.storeEntered pv = c.store.add p ∧ StorePacketVariant.ofPacket? p = some e ∧
      c.storedCopy pv = some e := by
  have hqos := (publishEnters_qos henters).2
  cases pv with
  | v311Publish p =>
    obtain ⟨res, hres⟩ := storePacketV311_response hqos
    have hof := ofPacket_of_response hres
    exact ⟨.v311Publish p.setDup, ⟨_, res, hres⟩, if_pos hstores, hof, hof⟩
  | v5Publish p =>
    simp only [publishEnters, hstores, Bool.not_true, Bool.false_or, Bool.and_eq_true] at henters
    obtain ⟨sp, hsp⟩ := Option.isSome_iff_exists.mp henters.2
    obtain ⟨e, hof, -⟩ := ofPacket_storedPublishV5 hqos hsp
    refine ⟨.v5Publish sp.setDup, e, ?_, hof, ?_⟩
    · rw [storeEntered, if_pos hstores, hsp]
    · rw [storedCopy, hsp]
      exact hof
  | _ => cases henters

/-- What is kept after a PUBLISH that enters the session. -/
theorem kept_entered (hp : pv.Plain ver) (hbuilt : pv.Built)
    (hstores : c.storesPublish) (henters : c.publishEnters pv)
    (hfree : ∀ o ∈ c.kept, o.key ≠ pv.packetId) {c' : Connection role pb}
    (hc' : c'.store = c.storeEntered pv) :
    c'.kept = c.kept ++ [.message pv.packetId pv.message] ∧
      ∀ e ∈ c'.store.elems, e ∈ c.store.elems ∨
        e.size = pv.size ∧ e.packet.toPacketVariant.Plain ver := by
  obtain ⟨p, e, hstore, hof, hcopy⟩ := storeEntered_eq hstores henters
  obtain ⟨hmessage, hid, hsize, hplain⟩ :=
    storedCopy_outgoing hp hbuilt (publishEnters_qos henters).2 hcopy
  rw [hstore] at hc'
  refine ⟨?_, fun e' he' => ?_⟩
  · rw [← hmessage]
    exact kept_add hof (hid ▸ hfree) hc'
  · rw [hc', Store.add, hof, Store.mem_emplaceBack] at he'
    rcases he' with he' | ⟨rfl, -⟩
    · exact .inl he'
    · exact .inr ⟨hsize, hplain⟩

/-! ### PUBLISH -/

/-- The message that a call hands over: it is a PUBLISH with QoS 1 or 2, and the call ends
    without an error and without an exception. -/
def offers (op : Op pb) (c : Connection role pb) : List Message :=
  match op with
  | .send pv =>
    if pv.type = .publish ∧ isQos12 pv.view.opts ∧ ∀ e ∈ (c.send pv).events, ! e.isFailure then
      [pv.message]
    else []
  | _ => []

/-- What a call of the application comes to. -/
inductive CallTurn (c : Connection role pb) : List Message → Traffic → Prop where
  | aside : CallTurn c [] c.idle
  | offer {k : Nat} (m : Message) (hfree : ∀ o ∈ c.kept, o.key ≠ k) :
      CallTurn c [m] { c.idle with
        kept := c.kept ++ [.message k m]
        outgoings := if c.status = .connected then [.message k m] else [] }

/-- A call beside the exchanges offers nothing. -/
theorem Aside.callTurn {s : Step role pb} (h : Aside ver c s) : Calm ver c s ∧ CallTurn c [] s.traffic :=
  ⟨h.calm, h.traffic ▸ .aside⟩

/-- Only the identifiers in use change. -/
theorem aside_pidMan (h : c.Unlimited ver) {c₁ : Connection role pb} {m : PacketIdManager pb}
    (hc₁ : c₁ = { c with pidMan := m }) {es : List (Event pb)} (hsends : sends es = [])
    (hreceives : receives es = []) : Aside ver c ⟨c₁, es⟩ := by
  subst hc₁
  have h₁ : ({ c with pidMan := m } : Connection role pb).Unlimited ver := { h with }
  have haside := aside_stay h₁ hsends hreceives
  exact ⟨haside.unlimited, haside.status, haside.traffic, haside.packets⟩

/-- A refusal is beside the exchanges. -/
theorem failRelease_aside (h : c.Unlimited ver) (ec : ErrorCode) (packetId : Nat) :
    Aside ver c (Sent.failRelease c ec packetId).step := by
  unfold Sent.failRelease
  split
  · exact aside_pidMan h rfl rfl rfl
  · exact aside_stay h rfl rfl

/-- A packet that does not pass the checks is refused with an error. -/
theorem refused_aside (h : c.Unlimited ver) (hpass : ¬ c.passesChecks pv) :
    Aside ver c (c.send pv) ∧ c.offers (.send pv) = [] := by
  obtain ⟨packetId, hsend⟩ := send_refused hpass
  refine ⟨hsend ▸ failRelease_aside h _ packetId, if_neg fun hall => ?_⟩
  have herror := hall.2.2 (.error MqttError.packetNotAllowedToSend)
    (by rw [hsend]; exact failRelease_reports c _ packetId)
  cases herror

/-- A PUBLISH has one of its outcomes. -/
theorem publish_outcome (htype : pv.type = .publish) :
    PublishOutcome c pv (c.processSendActual pv) := by
  cases pv with
  | v311Publish p => exact c.sendPublishV311_outcome p
  | v5Publish p => exact c.sendPublishV5_outcome p
  | _ => cases htype

/-- Without topic aliases a PUBLISH goes out as it is. -/
theorem Unlimited.aliases (h : c.Unlimited ver) (hp : pv.Plain ver) (htype : pv.type = .publish) :
    c.aliased pv = pv ∧ c.aliasesAfter pv = none ∧ ∀ p, pv = .v5Publish p → ¬ c.aliasRejected p := by
  have hnone := h.topicAliasSend
  cases pv with
  | v311Publish p => exact ⟨rfl, hnone, by rintro _ ⟨⟩⟩
  | v5Publish p =>
    obtain ⟨htopic, halias⟩ := hp.publish rfl hp.version.symm
    have hrejected : c.aliasRejected p = false := by
      rw [aliasRejected, if_neg (by exact htopic)]
      have halias : getTopicAlias p.props = none := halias
      rw [halias]
    have happlied : c.aliasApplied p = (none, p) := by
      have halias : getTopicAlias p.props = none := halias
      rw [aliasApplied, if_neg (by exact htopic), halias]
      simp only [autoTopicAlias, hnone, ite_self]
    refine ⟨?_, ?_, ?_⟩
    · rw [aliased, happlied]
    · rw [aliasesAfter, hrejected, happlied]
      rfl
    · rintro _ ⟨⟩
      rw [hrejected]
      exact Bool.false_ne_true
  | _ => cases htype

/-- Setting the timer for the PINGREQ is no failure. -/
theorem resetPingreqSend_noFailure (c : Connection role pb) :
    ∀ e ∈ c.resetPingreqSend.events, ! e.isFailure := by
  unfold resetPingreqSend
  split
  · split <;> simp [Event.isFailure]
  · simp

/-- No later check stops a PUBLISH that enters the session. -/
theorem Unlimited.not_failsLate (h : c.Unlimited ver) (hp : pv.Plain ver)
    (hready : c.status = .connected ∨ c.offlinePublish) : ¬ c.publishFailsLate pv := by
  have hsendable : c.notSendable = false := by
    rw [notSendable]
    rcases hready with hstatus | hoffline
    · rw [hstatus]
      rfl
    · rw [hoffline, Bool.not_true, Bool.and_false]
  have hmax : c.sendMaximumReached = false := by
    rw [sendMaximumReached, h.publishSendMax]
    rfl
  intro hlate
  cases pv with
  | v311Publish p =>
    rw [publishFailsLate, hsendable, Bool.and_false] at hlate
    cases hlate
  | v5Publish p =>
    have halias := (h.aliases hp rfl).2.2 p rfl
    rw [publishFailsLate, hsendable, hmax, Bool.or_false, Bool.or_false] at hlate
    exact halias (Bool.and_eq_true_iff.mp hlate).2
  | _ => cases hlate

/-- After a PUBLISH that stopped nothing follows. -/
theorem Stopped.send (hpass : c.passesChecks pv)
    (hs : Stopped c pv.packetId (c.processSendActual pv)) :
    c.send pv = (c.processSendActual pv).step := by
  obtain ⟨hallowed, hsize⟩ := Bool.and_eq_true_iff.mp hpass
  rw [send_of_allowed hallowed hsize]
  exact if_neg (by rw [hs.ok]; exact Bool.false_ne_true)

/-- A PUBLISH that is stopped changes nothing but the identifiers in use. -/
theorem Stopped.aside (h : c.Unlimited ver) (hpass : c.passesChecks pv)
    (henters : ¬ c.publishEnters pv) (hs : Stopped c pv.packetId (c.processSendActual pv)) :
    Aside ver c (c.send pv) := by
  obtain ⟨tas, m, hconn, htas, -⟩ := hs.conn
  have hnone : tas = c.topicAliasSend := by
    rcases htas with htas | ⟨taOpt, rfl⟩
    · exact htas
    · rcases c.touchedAliases_cases taOpt with heq | ⟨t, ta, ht, -⟩
      · exact heq
      · rw [h.topicAliasSend] at ht
        cases ht
  rw [hs.send hpass]
  refine aside_pidMan (m := m) h ?_ hs.sends ?_
  · rw [hconn, hnone]
  · exact PublishOutcome.receives (.stopped henters hs)

/-- A PUBLISH with QoS 1 or 2 is not stopped without an error or an exception. -/
theorem Stopped.offers (htype : pv.type = .publish) (hqos : isQos12 pv.view.opts)
    (hpass : c.passesChecks pv) (henters : ¬ c.publishEnters pv)
    (hs : Stopped c pv.packetId (c.processSendActual pv)) : c.offers (.send pv) = [] := by
  refine if_neg fun hall => ?_
  have hevents := stopped_events htype henters hqos
  rw [hs.send hpass] at hall
  split at hevents
  · obtain ⟨e, he⟩ := hevents
    have hfail := hall.2.2 (.threw e) (by rw [he]; exact List.mem_singleton_self _)
    cases hfail
  · obtain ⟨ec, hec⟩ := hevents
    have hfail := hall.2.2 _ hec
    cases hfail

/-- A PUBLISH with QoS 1 or 2 that `send` takes is kept, and is on the line if the connection is
    up. -/
theorem publish_turn (h : c.Unlimited ver) (hp : pv.Plain ver) (hbuilt : pv.Built)
    (htype : pv.type = .publish) (hqos : isQos12 pv.view.opts) (hstores : c.storesPublish)
    (hready : c.status = .connected ∨ c.offlinePublish)
    (hfree : ∀ o ∈ c.kept, o.key ≠ pv.packetId) :
    Calm ver c (c.send pv) ∧ CallTurn c (c.offers (.send pv)) (c.send pv).traffic := by
  by_cases hpass : c.passesChecks pv = true
  · obtain ⟨hallowed, hsize⟩ := Bool.and_eq_true_iff.mp hpass
    obtain ⟨haliased, hafter, -⟩ := h.aliases hp htype
    have hconnack : pv.type ≠ .connack := by
      rw [htype]
      exact ControlPacketType.noConfusion
    cases publish_outcome (c := c) htype with
    | stopped henters hs =>
      rw [hs.offers htype hqos hpass henters]
      exact (hs.aside h hpass henters).callTurn
    | plain hnot => exact absurd hqos hnot
    | failed hlate => exact absurd hlate (h.not_failsLate hp hready)
    | entered henters hlate pv' htype' hid hopts hok hconn hevents =>
      have hsend : c.send pv = (c.processSendActual pv).step.andThen resetPingreqSend := by
        rw [send_of_allowed hallowed hsize, if_pos hok, if_neg hconnack]
      generalize hc₁ : (c.processSendActual pv).step.conn = c₁ at hconn
      rw [publishEntered_eq, hafter] at hconn
      have hq : Quiet c₁ (c.send pv).conn := by
        rw [hsend, Step.conn_andThen, hc₁]
        exact quiet_resetPingreqSend c₁
      have hstore : c₁.store = c.storeEntered pv := by
        rw [hconn]
      obtain ⟨hkept, hstored⟩ := kept_entered hp hbuilt hstores henters hfree hstore
      -- the store has the PUBLISH as well, which is plain and not too large
      have h₁ : c₁.Unlimited ver := by
        have hns : c.needStore := (Bool.and_eq_true_iff.mp hstores).1
        have hplain : ∀ e ∈ c₁.store.elems, e.Plain ver := by
          intro e he
          rcases hstored e he with he | ⟨hesize, hepacket⟩
          · exact h.stored e he
          · refine ⟨?_, hepacket⟩
            rw [hesize, ← h.maximumPacketSizeSend]
            exact of_decide_eq_true hsize
        rw [hconn] at hplain ⊢
        exact { h with
          topicAliasSend := rfl
          unstarted := fun hnot => absurd hns hnot
          connecting := h.connecting
          stored := hplain }
      have hoffers : c.offers (.send pv) = [pv.message] := by
        refine if_pos ⟨htype, hqos, fun e he => ?_⟩
        rw [hsend, Step.events_andThen, hevents] at he
        rcases List.mem_append.mp he with he | he
        · split at he
          · obtain rfl := List.mem_singleton.mp he
            rfl
          · cases he
        · exact resetPingreqSend_noFailure _ e he
      -- the PUBLISH is written at once if the connection is there, and otherwise with the store
      have hsends : sends (c.send pv).events = if c.status = .connected then [pv] else [] := by
        have hline := (send_line_publish (c := c) htype).2
        rw [haliased, hsend, Step.events_andThen, sends_append, sends_resetPingreqSend, hevents,
          List.append_nil] at hline
        rw [hsend, Step.events_andThen, sends_append, sends_resetPingreqSend, hevents,
          List.append_nil]
        by_cases hstatus : c.status = .connected
        · rw [if_pos hstatus] at hline ⊢
          rw [if_pos hstatus]
          exact (hline.resolve_left (List.cons_ne_nil _ _)).2.2
        · rw [if_neg hstatus, if_neg hstatus]
          rfl
      rw [hoffers]
      have hst : c₁.status = c.status := by rw [hconn]
      refine ⟨⟨h₁.quiet hq, hst ▸ hq.status, fun r hr => ?_⟩, ?_⟩
      · rw [hsends] at hr
        split at hr
        · obtain rfl := List.mem_singleton.mp hr
          refine ⟨hp, ?_⟩
          rw [PacketVariant.isHandshake, htype]
          exact Bool.false_ne_true
        · cases hr
      · have hout := outgoing?_publish htype hqos
        have hturn := CallTurn.offer pv.message hfree
        have htoken : outgoings (sends (c.send pv).events) =
            if c.status = .connected then [.message pv.packetId pv.message] else [] := by
          rw [hsends]
          split
          · rw [outgoings, List.filterMap_cons, hout]
            rfl
          · rfl
        have hreplies : replies (sends (c.send pv).events) = [] := by
          rw [hsends]
          split
          · rw [replies, List.filterMap_cons, PacketVariant.reply?, htype]
            rfl
          · rfl
        rw [hq.traffic, htoken, hreplies, deliveries, receives_send, idle, hkept,
          handled_congr (c := c) (by rw [hconn])]
        exact hturn
  · obtain ⟨haside, hoffers⟩ := refused_aside h hpass
    exact hoffers ▸ haside.callTurn

/-- A PUBLISH with QoS 0 -/
theorem publish0_turn (h : c.Unlimited ver) (hp : pv.Plain ver) (htype : pv.type = .publish)
    (hqos : ¬ isQos12 pv.view.opts) :
    Calm ver c (c.send pv) ∧ CallTurn c [] (c.send pv).traffic := by
  by_cases hpass : c.passesChecks pv = true
  · obtain ⟨haliased, hafter, -⟩ := h.aliases hp htype
    have hconnack : pv.type ≠ .connack := by
      rw [htype]
      exact ControlPacketType.noConfusion
    -- a PUBLISH with QoS 0 is never entered
    cases publish_outcome (c := c) htype with
    | stopped henters hs => exact (hs.aside h hpass henters).callTurn
    | failed hlate => exact absurd (publishEnters_qos (publishFailsLate_enters hlate)).2 hqos
    | entered henters => exact absurd (publishEnters_qos henters).2 hqos
    | plain _ pv' _ _ _ hok hconn hevents =>
      obtain ⟨hallowed, hsize⟩ := Bool.and_eq_true_iff.mp hpass
      have hq : Quiet c (c.send pv).conn := by
        rw [send_of_allowed hallowed hsize, if_pos hok, if_neg hconnack, Step.conn_andThen, hconn,
          hafter, ← h.topicAliasSend]
        exact quiet_resetPingreqSend c
      -- the packet is written once or not at all
      have hsends : ∀ r ∈ sends (c.send pv).events, r = pv := by
        intro r hr
        rcases (send_line_publish (c := c) htype).2 with hnone | ⟨-, -, hone⟩
        · rw [hnone] at hr
          cases hr
        · rw [hone, haliased] at hr
          exact List.mem_singleton.mp hr
      have hout : pv.outgoing? = none := by
        rw [PacketVariant.outgoing?, htype]
        exact if_neg hqos
      have hreply : pv.reply? = none := by
        rw [PacketVariant.reply?, htype]
      refine ⟨⟨h.quiet hq, hq.status, fun r hr => ?_⟩, ?_⟩
      · rw [hsends r hr]
        refine ⟨hp, ?_⟩
        rw [PacketVariant.isHandshake, htype]
        exact Bool.false_ne_true
      · have houtgoings : outgoings (sends (c.send pv).events) = [] :=
          List.filterMap_eq_nil_iff.mpr fun r hr => hsends r hr ▸ hout
        have hreplies : replies (sends (c.send pv).events) = [] :=
          List.filterMap_eq_nil_iff.mpr fun r hr => hsends r hr ▸ hreply
        rw [hq.traffic, houtgoings, hreplies, deliveries, receives_send]
        exact .aside
  · exact (refused_aside h hpass).1.callTurn

/-! ### The other calls -/

/-- A call that leaves the store and the handled identifiers as they are. -/
theorem aside_of_state {s : Step role pb} (h : s.conn.Unlimited ver)
    (hstatus : s.conn.status = c.status ∨ s.conn.status = .disconnected)
    (hstore : s.conn.store = c.store)
    (hhandled : s.conn.qos2PublishHandled = c.qos2PublishHandled)
    (hsends : sends s.events = []) (hreceives : receives s.events = []) : Aside ver c s := by
  refine ⟨h, hstatus, ?_, fun r hr => ?_⟩
  · rw [Step.traffic, hsends, deliveries, hreceives, kept_congr hstore, handled_congr hhandled]
    rfl
  · rw [hsends] at hr
    cases hr

/-- The end of the connection is beside the exchanges. -/
theorem notifyClosed_aside (h : c.Unlimited ver) : Aside ver c c.notifyClosed := by
  refine aside_of_state ?_ (.inr ?_) ?_ ?_ c.notifyClosed_line.2 (receives_notifyClosed c)
  · rw [notifyClosed_conn]
    refine { h with
      topicAliasSend := rfl
      topicAliasRecv := rfl
      maximumPacketSizeSend := rfl
      unstarted := fun hns => ?_
      connecting := fun hs => ?_ }
    · obtain ⟨hstore, -, -⟩ := h.unstarted hns
      exact ⟨hstore, if_neg hns, rfl⟩
    · cases hs
  · rw [notifyClosed_conn]
  · rw [notifyClosed_conn]
  · rw [notifyClosed_conn]
    by_cases hns : c.needStore
    · exact if_pos hns
    · exact (if_neg hns).trans (h.unstarted hns).2.1.symm

/-- Sending hands no message over. -/
theorem deliveries_send (pv : PacketVariant pb) (c : Connection role pb) :
    deliveries (c.send pv).events = [] := by
  rw [deliveries, receives_send]
  rfl

/-- SUBSCRIBE and UNSUBSCRIBE -/
theorem subscribe_aside (h : c.Unlimited ver)
    (htype : pv.type = .subscribe ∨ pv.type = .unsubscribe) : Aside ver c (c.send pv) := by
  by_cases hpass : c.passesChecks pv = true
  · obtain ⟨hallowed, hsize⟩ := Bool.and_eq_true_iff.mp hpass
    have hstatus : c.status = .connected := by
      have hst := (Bool.and_eq_true_iff.mp (Bool.and_eq_true_iff.mp hallowed).1).2
      rcases htype with htype | htype <;>
        (rw [htype] at hst; exact of_decide_eq_true hst)
    have hversion : pv.version = ver := by
      have hcheck : c.versionCheck pv = true := (Bool.and_eq_true_iff.mp hallowed).2
      exact (of_decide_eq_true hcheck).symm.trans h.protocolVersion
    have haside : pv.isAside := by
      rcases htype with htype | htype <;> rw [PacketVariant.isAside, htype]
    have hconnack : pv.type ≠ .connack := by
      rcases htype with htype | htype <;> (rw [htype]; exact ControlPacketType.noConfusion)
    -- the identifier begins to wait, and the packet goes out
    obtain ⟨a, b, release, hactual⟩ : ∃ a b release, c.processSendActual pv =
        .send { c with pidSuback := a, pidUnsuback := b } pv release := by
      cases pv <;> first
        | exact ⟨_, _, _, rfl⟩
        | (rcases htype with htype | htype <;> cases htype)
    have hnot : c.status ≠ .connecting := by
      rw [hstatus]
      exact ConnectionStatus.noConfusion
    have hone : Aside ver c (c.processSendActual pv).step := by
      rw [hactual]
      refine ⟨{ h with connecting := fun hs => absurd hs hnot }, .inl rfl, ?_, fun r hr => ?_⟩
      · obtain ⟨hout, hreply⟩ := pv.isAside_token haside
        have houtgoings : outgoings [pv] = [] := by
          rw [outgoings, List.filterMap_cons, hout]
          rfl
        have hreplies : replies [pv] = [] := by
          rw [replies, List.filterMap_cons, hreply]
          rfl
        change Traffic.mk _ _ (outgoings [pv]) (replies [pv]) [] = c.idle
        rw [houtgoings, hreplies]
        rfl
      · obtain rfl := List.mem_singleton.mp hr
        exact ⟨haside, hversion⟩
    have hok : (c.processSendActual pv).ok = true := by
      rw [hactual]
      rfl
    have hsend : c.send pv = (c.processSendActual pv).step.andThen resetPingreqSend := by
      rw [send_of_allowed hallowed hsize, if_pos hok, if_neg hconnack]
    refine hone.next ?_ ?_ (deliveries_send pv c)
    · rw [hsend]
      exact quiet_resetPingreqSend _
    · rw [hsend, Step.events_andThen, sends_append, sends_resetPingreqSend, List.append_nil]
  · exact (refused_aside h hpass).1

/-! ### The rules of the application -/

/-- A packet that the application may hand over, apart from those that begin a connection. -/
structure MaySend (ver : ProtocolVersion) (s : Owned role pb) (pv : PacketVariant pb) : Prop where
  plain : pv.Plain ver
  built : pv.Built
  handshake : ¬ pv.isHandshake
  /-- acknowledgements are left to the connection -/
  exchange : pv.type ≠ .puback ∧ pv.type ≠ .pubrec ∧ pv.type ≠ .pubrel ∧ pv.type ≠ .pubcomp
  owned : pv.ownPacketId → pv.packetId ∈ s.held ∧ s.conn.pidMan.isUsedId pv.packetId ∨
    pv.type = .publish ∧ ¬ isQos12 pv.view.opts ∧ pv.packetId = 0
  /-- without a connection the message has to be kept for the next one -/
  ready : pv.type = .publish → isQos12 pv.view.opts →
    s.conn.status = .connected ∨ s.conn.offlinePublish ∧ s.conn.needStore

/-- A call that the application may make, apart from those that begin a connection. -/
def Permits (ver : ProtocolVersion) (s : Owned role pb) : Op pb → Prop
  | .acquireUniquePacketId => ¬ s.conn.pidMan.Wraps
  | .registerPacketId packetId => s.conn.pidMan.Wraps → s.conn.pidMan.isUsedId packetId
  | .releasePacketId packetId => packetId.val ∈ s.held
  | .send pv => MaySend ver s pv
  | .recv _ | .restorePackets _ | .restoreQos2PublishHandledPids _ => False
  | .setAutoPubResponse val => val = true
  | _ => True

/-- What the application and the connection know of identifiers and stored packets. -/
structure Sound (ver : ProtocolVersion) (s : Owned role pb) : Prop where
  unlimited : s.conn.Unlimited ver
  accounted : s.conn.Accounted s.held
  ackable : s.conn.Ackable

section

variable {s : Owned role pb}

/-- Nothing is awaited under an identifier that the application holds. -/
theorem Sound.unwaited (h : Sound ver s) {packetId : Nat} (hheld : packetId ∈ s.held) :
    s.conn.Unwaited packetId := fun k hk => h.accounted.notHeld k packetId hk hheld

/-- Nothing is stored under an identifier that nothing is awaited under. -/
theorem Sound.not_hasStored (h : Sound ver s) {packetId : Nat} (hun : s.conn.Unwaited packetId) :
    ¬ s.conn.HasStored packetId := by
  rintro ⟨e, he, rfl⟩
  exact hun _ (h.ackable.awaited e he)

/-- An identifier that is not in use for a packet that was sent is free. -/
theorem Sound.free (h : Sound ver s) {packetId : Nat} (hun : s.conn.Unwaited packetId) :
    ∀ o ∈ s.conn.kept, o.key ≠ packetId := by
  intro o ho hkey
  obtain ⟨e, he, rfl⟩ := List.mem_map.mp ho
  exact h.not_hasStored hun ⟨e, he, (StorePacketVariant.key_outgoing e).symm.trans hkey⟩

/-- What the application hands over does not wait. -/
theorem MaySend.unwaited (h : Sound ver s) (hmay : MaySend ver s pv) (hown : pv.ownPacketId) :
    s.conn.Unwaited pv.packetId ∨ pv.type = .publish ∧ pv.packetId = 0 ∧ ¬ isQos12 pv.view.opts := by
  rcases hmay.owned hown with ⟨hheld, -⟩ | ⟨htype, hqos, hid⟩
  · exact .inl (h.unwaited hheld)
  · exact .inr ⟨htype, hid, hqos⟩

/-- Where nothing is awaited, no other kind is. -/
theorem onlyWaits_of_unwaited {c : Connection role pb} {packetId : Nat} (h : c.Unwaited packetId)
    (k : AckKind) : c.OnlyWaits k packetId := fun k' hk' => absurd hk' (h k')

/-- A PUBLISH that may be sent is stored, and can be sent now or later. -/
theorem MaySend.stores (h : Sound ver s) (hmay : MaySend ver s pv) (htype : pv.type = .publish)
    (hqos : isQos12 pv.view.opts) : s.conn.storesPublish ∧
      (s.conn.status = .connected ∨ s.conn.offlinePublish) := by
  rcases hmay.ready htype hqos with hstatus | ⟨hoffline, hns⟩
  · have hne : s.conn.status ≠ .disconnected := by
      rw [hstatus]
      exact ConnectionStatus.noConfusion
    refine ⟨?_, .inl hstatus⟩
    rw [storesPublish, h.unlimited.started hne, decide_eq_true hne]
    rfl
  · refine ⟨?_, .inr hoffline⟩
    rw [storesPublish, hns, hoffline, Bool.or_true]
    rfl

/-- A packet that may be sent leaves the account right. -/
theorem MaySend.accounts (h : Sound ver s) (hmay : MaySend ver s pv) :
    s.conn.SendAccounts pv ∧ s.conn.SendKeeps pv := by
  have hneither : pv.ownPacketId → pv.packetId ≠ 0 → s.conn.Unwaited pv.packetId :=
    fun hown hid => (hmay.unwaited h hown).resolve_right fun hzero => hid hzero.2.1
  have hpublish : pv.type = .publish → s.conn.publishEnters pv →
      ¬ s.conn.publishFailsLate pv ∧ s.conn.OnlyWaits (publishAck pv.view.opts) pv.packetId := by
    intro htype henters
    have hqos := (publishEnters_qos henters).2
    have hown : pv.ownPacketId := by rw [PacketVariant.ownPacketId, htype]
    have hun := (hmay.unwaited h hown).resolve_right fun hzero => hzero.2.2 hqos
    -- nothing else is awaited under the identifier of a PUBLISH that is entered
    exact ⟨h.unlimited.not_failsLate hmay.plain (hmay.stores h htype hqos).2,
      onlyWaits_of_unwaited hun _⟩
  have hzero : pv.type = .publish → pv.packetId = 0 ∨ s.conn.Unwaited pv.packetId := by
    intro htype
    have hown : pv.ownPacketId := by rw [PacketVariant.ownPacketId, htype]
    rcases hmay.unwaited h hown with hun | hnone
    · exact .inr hun
    · exact .inl hnone.2.1
  have henters : pv.type = .subscribe ∨ pv.type = .unsubscribe →
      s.conn.pidMan.isUsedId pv.packetId ∧ s.conn.Unwaited pv.packetId := by
    intro htype
    have hown : pv.ownPacketId := by
      rcases htype with htype | htype <;> rw [PacketVariant.ownPacketId, htype]
    rcases hmay.owned hown with ⟨hheld, hused⟩ | ⟨hpublish, -⟩
    · exact ⟨hused, h.unwaited hheld⟩
    · rw [hpublish] at htype
      rcases htype with htype | htype <;> cases htype
  -- the application sends no CONNACK in the middle of a connection
  have hhandshake : pv.type ≠ .connack := by
    intro htype
    exact hmay.handshake (by rw [PacketVariant.isHandshake, htype]; rfl)
  constructor
  · intro _
    split
    · unfold Accepts
      split
      · next htype => exact absurd htype hhandshake
      · next htype =>
        split
        · next henter => exact hpublish htype henter
        · exact hzero htype
      · next htype => exact absurd htype hmay.exchange.2.2.1
      · next htype =>
        obtain ⟨hused, hun⟩ := henters (.inl htype)
        exact ⟨hused, onlyWaits_of_unwaited hun _⟩
      · next htype =>
        obtain ⟨hused, hun⟩ := henters (.inr htype)
        exact ⟨hused, onlyWaits_of_unwaited hun _⟩
      · trivial
    · exact hneither
  · intro _
    split
    · unfold AcceptKeeps
      split
      · next htype =>
        split
        · next henter => exact fun _ => hpublish htype henter
        · exact (hzero htype).imp_right h.not_hasStored
      · next htype => exact absurd htype hmay.exchange.2.2.1
      · next htype => exact h.not_hasStored (henters (.inl htype)).2
      · next htype => exact h.not_hasStored (henters (.inr htype)).2
      · trivial
    · exact fun hown hid => h.not_hasStored (hneither hown hid)

/-- The rules keep the accounts of the connection. -/
theorem Permits.accounts (h : Sound ver s) {op : Op pb} (hop : Permits ver s op) :
    s.GivesBack op ∧ s.Accounts op ∧ s.conn.KeepsStored op := by
  cases op with
  | acquireUniquePacketId => exact ⟨by rintro _ ⟨⟩, hop, hop⟩
  | registerPacketId packetId => exact ⟨by rintro _ ⟨⟩, hop, hop⟩
  | releasePacketId packetId =>
    refine ⟨?_, trivial, h.not_hasStored (h.unwaited hop)⟩
    rintro _ ⟨⟩
    exact hop
  | send pv =>
    obtain ⟨haccounts, hkeeps⟩ := MaySend.accounts h hop
    exact ⟨by rintro _ ⟨⟩, haccounts, hkeeps⟩
  | recv is | restorePackets pvs | restoreQos2PublishHandledPids pids => exact absurd hop id
  | notifyClosed => exact ⟨by rintro _ ⟨⟩, trivial, fun hns => (h.unlimited.unstarted hns).1⟩
  | _ => exact ⟨by rintro _ ⟨⟩, trivial, trivial⟩

/-- A quiet step first -/
theorem Quiet.aside {c c' : Connection role pb} {t : Step role pb} (hq : Quiet c c')
    (h : Aside ver c' t) : Aside ver c t :=
  ⟨h.unlimited, Or.elim h.status (fun heq => heq ▸ hq.status) .inr, h.traffic.trans hq.idle,
    h.packets⟩

/-- The timer of the server is beside the exchanges. -/
theorem recvTimerFired_aside (h : c.Unlimited ver) : Aside ver c c.recvTimerFired := by
  unfold recvTimerFired
  split
  · exact aside_stay h rfl rfl
  · split
    · exact send_aside h rfl rfl
    · exact aside_stay h rfl rfl
  · exact aside_stay h rfl rfl

/-- A timer that fires sends a PINGREQ or a DISCONNECT, or closes the connection. -/
theorem notifyTimerFired_aside (h : c.Unlimited ver) (kind : TimerKind) :
    Aside ver c (c.notifyTimerFired kind) := by
  cases kind with
  | pingreqSend =>
    have hq : Quiet c { c with pingreqSendSet := false } := ⟨_, _, _, _, _, .inl rfl, rfl⟩
    have h₁ := h.quiet hq
    refine hq.aside ?_
    unfold notifyTimerFired
    dsimp only
    split
    · split
      · exact send_aside h₁ rfl rfl
      · exact aside_stay h₁ rfl rfl
    · split
      · exact send_aside h₁ rfl rfl
      · exact aside_stay h₁ rfl rfl
    · exact aside_stay h₁ rfl rfl
  | pingreqRecv =>
    have hq : Quiet c { c with pingreqRecvSet := false } := ⟨_, _, _, _, _, .inl rfl, rfl⟩
    exact hq.aside (recvTimerFired_aside (h.quiet hq))
  | pingrespRecv =>
    have hq : Quiet c { c with pingrespRecvSet := false } := ⟨_, _, _, _, _, .inl rfl, rfl⟩
    exact hq.aside (recvTimerFired_aside (h.quiet hq))

/-- The turn of a packet that may be sent -/
theorem send_turn (h : Sound ver s) (hmay : MaySend ver s pv) :
    Calm ver s.conn (s.conn.send pv) ∧
      CallTurn s.conn (s.conn.offers (.send pv)) (s.conn.send pv).traffic := by
  by_cases hpublish : pv.type = .publish
  -- QoS 1 and 2 offer the message, and the identifier is held by the application
  · by_cases hqos : isQos12 pv.view.opts
    · obtain ⟨hstores, hready⟩ := hmay.stores h hpublish hqos
      have hown : pv.ownPacketId := by rw [PacketVariant.ownPacketId, hpublish]
      have hun := (hmay.unwaited h hown).resolve_right fun hzero => hzero.2.2 hqos
      exact publish_turn h.unlimited hmay.plain hmay.built hpublish hqos hstores hready (h.free hun)
    · have hoffers : s.conn.offers (.send pv) = [] := if_neg fun hall => hqos hall.2.1
      exact hoffers ▸ publish0_turn h.unlimited hmay.plain hpublish hqos
  · have hoffers : s.conn.offers (.send pv) = [] := if_neg fun hall => hpublish hall.1
    rw [hoffers]
    refine Aside.callTurn ?_
    obtain ⟨hack, hrec, hrel, hcomp⟩ := hmay.exchange
    have hnot := hmay.handshake
    -- no other packet that may be sent belongs to an exchange
    by_cases hsub : pv.type = .subscribe ∨ pv.type = .unsubscribe
    · exact subscribe_aside h.unlimited hsub
    · refine send_aside h.unlimited ?_ ?_
      all_goals
        cases pv <;> first
          | rfl
          | exact absurd rfl hpublish
          | exact absurd rfl hack
          | exact absurd rfl hrec
          | exact absurd rfl hrel
          | exact absurd rfl hcomp
          | exact absurd rfl hnot
          | exact absurd (.inl rfl) hsub
          | exact absurd (.inr rfl) hsub

/-- What the calls of the application come to, apart from those that begin a connection. -/
theorem call_turn (h : Sound ver s) {op : Op pb} (hop : Permits ver s op) :
    Sound ver (s.next op) ∧ Calm ver s.conn (s.conn.call op) ∧
      CallTurn s.conn (s.conn.offers op) (s.conn.call op).traffic := by
  have hturn : Calm ver s.conn (s.conn.call op) ∧
      CallTurn s.conn (s.conn.offers op) (s.conn.call op).traffic := by
    -- the calls that do not reach the line
    have hlocal : op.isLocal → (s.conn.call op).conn.Unlimited ver →
        (s.conn.call op).conn.store = s.conn.store →
        (s.conn.call op).conn.qos2PublishHandled = s.conn.qos2PublishHandled →
        Aside ver s.conn (s.conn.call op) := by
      intro hl hu hstore hhandled
      obtain ⟨hline, hsends⟩ := call_line_local hl s.conn
      have hstatus : (s.conn.call op).conn.status = s.conn.status := congrArg Line.status hline
      exact aside_of_state hu (.inl hstatus) hstore hhandled hsends
        (receives_call (by rintro is rfl; cases hl) s.conn)
    have hu := h.unlimited
    -- receiving and restoring are no calls of the application here
    cases op with
    | send pv => exact send_turn h hop
    | notifyTimerFired kind => exact (notifyTimerFired_aside hu kind).callTurn
    | notifyClosed => exact (notifyClosed_aside hu).callTurn
    | recv is | restorePackets pvs | restoreQos2PublishHandledPids pids => exact absurd hop id
    | setAutoPubResponse val =>
      exact (hlocal rfl { hu with autoPubResponse := hop } rfl rfl).callTurn
    | releasePacketId packetId =>
      refine (hlocal rfl ?_ ?_ ?_).callTurn
      all_goals
        rw [call, releasePacketId_conn]
      exact { hu with }
    | setPingreqSendInterval duration =>
      refine (hlocal rfl ?_ ?_ ?_).callTurn
      all_goals
        rw [call, setPingreqSendInterval]
        split
      · exact { hu with }
      · exact { hu with }
      all_goals rfl
    | _ => exact (hlocal rfl { hu with } rfl rfl).callTurn
  obtain ⟨hgives, haccounts, hkeeps⟩ := hop.accounts h
  exact ⟨⟨hturn.1.unlimited, Owned.next_accounted h.accounted hgives haccounts,
    next_ackable h.ackable hkeeps⟩, hturn⟩

end

end Connection

end AsyncMqtt
