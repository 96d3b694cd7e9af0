import AsyncMqtt.ForStd.Latch
import AsyncMqtt.Native.InflightMessages
import AsyncMqtt.Spec.Qos2Delivery
import AsyncMqtt.Spec.RecvSignals
import AsyncMqtt.Spec.RoundTripV5
import AsyncMqtt.Spec.SendAtomic
import AsyncMqtt.Spec.SessionResume

/-!
# The exchanges with QoS 2

`is_publish_processing` should tell whether the exchange of a PUBLISH with QoS 2 is open. An
observer who sees the packets can tell it too: the exchange is opened by the PUBLISH, which
is sent, kept for later or restored, and it is over when a PUBCOMP or an error has come, or
when the session has ended.

The set behind `is_publish_processing` follows the observer in most steps. It does not when
a CONNECT continues a session, when a session is given up without a CONNECT, when packets
are restored, and when a PUBLISH is refused late.

## Key results

- `Connection.follows_iff`: the steps in which the set follows the observer
- `ExchangeLog.truthful_iff`: the set is right in all states of a run exactly if all steps
  of the run are among them
-/

namespace AsyncMqtt

/-- What an observer of a connection sees of the exchanges with QoS 2. -/
inductive ExchangeNote where
  | opened (packetId : Nat)
  | ended (packetId : Nat)
  | discarded
  deriving DecidableEq, Repr

/-- An exchange is open from its PUBLISH until it is ended or the session is discarded. -/
def exchangeLatch (packetId : Nat) : Latch ExchangeNote where
  sets note := note = .opened packetId
  resets note := note = .ended packetId || note = .discarded

/-- The exchange was opened, and neither was it ended nor was the session discarded since. -/
def OpenExchange (packetId : Nat) (notes : List ExchangeNote) : Prop :=
  ∃ before after, notes = before ++ .opened packetId :: after ∧
    .ended packetId ∉ after ∧ .discarded ∉ after

/-- An exchange is open if the last note about it has opened it. -/
theorem openExchange_iff {packetId : Nat} {notes : List ExchangeNote} :
    OpenExchange packetId notes ↔ (exchangeLatch packetId).readAll false notes = true := by
  rw [Latch.readAll_iff_not_reset]
  constructor
  · rintro ⟨before, after, rfl, hended, hdiscarded⟩
    refine ⟨before, _, after, rfl, decide_eq_true rfl, fun note hnote hresets => ?_⟩
    simp only [exchangeLatch, Bool.or_eq_true, decide_eq_true_eq] at hresets
    rcases hresets with rfl | rfl
    · exact hended hnote
    · exact hdiscarded hnote
  · rintro ⟨before, note, after, rfl, hnote, hafter⟩
    obtain rfl := of_decide_eq_true hnote
    refine ⟨before, after, rfl, fun hended => ?_, fun hdiscarded => ?_⟩
    · exact hafter _ hended (by simp [exchangeLatch])
    · exact hafter _ hdiscarded (by simp [exchangeLatch])

/-- Exchanges that are opened -/
theorem readAll_opened (packetId : Nat) (ids : List Nat) (b : Bool) :
    (exchangeLatch packetId).readAll b (ids.map .opened) = (b || decide (packetId ∈ ids)) := by
  induction ids generalizing b with
  | nil => simp
  | cons id ids ih =>
    rw [List.map_cons, Latch.readAll_cons, ih]
    by_cases hid : id = packetId
    · simp [Latch.read, exchangeLatch, hid]
    · have hne : packetId ≠ id := fun h => hid h.symm
      simp [Latch.read, exchangeLatch, hid, hne]

/-- A PUBCOMP, or a PUBREC with an error -/
def PacketVariant.endsExchange {pb : PacketIdBytes} (pv : PacketVariant pb) : Bool :=
  pv.type = .pubcomp || pv.type = .pubrec && reasonCodeFailed pv.view.code

/-- What an event says of the exchanges. -/
def Event.exchangeNote {pb : PacketIdBytes} : Event pb → Option ExchangeNote
  | .send pv _ => if pv.isQos2Publish then some (.opened pv.packetId) else none
  | .receive pv => if pv.endsExchange then some (.ended pv.packetId) else none
  | _ => none

/-- The packet identifiers of the PUBLISH packets with QoS 2 -/
def openedIds {pb : PacketIdBytes} (pvs : List (PacketVariant pb)) : List Nat :=
  (pvs.filter (·.isQos2Publish)).map (·.packetId)

/-- The exchanges opened by a longer list of packets -/
theorem openedIds_append {pb : PacketIdBytes} (pvs pvs' : List (PacketVariant pb)) :
    openedIds (pvs ++ pvs') = openedIds pvs ++ openedIds pvs' := by
  rw [openedIds, List.filter_append, List.map_append]
  rfl

/-- An exchange is opened by a PUBLISH with QoS 2. -/
theorem mem_openedIds {pb : PacketIdBytes} {pvs : List (PacketVariant pb)} {packetId : Nat} :
    packetId ∈ openedIds pvs ↔ ∃ pv ∈ pvs, pv.isQos2Publish ∧ pv.packetId = packetId := by
  simp [openedIds, and_assoc]

/-- Only the events of exchanges are noted. -/
theorem exchangeNotes_exchanges {pb : PacketIdBytes} (es : List (Event pb)) :
    (exchanges es).filterMap Event.exchangeNote = es.filterMap Event.exchangeNote := by
  induction es with
  | nil => rfl
  | cons e es ih =>
    rw [exchanges_cons]
    by_cases he : e.isExchange = true
    · rw [if_pos he, List.filterMap_cons, List.filterMap_cons, ih]
    · have hnone : e.exchangeNote = none := by
        cases e with
        | send pv release =>
          refine if_neg fun hopens => he ?_
          simp only [PacketVariant.isQos2Publish, Bool.and_eq_true, decide_eq_true_eq] at hopens
          simp [Event.isExchange, hopens.1]
        | receive pv =>
          refine if_neg fun hends => he ?_
          simp only [PacketVariant.endsExchange, Bool.or_eq_true, Bool.and_eq_true,
            decide_eq_true_eq] at hends
          rcases hends with htype | ⟨htype, -⟩ <;> simp [Event.isExchange, htype]
        | _ => rfl
      rw [if_neg he, List.filterMap_cons, hnone, ih]

/-- If nothing is received that ends an exchange, only the packets that are sent are noted. -/
theorem exchangeNotes_sends {pb : PacketIdBytes} {es : List (Event pb)}
    (h : ∀ pv ∈ receives es, pv.endsExchange = false) :
    es.filterMap Event.exchangeNote = (openedIds (sends es)).map .opened := by
  induction es with
  | nil => rfl
  | cons e es ih =>
    have hcons : ∀ fs : List (Event pb), sends (e :: fs) = sends [e] ++ sends fs ∧
        receives (e :: fs) = receives [e] ++ receives fs :=
      fun fs => ⟨sends_append [e] fs, receives_append [e] fs⟩
    rw [(hcons es).2] at h
    have hes := ih fun pv hpv => h pv (List.mem_append_right _ hpv)
    rw [List.filterMap_cons, hes, (hcons es).1, openedIds_append, List.map_append]
    cases e with
    | send pv release =>
      cases hopens : pv.isQos2Publish <;> simp [Event.exchangeNote, sends, hopens, openedIds]
    | receive pv =>
      have hends := h pv (List.mem_append_left _ (by simp [receives]))
      simp [Event.exchangeNote, hends, sends, openedIds]
    | _ => rfl

/-- A PUBLISH opens an exchange if its QoS is 2. -/
theorem PacketVariant.isQos2Publish_iff {pb : PacketIdBytes} {pv : PacketVariant pb}
    (htype : pv.type = .publish) :
    pv.isQos2Publish ↔ (Pub.getQos pv.view.opts).toNat = 2 := by
  rw [isQos2Publish, htype]
  constructor
  · intro h
    have hqos : Pub.getQos pv.view.opts = Qos.exactlyOnce := by simpa using h
    rw [hqos]
    rfl
  · intro h
    have hqos : Pub.getQos pv.view.opts = Qos.exactlyOnce := UInt8.toNat_inj.mp h
    simpa using hqos

/-- A packet waits for a PUBREC in the store exactly if it is a PUBLISH with QoS 2. -/
theorem StorePacket.isQos2Publish_iff {pb : PacketIdBytes} (p : StorePacket pb) :
    p.toPacketVariant.isQos2Publish ↔
      p.response? = some .v311Pubrec ∨ p.response? = some .v5Pubrec := by
  cases p with
  | v311Publish p =>
    rw [PacketVariant.isQos2Publish_iff rfl]
    show (Pub.getQos p.opts).toNat = 2 ↔ _
    unfold response?
    dsimp only
    split
    · next hqos => simp [hqos]
    · next hqos => simp [hqos]
    · next hqos => simpa using hqos
  | v5Publish p =>
    rw [PacketVariant.isQos2Publish_iff rfl]
    show (Pub.getQos p.opts).toNat = 2 ↔ _
    unfold response?
    dsimp only
    split
    · next hqos => simp [hqos]
    · next hqos => simp [hqos]
    · next hqos => simpa using hqos
  | v311Pubrel p | v5Pubrel p =>
    simp [PacketVariant.isQos2Publish, PacketVariant.type, toPacketVariant, response?]

/-- After a PUBLISH with QoS 2 was put into the store there is one with its identifier. -/
theorem Store.mem_add_publish {pb : PacketIdBytes} {s : Store pb} {p : StorePacket pb}
    (h : p.toPacketVariant.isQos2Publish) :
    ∃ e ∈ (s.add p).elems, e.packet.toPacketVariant.isQos2Publish ∧ e.packetId = p.packetId := by
  have hres := p.isQos2Publish_iff.mp h
  obtain ⟨res, hsome⟩ : ∃ res, p.response? = some res := by
    rcases hres with hres | hres <;> exact ⟨_, hres⟩
  have hof : StorePacketVariant.ofPacket? p = some ⟨p, res, hsome⟩ := by
    unfold StorePacketVariant.ofPacket?
    split
    · next hr =>
      cases hr.symm.trans hsome
      rfl
    · next hr => cases hr.symm.trans hsome
  rw [Store.add, hof]
  by_cases hwaits : s.Waits res p.packetId
  · -- its place is taken by another PUBLISH
    obtain ⟨e, he, heres, hid⟩ := hwaits
    refine ⟨e, mem_emplaceBack.mpr (.inl he), ?_, hid⟩
    rw [e.packet.isQos2Publish_iff, e.isResponse]
    rw [hsome] at hres
    rwa [show e.res = res from heres]
  · exact ⟨_, mem_emplaceBack.mpr (.inr ⟨rfl, hwaits⟩), h, rfl⟩

namespace Connection

variable {role : Role} {pb : PacketIdBytes} {c c' : Connection role pb} {s : Step role pb}

/-- A PUBLISH with QoS 2 is in the store. -/
def holdsPublish (c : Connection role pb) (packetId : Nat) : Bool :=
  c.store.elems.any fun e =>
    e.packet.toPacketVariant.isQos2Publish && e.packetId = packetId

/-- `send` succeeds with a PUBLISH with QoS 2, and a copy of it is in the store. -/
def keepsPublish (c : Connection role pb) (pv : PacketVariant pb) : Bool :=
  pv.isQos2Publish && (c.processSendPacket pv).ok && (c.send pv).conn.holdsPublish pv.packetId

/-- What the observer sees of a call. -/
def exchangeNotes (c : Connection role pb) (op : Op pb) : List ExchangeNote :=
  (if c.endsSession op then [.discarded] else []) ++
    ((c.call op).events.filterMap Event.exchangeNote ++
      match op with
      | .send pv => if c.keepsPublish pv then [.opened pv.packetId] else []
      | .restorePackets pvs => (openedIds (pvs.map (·.packet.toPacketVariant))).map .opened
      | _ => [])

/-- The set goes the way of the observer in a step. -/
def Follows (c : Connection role pb) (op : Op pb) : Prop :=
  ∀ packetId, (c.next op).isPublishProcessing packetId =
    (exchangeLatch packetId).readAll (c.isPublishProcessing packetId) (c.exchangeNotes op)

/-- The identifiers of the exchanges that are opened again when the stored packets are sent -/
def resentIds (c : Connection role pb) (limit : Nat) : List Nat := openedIds (c.storedFit limit)

/-- The set is that of the exchanges after the stored packets were sent. `ends` says that the
    session is discarded before. -/
def ResendsMarked (c : Connection role pb) (ends : Bool) (limit : Nat) : Prop :=
  ∀ packetId, c.isPublishProcessing packetId =
    (! ends && c.isPublishProcessing packetId || decide (packetId ∈ c.resentIds limit))

/-- No exchange is marked as open. -/
def NoneMarked (c : Connection role pb) : Prop := ∀ packetId, c.isPublishProcessing packetId = false

/-- A PUBLISH that enters the session goes out, or it is in the store. -/
def publishGoesOn (c : Connection role pb) (pv : PacketVariant pb) : Bool :=
  ! c.publishFailsLate pv &&
    (c.status = .connected || c.storesPublish || c.holdsPublish pv.packetId)

/-- A call that keeps the set and the exchanges together. A CONNECT that continues the session
    finds no exchange marked, and so does a CONNACK that discards it; the exchanges of stored
    and restored PUBLISH packets are marked before these are sent; and a PUBLISH that enters
    the session is sent or stored. -/
def Tracks (c : Connection role pb) : Op pb → Prop
  | .send pv => c.passesChecks pv →
    (pv.type = .connect → pv.view.cleanStart ∨ c.NoneMarked) ∧
    (pv.type = .connack →
      c.ResendsMarked (c.endsSession (.send pv)) c.maximumPacketSizeSend) ∧
    (pv.isQos2Publish → c.publishEnters pv →
      c.publishGoesOn pv ∨ c.isPublishProcessing pv.packetId)
  | .recv is =>
    (∀ pv, c.received is = some pv →
      (pv.type = .connect → c.status = .disconnected → pv.view.cleanStart ∨ c.NoneMarked) ∧
      (c.acceptsConnack pv → if pv.view.sessionPresent then
        c.ResendsMarked false (pv.maximumPacketSize c.maximumPacketSizeSend) else c.NoneMarked)) ∧
    (∀ value, c.refusedConnect is = some value →
      ({ c with status := .connecting } : Connection role pb).passesChecks (c.refusal value) →
      c.ResendsMarked false c.maximumPacketSizeSend)
  | .restorePackets pvs => ∀ e ∈ pvs, e.packet.toPacketVariant.isQos2Publish →
      c.isPublishProcessing e.packetId
  | _ => True

/-- A step in which the session may be discarded, and then exchanges are opened. -/
theorem follows_iff_of_opened {op : Op pb} {ids : List Nat}
    (h : c.exchangeNotes op =
      (if c.endsSession op then [.discarded] else []) ++ ids.map .opened) :
    c.Follows op ↔ ∀ packetId, (c.next op).isPublishProcessing packetId =
      (! c.endsSession op && c.isPublishProcessing packetId || decide (packetId ∈ ids)) := by
  refine forall_congr' fun packetId => ?_
  rw [h, Latch.readAll_append, readAll_opened]
  cases c.endsSession op with
  | true => simp [Latch.readAll, Latch.read, exchangeLatch]
  | false => simp

/-- A quiet step leaves what is marked. -/
theorem Quiet.isPublishProcessing (h : Quiet c c') (packetId : Nat) :
    c'.isPublishProcessing packetId = c.isPublishProcessing packetId := by
  obtain ⟨_, _, _, _, _, -, rfl⟩ := h
  rfl

/-! ### Sending -/

/-- What a sent packet says about the exchanges -/
theorem exchangeNotes_send (pv : PacketVariant pb) :
    c.exchangeNotes (.send pv) = (if c.endsSession (.send pv) then [.discarded] else []) ++
      (openedIds (sends (c.send pv).events) ++
        if c.keepsPublish pv then [pv.packetId] else []).map .opened := by
  have hnone : ∀ pv' ∈ receives (c.send pv).events, pv'.endsExchange = false := by
    intro pv' hpv'
    rw [receives_send] at hpv'
    exact nomatch hpv'
  rw [exchangeNotes, call, exchangeNotes_sends hnone, List.map_append]
  cases c.keepsPublish pv <;> rfl

/-- A packet that opens no exchange is not kept as one that does. -/
theorem keepsPublish_of_not_opens {pv : PacketVariant pb} (h : pv.isQos2Publish = false) :
    c.keepsPublish pv = false := by
  rw [keepsPublish, h]
  rfl

/-- `process_send_packet` fails with a packet that does not pass the checks. -/
theorem processSendPacket_refused {pv : PacketVariant pb} (h : ¬ c.passesChecks pv) :
    (c.processSendPacket pv).ok = false := by
  unfold processSendPacket
  by_cases hallowed : c.sendAllowed pv = true
  · have hsize : ¬ c.validateMaximumPacketSize pv.size := by
      intro hsize
      exact h (by rw [passesChecks, hallowed, hsize]; rfl)
    rw [if_pos hallowed, if_neg hsize]
    exact failRelease_ok c _ _
  · rw [if_neg hallowed]
    rfl

/-- A packet that passes the checks is processed. -/
theorem processSendPacket_passes {pv : PacketVariant pb} (h : c.passesChecks pv) :
    c.processSendPacket pv = c.processSendActual pv := by
  obtain ⟨hallowed, hsize⟩ := Bool.and_eq_true_iff.mp h
  rw [processSendPacket, if_pos hallowed, if_pos hsize]

/-- A packet that does not pass the checks leaves the set as it is. -/
theorem send_refused_processing {pv : PacketVariant pb} (h : ¬ c.passesChecks pv)
    (packetId : Nat) :
    (c.send pv).conn.isPublishProcessing packetId = c.isPublishProcessing packetId := by
  obtain ⟨released, hsend⟩ := send_refused h
  obtain ⟨m, hconn, -⟩ := failRelease_conn c MqttError.packetNotAllowedToSend released
  rw [hsend, hconn]
  rfl

/-- A packet other than a CONNECT or a PUBLISH leaves the set as it is. -/
theorem send_processing {pv : PacketVariant pb} (hconnect : pv.type ≠ .connect)
    (hpublish : pv.type ≠ .publish) (packetId : Nat) :
    (c.send pv).conn.isPublishProcessing packetId = c.isPublishProcessing packetId := by
  cases c.send_cases pv with
  | quiet h => exact h.1.isPublishProcessing packetId
  | tooLarge _ _ _ _ hconn => rw [hconn]; rfl
  | connect _ htype => exact absurd htype hconnect
  | connack _ _ _ _ hc₁ hconn =>
    rw [hconn.isPublishProcessing, sendStored_conn, hc₁]
    rfl
  | pubrecRefused _ _ hconn | pubrel _ _ _ _ _ hconn | subscribe _ _ hconn
  | unsubscribe _ _ hconn => exact hconn.isPublishProcessing packetId
  | publish _ htype => exact absurd htype hpublish

/-- A CONNECT that is sent clears the set. -/
theorem send_connect_processing {pv : PacketVariant pb} (htype : pv.type = .connect)
    (h : c.passesChecks pv) (packetId : Nat) :
    (c.send pv).conn.isPublishProcessing packetId = false := by
  obtain ⟨hallowed, hsize⟩ := Bool.and_eq_true_iff.mp h
  have hne : pv.type ≠ .connack := by
    rw [htype]
    rintro ⟨⟩
  rw [(send_of_actual hallowed hsize hne).1.isPublishProcessing]
  cases pv with
  | v311Connect p =>
    obtain ⟨ns, int, hconn⟩ := c.sendConnectV311_eq p
    simp only [processSendActual, Sent.send, hconn]
    exact decide_eq_false (OrdSet.notMem_empty packetId)
  | v5Connect p =>
    obtain ⟨tar, prm, mps, ns, int, hconn⟩ := c.sendConnectV5_eq p
    simp only [processSendActual, Sent.send, hconn]
    exact decide_eq_false (OrdSet.notMem_empty packetId)
  | _ => cases htype

/-- What `send` does with a PUBLISH that passes the checks, apart from the timers. -/
theorem send_publish {pv : PacketVariant pb} (htype : pv.type = .publish)
    (h : c.passesChecks pv) :
    ∃ r, PublishOutcome c pv r ∧ c.processSendPacket pv = r ∧
      Quiet r.step.conn (c.send pv).conn ∧ sends (c.send pv).events = sends r.step.events := by
  obtain ⟨hallowed, hsize⟩ := Bool.and_eq_true_iff.mp h
  have hne : pv.type ≠ .connack := by
    rw [htype]
    exact nofun
  refine ⟨_, processSendActual_publish htype c, processSendPacket_passes h,
    (send_of_actual hallowed hsize hne).1, ?_⟩
  rw [send_of_allowed hallowed hsize, if_neg hne]
  split
  · rw [Step.events_andThen, sends_append, sends_resetPingreqSend, List.append_nil]
  · rfl

/-- A PUBLISH that is entered is marked, if its QoS is 2. -/
theorem publishEntered_processing {pv : PacketVariant pb} (htype : pv.type = .publish)
    (packetId : Nat) :
    (c.publishEntered pv).isPublishProcessing packetId =
      (c.isPublishProcessing packetId ||
        decide (pv.isQos2Publish ∧ packetId = pv.packetId)) := by
  have hopens : pv.isQos2Publish ↔ Pub.getQos pv.view.opts = Qos.exactlyOnce := by
    simp [PacketVariant.isQos2Publish, htype]
  rw [publishEntered_eq]
  unfold isPublishProcessing
  dsimp only
  split
  · next hqos => simp [hopens.mpr hqos, or_comm]
  · next hqos =>
    have hnot : pv.isQos2Publish = false := Bool.eq_false_iff.mpr fun h => hqos (hopens.mp h)
    simp [hnot]

/-- A PUBLISH that has entered the session is in the store if it was stored, or if it was there
    before. -/
theorem holdsPublish_storeEntered {pv : PacketVariant pb} (h : c.publishEnters pv)
    (hopens : pv.isQos2Publish) {c₁ : Connection role pb} (hstore : c₁.store = c.storeEntered pv) :
    c₁.holdsPublish pv.packetId = (c.storesPublish || c.holdsPublish pv.packetId) := by
  unfold holdsPublish
  rw [hstore]
  -- the PUBLISH is looked for in the store, if it was put there
  cases hstores : c.storesPublish with
  | false =>
    have hsame : c.storeEntered pv = c.store :=
      (storeEntered_eq_iff h).mpr (.inl (by rw [hstores]; rintro ⟨⟩))
    rw [hsame, Bool.false_or]
  | true =>
    rw [Bool.true_or, List.any_eq_true]
    cases pv with
    | v311Publish p =>
      have hqos := (PacketVariant.isQos2Publish_iff rfl).mp hopens
      obtain ⟨e, he, heopens, hid⟩ := @Store.mem_add_publish pb c.store (.v311Publish p.setDup) <| by
        rw [PacketVariant.isQos2Publish_iff rfl]
        exact (congrArg UInt8.toNat (getQos_setDup p.fixedHeader)).trans hqos
      refine ⟨e, ?_, Bool.and_eq_true_iff.mpr ⟨heopens, decide_eq_true hid⟩⟩
      rwa [storeEntered, if_pos hstores]
    -- a v5 PUBLISH is stored with its topic, under the same identifier
    | v5Publish p =>
      simp only [publishEnters, Bool.and_eq_true, Bool.or_eq_true] at h
      obtain ⟨sp, hsp⟩ := Option.isSome_iff_exists.mp (h.2.resolve_left (by simp [hstores]))
      obtain ⟨hid', hopts⟩ := storedPublishV5_eq hsp h.1.1.2
      have hqos := (PacketVariant.isQos2Publish_iff rfl).mp hopens
      obtain ⟨e, he, heopens, hid⟩ := @Store.mem_add_publish pb c.store (.v5Publish sp.setDup) <| by
        rw [PacketVariant.isQos2Publish_iff rfl]
        exact (congrArg UInt8.toNat ((getQos_setDup sp.fixedHeader).trans hopts)).trans hqos
      refine ⟨e, ?_, Bool.and_eq_true_iff.mpr ⟨heopens, decide_eq_true (hid.trans hid')⟩⟩
      simpa only [storeEntered, if_pos hstores, hsp] using he
    | _ => cases h

/-- A packet that is refused ends no session. -/
theorem endsSession_of_refused {pv : PacketVariant pb} (h : ¬ c.passesChecks pv) :
    c.endsSession (.send pv) = false := by
  rw [endsSession, Bool.eq_false_iff.mpr h]
  rfl

/-- The case of a packet that does not pass the checks. -/
theorem follows_send_refused {pv : PacketVariant pb} (h : ¬ c.passesChecks pv) :
    c.Follows (.send pv) := by
  have hkeeps : c.keepsPublish pv = false := by
    rw [keepsPublish, processSendPacket_refused h, Bool.and_false]
    rfl
  rw [follows_iff_of_opened (exchangeNotes_send pv), (send_line_refused h).2, hkeeps,
    endsSession_of_refused h]
  intro packetId
  rw [next, call, send_refused_processing h]
  simp [openedIds]

/-- Only a PUBLISH opens an exchange. -/
theorem openedIds_cons_of_not_publish {pv : PacketVariant pb} (h : pv.type ≠ .publish)
    (pvs : List (PacketVariant pb)) : openedIds (pv :: pvs) = openedIds pvs := by
  have hopens : pv.isQos2Publish = false := by simp [PacketVariant.isQos2Publish, h]
  rw [openedIds, List.filter_cons, hopens]
  rfl

/-- The case of a packet other than a PUBLISH. -/
theorem follows_send_plain {pv : PacketVariant pb} (htype : pv.type ≠ .publish)
    (h : c.passesChecks pv) :
    c.Follows (.send pv) ↔
      (pv.type = .connect → pv.view.cleanStart ∨ c.NoneMarked) ∧
      (pv.type = .connack →
        c.ResendsMarked (c.endsSession (.send pv)) c.maximumPacketSizeSend) := by
  have hopens : pv.isQos2Publish = false := by simp [PacketVariant.isQos2Publish, htype]
  have hids : openedIds (sends (c.send pv).events) =
      if pv.type = .connack then c.resentIds c.maximumPacketSizeSend else [] := by
    rw [(send_line htype h).2, openedIds_cons_of_not_publish htype]
    split <;> rfl
  rw [follows_iff_of_opened (exchangeNotes_send pv), hids, keepsPublish_of_not_opens hopens]
  simp only [Bool.false_eq_true, if_false, List.append_nil]
  -- a CONNECT ends the session or goes on with it
  by_cases hconnect : pv.type = .connect
  · have hends : c.endsSession (.send pv) = pv.view.cleanStart := by
      simp [endsSession, h, hconnect, PacketVariant.acceptsConnection]
    have hne : pv.type ≠ .connack := by
      rw [hconnect]
      rintro ⟨⟩
    rw [hends, if_neg hne]
    simp only [next, call, send_connect_processing hconnect h, hconnect, List.not_mem_nil,
      decide_false, Bool.or_false]
    constructor
    · refine fun hset => ⟨fun _ => ?_, by rintro ⟨⟩⟩
      cases hclean : pv.view.cleanStart with
      | true => exact .inl rfl
      | false =>
        refine .inr fun packetId => ?_
        simpa [hclean] using (hset packetId).symm
    · rintro ⟨hor, -⟩ packetId
      rcases hor trivial with hclean | hnone
      · rw [hclean]
        rfl
      · rw [hnone packetId, Bool.and_false]
  · simp only [next, call, send_processing hconnect htype, hconnect, false_implies, true_and]
    -- a CONNACK is followed by the store
    by_cases hconnack : pv.type = .connack
    · rw [if_pos hconnack]
      exact ⟨fun hset _ => hset, fun hset => hset hconnack⟩
    · have hends : c.endsSession (.send pv) = false := by
        simp [endsSession, hconnect, hconnack, PacketVariant.acceptsConnection]
      simp [hends, hconnack]

/-- An identifier is marked, and the exchange is opened if `goesOn`. -/
theorem marked_iff {marked : Nat → Bool} {packetId : Nat} {ids : List Nat} {opens goesOn : Bool}
    (h : ∀ id, id ∈ ids ↔ opens ∧ goesOn ∧ id = packetId) :
    (∀ id, (marked id || decide (opens ∧ id = packetId)) = (marked id || decide (id ∈ ids))) ↔
      (opens → goesOn ∨ marked packetId) := by
  constructor
  · intro hsame hopens
    have hid := hsame packetId
    simp only [h, hopens, true_and, and_true, decide_true, Bool.or_true, Bool.true_eq,
      Bool.or_eq_true, decide_eq_true_eq] at hid
    exact hid.symm
  · intro hor id
    rw [decide_eq_decide.mpr (h id)]
    by_cases hid : opens ∧ id = packetId
    · obtain ⟨hopens, rfl⟩ := hid
      rcases hor hopens with hgoes | hmarked
      · simp [hopens, hgoes]
      · simp [hmarked]
    · have hnot : ¬ (opens ∧ goesOn ∧ id = packetId) := fun h => hid ⟨h.1, h.2.2⟩
      rw [decide_eq_false hid, decide_eq_false hnot]

/-- The case of a PUBLISH. -/
theorem follows_send_publish {pv : PacketVariant pb} (htype : pv.type = .publish)
    (h : c.passesChecks pv) :
    c.Follows (.send pv) ↔ (pv.isQos2Publish → c.publishEnters pv →
      c.publishGoesOn pv ∨ c.isPublishProcessing pv.packetId) := by
  have hends : c.endsSession (.send pv) = false := by
    simp [endsSession, htype, PacketVariant.acceptsConnection]
  obtain ⟨r, hr, hprocess, hquiet, hsends⟩ := send_publish htype h
  have hsame : ∀ packetId, (c.send pv).conn.isPublishProcessing packetId =
      r.step.conn.isPublishProcessing packetId := hquiet.isPublishProcessing
  rw [follows_iff_of_opened (exchangeNotes_send pv), hends, hsends, keepsPublish, hprocess]
  simp only [next, call, hsame, Bool.not_false, Bool.true_and]
  cases hr with
  | stopped henters hstopped =>
    obtain ⟨tas, m, hconn, -, -⟩ := hstopped.conn
    refine iff_of_true (fun packetId => ?_) fun _ hno => absurd hno henters
    rw [hstopped.sends, hstopped.ok, hconn]
    simp [openedIds, isPublishProcessing]
  | plain hqos pv' _ _ hopts _ hconn hevents =>
    have hopens : ∀ {pv : PacketVariant pb}, ¬ isQos12 pv.view.opts → pv.isQos2Publish = false := by
      intro pv hqos
      simp only [isQos12, Bool.or_eq_true, decide_eq_true_eq, not_or] at hqos
      simp [PacketVariant.isQos2Publish, hqos.2]
    have hnone : openedIds (sends r.step.events) = [] := by
      rw [hevents]
      split
      · simp [sends, openedIds, hopens (hopts ▸ hqos)]
      · rfl
    rw [hnone, hopens hqos, hconn]
    simp [isPublishProcessing]
  | @failed hlate ec c₁ hc₁ hr =>
    obtain ⟨m, hconn, -⟩ := failRelease_conn c₁ ec pv.packetId
    have hentered : ∀ packetId, r.step.conn.isPublishProcessing packetId =
        (c.publishEntered pv).isPublishProcessing packetId := by
      intro packetId
      rw [hr, hconn, hc₁]
      rfl
    have hok : r.ok = false := by
      rw [hr]
      exact failRelease_ok _ _ _
    have hnone : sends r.step.events = [] := by
      rw [hr]
      exact (failRelease_line _ _ _).2
    have hids : ∀ id, id ∈ openedIds (sends r.step.events) ++ (if pv.isQos2Publish && r.ok &&
          (c.send pv).conn.holdsPublish pv.packetId then [pv.packetId] else []) ↔
        pv.isQos2Publish ∧ c.publishGoesOn pv ∧ id = pv.packetId := by
      rw [hnone, hok]
      simp [publishGoesOn, hlate, openedIds]
    simp only [hentered, publishEntered_processing htype]
    refine (marked_iff hids).trans ⟨fun h hopens _ => h hopens, fun h hopens => ?_⟩
    exact h hopens (publishFailsLate_enters hlate)
  | entered henters hlate pv' htype' hid hopts hok hconn hevents =>
    have hentered : ∀ packetId, r.step.conn.isPublishProcessing packetId =
        (c.publishEntered pv).isPublishProcessing packetId := by
      intro packetId
      rw [hconn]
      rfl
    have hopens' : pv'.isQos2Publish = pv.isQos2Publish := by
      simp [PacketVariant.isQos2Publish, htype, htype', hopts]
    have hstore : (c.send pv).conn.store = c.storeEntered pv := by
      rw [hquiet.store, hconn, publishEntered_eq]
    -- what goes out and what is in the store
    have hids : ∀ id, id ∈ openedIds (sends r.step.events) ++ (if pv.isQos2Publish && r.ok &&
          (c.send pv).conn.holdsPublish pv.packetId then [pv.packetId] else []) ↔
        pv.isQos2Publish ∧ c.publishGoesOn pv ∧ id = pv.packetId := by
      intro id
      cases hopens : pv.isQos2Publish with
      | false =>
        rw [hopens] at hopens'
        rw [hevents]
        split <;> simp [sends, openedIds, hopens']
      | true =>
        rw [hopens] at hopens'
        rw [holdsPublish_storeEntered henters hopens hstore, publishGoesOn, hok, hevents]
        by_cases hconnected : c.status = .connected
        · simp [hconnected, hlate, sends, openedIds, hopens', hid]
        · simp [hconnected, hlate, sends, openedIds]
    simp only [hentered, publishEntered_processing htype]
    exact (marked_iff hids).trans ⟨fun h hopens _ => h hopens, fun h hopens => h hopens henters⟩

/-! ### Receiving -/

/-- A step that opens and ends no exchange, and leaves the set as it is. -/
def Idles (c : Connection role pb) (s : Step role pb) : Prop :=
  (∀ packetId, s.conn.isPublishProcessing packetId = c.isPublishProcessing packetId) ∧
    s.events.filterMap Event.exchangeNote = []

/-- A quiet step says nothing about the exchanges. -/
theorem Idles.of_quiet (h : QuietStep c s) : Idles c s := by
  refine ⟨h.1.isPublishProcessing, ?_⟩
  rw [← exchangeNotes_exchanges, h.2]
  rfl

/-- An answer that is not a PUBLISH neither opens an exchange nor marks one. -/
theorem idles_send {r : PacketVariant pb} (hconnect : r.type ≠ .connect)
    (hconnack : r.type ≠ .connack) (hpublish : r.type ≠ .publish) (c : Connection role pb) :
    Idles c (c.send r) := by
  refine ⟨send_processing hconnect hpublish, ?_⟩
  have hnone : ∀ pv ∈ receives (c.send r).events, pv.endsExchange = false := by
    intro pv hpv
    rw [receives_send] at hpv
    exact nomatch hpv
  rw [exchangeNotes_sends hnone]
  by_cases hpass : c.passesChecks r
  · rw [(send_line hpublish hpass).2, if_neg hconnack, openedIds_cons_of_not_publish hpublish]
    rfl
  · rw [(send_line_refused hpass).2]
    rfl

/-- The set follows in what a packet does that is neither a CONNECT nor a CONNACK that accepts the
    connection. -/
theorem RecvOutcome.follows {pv : PacketVariant pb} (h : RecvOutcome c pv s)
    (hconnect : pv.type = .connect → c.status ≠ .disconnected)
    (hconnack : ¬ c.acceptsConnack pv) (packetId : Nat) :
    s.conn.isPublishProcessing packetId = (exchangeLatch packetId).readAll
      (c.isPublishProcessing packetId) (s.events.filterMap Event.exchangeNote) := by
  -- a step that is not about the exchanges
  have hidle : Idles c s → s.conn.isPublishProcessing packetId =
      (exchangeLatch packetId).readAll (c.isPublishProcessing packetId)
        (s.events.filterMap Event.exchangeNote) := by
    rintro ⟨hsame, hnone⟩
    rw [hsame, hnone]
    rfl
  -- the exchange of an identifier has ended
  have hended : ∀ {id : Nat}, s.conn.qos2PublishProcessing = c.qos2PublishProcessing.erase id →
      s.events.filterMap Event.exchangeNote = [.ended id] →
      s.conn.isPublishProcessing packetId = (exchangeLatch packetId).readAll
        (c.isPublishProcessing packetId) (s.events.filterMap Event.exchangeNote) := by
    intro id hset hnotes
    rw [hnotes, isPublishProcessing, isPublishProcessing, hset]
    by_cases hid : id = packetId
    · simp [Latch.readAll, Latch.read, exchangeLatch, hid]
    · have hne : packetId ≠ id := fun h => hid h.symm
      simp [Latch.readAll, Latch.read, exchangeLatch, hid, hne]
  have hnotes : ∀ {es : List (Event pb)}, exchanges s.events = es →
      s.events.filterMap Event.exchangeNote = es.filterMap Event.exchangeNote := by
    intro es hes
    rw [← exchangeNotes_exchanges, hes]
  have hsilent : ∀ {pv' : PacketVariant pb}, pv'.type = .publish ∨ pv'.type = .puback →
      [Event.receive pv'].filterMap Event.exchangeNote = [] := by
    intro pv' htype
    rcases htype with htype | htype <;>
      simp [Event.exchangeNote, PacketVariant.endsExchange, htype]
  cases h with
  | quiet h => exact hidle (.of_quiet h)
  | connect htype hstatus => exact absurd hstatus (hconnect htype)
  | connack haccepts hstatus =>
    refine absurd ?_ hconnack
    rw [acceptsConnack, haccepts, hstatus]
    rfl
  | publish htype hconn hevents =>
    refine hidle ⟨hconn.isPublishProcessing, ?_⟩
    rw [← exchangeNotes_exchanges, List.filterMap_eq_nil_iff]
    intro e he
    obtain ⟨pv', rfl, htype'⟩ := hevents e he
    simp [Event.exchangeNote, PacketVariant.endsExchange, htype']
  | publishDelivered _ _ _ hconn pv' htype' _ _ hevents =>
    exact hidle ⟨hconn.isPublishProcessing, (hnotes hevents).trans (hsilent (.inl htype'))⟩
  | publishRejected _ _ _ _ _ _ hconn hevents | pubrel _ hconn hevents =>
    exact hidle ⟨hconn.isPublishProcessing, hnotes hevents⟩
  | puback htype _ _ hconn hevents =>
    refine hidle ⟨fun _ => by rw [hconn]; rfl, ?_⟩
    exact (hnotes hevents).trans (hsilent (.inr htype))
  | @pubrecFailed p hpv hcode _ _ hconn hevents =>
    refine hended (by rw [hconn]) ((hnotes hevents).trans ?_)
    rw [hpv]
    exact congrArg Option.toList (if_pos hcode)
  | @pubrec htype hcode _ _ c₁ r hc₁ hr hconn hevents =>
    have hpubrel : (pubrelOf pv.version pb pv.packetId).type = .pubrel :=
      pubrelOf_type pv.version pv.packetId
    have hr : Idles c₁ r := by
      rw [hr]
      unfold respondIf
      split
      · apply idles_send <;> rw [hpubrel] <;> rintro ⟨⟩
      · exact ⟨fun _ => rfl, rfl⟩
    refine hidle ⟨fun id => ?_, ?_⟩
    · rw [hconn]
      exact (hr.1 id).trans (by rw [hc₁]; rfl)
    · rw [hnotes hevents, List.filterMap_append, exchangeNotes_exchanges, hr.2]
      simp [Event.exchangeNote, PacketVariant.endsExchange, htype, hcode]
  | pubcomp htype _ _ hconn hevents =>
    refine hended (by rw [hconn]) ((hnotes hevents).trans ?_)
    simp [Event.exchangeNote, PacketVariant.endsExchange, htype]
  | suback _ _ hconn hevents | unsuback _ _ hconn hevents =>
    exact hidle ⟨fun _ => by rw [hconn]; rfl, hnotes hevents⟩

/-- What received bytes say about the exchanges -/
theorem exchangeNotes_recv_eq (is : List UInt8) :
    c.exchangeNotes (.recv is) = (if c.endsSession (.recv is) then [.discarded] else []) ++
      (c.recv is).1.events.filterMap Event.exchangeNote := by
  show _ ++ ((c.recv is).1.events.filterMap Event.exchangeNote ++ []) = _
  rw [List.append_nil]

/-- The same where no exchange ends -/
theorem exchangeNotes_recv {is : List UInt8}
    (h : ∀ pv ∈ receives (c.recv is).1.events, pv.endsExchange = false) :
    c.exchangeNotes (.recv is) = (if c.endsSession (.recv is) then [.discarded] else []) ++
      (openedIds (sends (c.recv is).1.events)).map .opened := by
  rw [exchangeNotes_recv_eq, exchangeNotes_sends h]

/-- A CONNACK that accepts the connection leaves the set as it is. -/
theorem recv_connack_processing {is : List UInt8} {pv : PacketVariant pb}
    (hpv : c.received is = some pv) (haccepts : c.acceptsConnack pv) (packetId : Nat) :
    (c.recv is).1.conn.isPublishProcessing packetId = c.isPublishProcessing packetId := by
  -- only the outcome of a CONNACK is possible here
  have htype : pv.type = .connack := by
    rw [acceptsConnack, PacketVariant.acceptsConnection, Bool.and_eq_true, Bool.and_eq_true,
      decide_eq_true_eq] at haccepts
    exact haccepts.1.1
  rcases recv_cases is (c := c) rfl with hq | ⟨pv', hpv', hout⟩ | ⟨value, c₁, hrefused, -⟩
  · exact hq.1.isPublishProcessing packetId
  · obtain rfl := Option.some.inj (hpv.symm.trans hpv')
    cases hout with
    | quiet hq => exact hq.1.isPublishProcessing packetId
    | @connack _ _ _ _ _ c₁ _ hc₁ hconn =>
      have hsame : c₁.isPublishProcessing packetId = c.isPublishProcessing packetId := by
        rw [hc₁]
        rfl
      rw [hconn, resumeSession]
      split
      · rw [sendStored_conn]
        exact hsame
      · exact hsame
    | publishRejected hpv | pubrecFailed hpv =>
      rw [hpv] at htype
      cases htype
    | connect htype' | publish htype' | publishDelivered htype' | puback htype' | pubrec htype'
    | pubrel htype' | pubcomp htype' | suback htype' | unsuback htype' =>
      cases htype.symm.trans htype'
  · cases hpv.symm.trans (received_of_refused hrefused)

/-- The case of a CONNACK that accepts the connection. -/
theorem follows_recv_connack {is : List UInt8} {pv : PacketVariant pb}
    (hpv : c.received is = some pv) (haccepts : c.acceptsConnack pv) :
    c.Follows (.recv is) ↔ if pv.view.sessionPresent then
      c.ResendsMarked false (pv.maximumPacketSize c.maximumPacketSizeSend) else c.NoneMarked := by
  have htype : pv.type = .connack := by
    rw [acceptsConnack, PacketVariant.acceptsConnection, Bool.and_eq_true, Bool.and_eq_true,
      decide_eq_true_eq] at haccepts
    exact haccepts.1.1
  -- a CONNACK ends no exchange
  have hnone : ∀ pv' ∈ receives (c.recv is).1.events, pv'.endsExchange = false := by
    intro pv' hpv'
    rcases receives_of_signals (signals_of_received hpv) with hnil | ⟨-, pv₁, hone, hwhich⟩
    · rw [hnil] at hpv'
      cases hpv'
    · rw [hone] at hpv'
      obtain rfl := List.mem_singleton.mp hpv'
      rcases hwhich with rfl | ⟨hpublish, -⟩
      · simp [PacketVariant.endsExchange, htype]
      · cases htype.symm.trans hpublish
  have hends : c.endsSession (.recv is) = ! pv.view.sessionPresent := by
    rw [endsSession, hpv]
    simp [htype, haccepts]
  rw [follows_iff_of_opened (exchangeNotes_recv hnone), hends, Bool.not_not]
  simp only [next, call, recv_connack_processing hpv haccepts]
  -- the store is sent again, or the session is cleared and nothing is sent
  cases hpresent : pv.view.sessionPresent with
  | true =>
    rw [(recvConnack_resumed hpv haccepts hpresent).sent]
    exact Iff.rfl
  | false =>
    obtain ⟨c₁, es, -, -, -, hsends, -, -, hevents⟩ := recvConnack_eq hpv haccepts
    rw [hpresent] at hevents
    have hnil : sends (c.recv is).1.events = [] := by
      rw [hevents, sends_append, sends_append, hsends]
      rfl
    rw [hnil]
    simp [openedIds, NoneMarked]

/-- The case of a CONNECT. -/
theorem follows_recv_connect {is : List UInt8} {pv : PacketVariant pb}
    (hpv : c.received is = some pv) (htype : pv.type = .connect)
    (hstatus : c.status = .disconnected) :
    c.Follows (.recv is) ↔ pv.view.cleanStart ∨ c.NoneMarked := by
  have hexchanges : exchanges (c.recv is).1.events = [.receive pv] := by
    have hallowed :
        ({ c with rpb := (c.rpb.recv is).1 } : Connection role pb).recvAllowed pv := by
      rw [recvAllowed, htype]
      exact decide_eq_true hstatus
    have hone : exchanges [Event.receive pv] = [.receive pv] := by
      rw [exchanges_cons, Event.isExchange, htype]
      rfl
    rw [recv_of_received hpv, processRecvDecoded, if_pos hallowed, ← hone]
    cases pv with
    | v311Connect p | v5Connect p => exact exchanges_receive _ _
    | _ => cases htype
  have hcleared : ∀ packetId, (c.recv is).1.conn.isPublishProcessing packetId = false := by
    -- nothing is marked after a CONNECT, whatever the bytes before it were
    intro packetId
    rcases recv_cases is (c := c) rfl with hq | ⟨pv', hpv', hout⟩ | ⟨value, c₁, hrefused, -⟩
    · cases hexchanges.symm.trans hq.2
    · obtain rfl := Option.some.inj (hpv.symm.trans hpv')
      cases hout with
      | quiet hq => cases hexchanges.symm.trans hq.2
      | connect _ _ _ _ hconn =>
        rw [hconn]
        exact decide_eq_false (OrdSet.notMem_empty packetId)
      | connack haccepts => simp [PacketVariant.acceptsConnection, htype] at haccepts
      | publishRejected hpv | pubrecFailed hpv =>
        rw [hpv] at htype
        cases htype
      | publish htype' | publishDelivered htype' | puback htype' | pubrec htype' | pubrel htype'
      | pubcomp htype' | suback htype' | unsuback htype' =>
        cases htype.symm.trans htype'
    · cases hpv.symm.trans (received_of_refused hrefused)
  -- the CONNECT opens no exchange, and may end the session
  have hnotes : c.exchangeNotes (.recv is) =
      (if c.endsSession (.recv is) then [.discarded] else []) ++ ([] : List Nat).map .opened := by
    rw [exchangeNotes_recv_eq, ← exchangeNotes_exchanges, hexchanges]
    simp [Event.exchangeNote, PacketVariant.endsExchange, htype]
  have hends : c.endsSession (.recv is) = pv.view.cleanStart := by
    rw [endsSession, hpv]
    simp [htype, hstatus, acceptsConnack, PacketVariant.acceptsConnection]
  rw [follows_iff_of_opened hnotes, hends]
  simp only [next, call, hcleared, List.not_mem_nil, decide_false, Bool.or_false]
  cases pv.view.cleanStart with
  | true => simp
  | false =>
    constructor
    · exact fun hset => .inr fun packetId => (hset packetId).symm
    · exact fun hnone packetId => (hnone.resolve_left Bool.false_ne_true packetId).symm

/-- The case of a CONNECT that is refused. -/
theorem follows_recv_refused {is : List UInt8} {value : UInt8}
    (hrefused : c.refusedConnect is = some value) :
    c.Follows (.recv is) ↔
      (({ c with status := .connecting } : Connection role pb).passesChecks (c.refusal value) →
        c.ResendsMarked false c.maximumPacketSizeSend) := by
  have hnone := received_of_refused hrefused
  have htype := c.refusal_type value
  have hpublish : (c.refusal value).type ≠ .publish := by
    rw [htype]
    rintro ⟨⟩
  have hconnect : (c.refusal value).type ≠ .connect := by
    rw [htype]
    rintro ⟨⟩
  obtain ⟨c₁, hc₁⟩ : ∃ c₁ : Connection role pb,
      c₁ = { c with rpb := (c.rpb.recv is).1, status := .connecting } := ⟨_, rfl⟩
  have hrecv := recv_of_refused hrefused
  rw [← hc₁] at hrecv
  have hends : c.endsSession (.recv is) = false := by
    rw [endsSession, hnone]
  have hreceives : ∀ pv ∈ receives (c.recv is).1.events, pv.endsExchange = false := by
    intro pv hpv
    rw [receives_of_none hnone] at hpv
    cases hpv
  -- the refusal marks nothing and unmarks nothing
  have hsame : ∀ packetId, (c.recv is).1.conn.isPublishProcessing packetId =
      c.isPublishProcessing packetId := by
    intro packetId
    rw [hrecv, Step.conn_emit, send_processing hconnect hpublish, hc₁]
    rfl
  -- a refusal that is sent is followed by the store, which may open exchanges again
  have hsends : openedIds (sends (c.recv is).1.events) =
      if c₁.passesChecks (c.refusal value) then c.resentIds c.maximumPacketSizeSend else [] := by
    rw [hrecv, Step.events_emit, sends_append, openedIds_append]
    by_cases hpass : c₁.passesChecks (c.refusal value)
    · rw [(send_line hpublish hpass).2, if_pos htype, if_pos hpass,
        openedIds_cons_of_not_publish hpublish, hc₁]
      exact List.append_nil _
    · rw [(send_line_refused hpass).2, if_neg hpass]
      rfl
  rw [follows_iff_of_opened (exchangeNotes_recv hreceives), hends, hsends]
  simp only [next, call, hsame]
  have hchecks : c₁.passesChecks (c.refusal value) =
      ({ c with status := .connecting } : Connection role pb).passesChecks (c.refusal value) := by
    rw [hc₁]
    rfl
  rw [hchecks]
  split
  · next hpass => exact ⟨fun h _ => h, fun h => h hpass⟩
  · next hpass =>
    refine iff_of_true (fun packetId => ?_) fun h => absurd h hpass
    simp

/-- Bytes that are received -/
theorem follows_recv (is : List UInt8) : c.Follows (.recv is) ↔ c.Tracks (.recv is) := by
  cases hreceived : c.received is with
  | some pv =>
    -- a packet that was decoded is no malformed CONNECT
    have hnot : ∀ value, c.refusedConnect is ≠ some value := by
      intro value hrefused
      cases hreceived.symm.trans (received_of_refused hrefused)
    have htracks : c.Tracks (.recv is) ↔
        (pv.type = .connect → c.status = .disconnected → pv.view.cleanStart ∨ c.NoneMarked) ∧
        (c.acceptsConnack pv → if pv.view.sessionPresent then
          c.ResendsMarked false (pv.maximumPacketSize c.maximumPacketSizeSend)
          else c.NoneMarked) := by
      constructor
      · exact fun h => h.1 pv hreceived
      · refine fun h => ⟨fun pv' hpv' => ?_, fun value hrefused => absurd hrefused (hnot value)⟩
        obtain rfl := Option.some.inj (hreceived.symm.trans hpv')
        exact h
    rw [htracks]
    by_cases haccepts : c.acceptsConnack pv
    · have htype : pv.type ≠ .connect := by
        intro htype
        simp [acceptsConnack, PacketVariant.acceptsConnection, htype] at haccepts
      rw [follows_recv_connack hreceived haccepts]
      exact ⟨fun h => ⟨fun hconnect => absurd hconnect htype, fun _ => h⟩, fun h => h.2 haccepts⟩
    · by_cases hconnect : pv.type = .connect ∧ c.status = .disconnected
      · rw [follows_recv_connect hreceived hconnect.1 hconnect.2]
        exact ⟨fun h => ⟨fun _ _ => h, fun hyes => absurd hyes haccepts⟩,
          fun h => h.1 hconnect.1 hconnect.2⟩
      -- no other packet opens or ends a session
      · refine iff_of_true (fun packetId => ?_) ⟨fun htype hstatus => absurd ⟨htype, hstatus⟩ hconnect,
          fun hyes => absurd hyes haccepts⟩
        have hends : c.endsSession (.recv is) = false := by
          rw [endsSession, hreceived]
          simpa [haccepts] using fun htype hstatus => absurd ⟨htype, hstatus⟩ hconnect
        have hout : RecvOutcome { c with rpb := (c.rpb.recv is).1 } pv (c.recv is).1 := by
          rw [recv_of_received hreceived]
          exact processRecvDecoded_cases pv _
        rw [exchangeNotes_recv_eq, hends]
        exact hout.follows (fun htype hstatus => hconnect ⟨htype, hstatus⟩) haccepts packetId
  | none =>
    have hends : c.endsSession (.recv is) = false := by
      rw [endsSession, hreceived]
    -- nothing is received: at most a malformed CONNECT is refused
    cases hrefused : c.refusedConnect is with
    | some value =>
      rw [follows_recv_refused hrefused]
      constructor
      · refine fun h =>
          ⟨fun pv hpv => (by cases hreceived.symm.trans hpv), fun value' hvalue => ?_⟩
        obtain rfl := Option.some.inj (hrefused.symm.trans hvalue)
        exact h
      · exact fun h => h.2 value hrefused
    | none =>
      refine iff_of_true (fun packetId => ?_) ⟨fun pv hpv => (by cases hreceived.symm.trans hpv),
        fun value hvalue => (by cases hrefused.symm.trans hvalue)⟩
      rcases recv_cases is (c := c) rfl with hq | ⟨pv, hpv, -⟩ | ⟨value, c₁, hvalue, -⟩
      · obtain ⟨hsame, hnone⟩ := Idles.of_quiet hq
        rw [exchangeNotes_recv_eq, hends, hnone]
        exact hsame packetId
      · cases hreceived.symm.trans hpv
      · cases hrefused.symm.trans hvalue

/-! ### The other calls -/

/-- A call that idles and that does not end the session. -/
theorem follows_of_idles {op : Op pb} (h : Idles c (c.call op)) (hends : c.endsSession op = false)
    (hnotes : c.exchangeNotes op = (if c.endsSession op then [.discarded] else []) ++
      ((c.call op).events.filterMap Event.exchangeNote ++ [])) : c.Follows op := by
  intro packetId
  rw [hnotes, hends, h.2, next, h.1]
  rfl

/-- Nothing happens. -/
theorem idles_nothing (h : c'.qos2PublishProcessing = c.qos2PublishProcessing) :
    Idles c ⟨c', []⟩ := by
  refine ⟨fun packetId => ?_, rfl⟩
  rw [isPublishProcessing, isPublishProcessing, h]

/-- The set follows the observer in exactly the steps that track the exchanges. -/
theorem follows_iff (c : Connection role pb) (op : Op pb) : c.Follows op ↔ c.Tracks op := by
  cases op with
  | send pv =>
    by_cases hpass : c.passesChecks pv
    · by_cases htype : pv.type = .publish
      · rw [follows_send_publish htype hpass]
        refine ⟨fun h _ => ⟨fun hconnect => ?_, fun hconnack => ?_, h⟩, fun h => (h hpass).2.2⟩
        · cases htype.symm.trans hconnect
        · cases htype.symm.trans hconnack
      -- only a PUBLISH may open an exchange
      · have hopens : ¬ pv.isQos2Publish := by simp [PacketVariant.isQos2Publish, htype]
        rw [follows_send_plain htype hpass]
        exact ⟨fun h _ => ⟨h.1, h.2, fun hyes => absurd hyes hopens⟩,
          fun h => ⟨(h hpass).1, (h hpass).2.1⟩⟩
    · exact iff_of_true (follows_send_refused hpass) fun hyes => absurd hyes hpass
  | recv is => exact follows_recv is
  | restorePackets pvs =>
    obtain ⟨m, st, a, b, d, heq⟩ := c.restorePackets_eq pvs
    -- restoring packets leaves the set of QoS 2 identifiers alone
    have hsame : ∀ packetId, (c.restorePackets pvs).isPublishProcessing packetId =
        c.isPublishProcessing packetId := by
      intro packetId
      rw [heq]
      rfl
    have hids : ∀ packetId, packetId ∈ openedIds (pvs.map (·.packet.toPacketVariant)) ↔
        ∃ e ∈ pvs, e.packet.toPacketVariant.isQos2Publish ∧ e.packetId = packetId := by
      intro packetId
      rw [mem_openedIds]
      constructor
      · rintro ⟨pv, hpv, hopens, rfl⟩
        obtain ⟨e, he, rfl⟩ := List.mem_map.mp hpv
        exact ⟨e, he, hopens, e.packet.packetId_toPacketVariant.symm⟩
      · rintro ⟨e, he, hopens, rfl⟩
        exact ⟨_, List.mem_map_of_mem he, hopens, e.packet.packetId_toPacketVariant⟩
    have hnotes : c.exchangeNotes (.restorePackets pvs) =
        (if c.endsSession (.restorePackets pvs) then [.discarded] else []) ++
          (openedIds (pvs.map (·.packet.toPacketVariant))).map .opened := rfl
    rw [follows_iff_of_opened hnotes]
    constructor
    · intro h e he hopens
      have hid := h e.packetId
      rw [decide_eq_true ((hids e.packetId).mpr ⟨e, he, hopens, rfl⟩), Bool.or_true] at hid
      exact (hsame e.packetId).symm.trans hid
    · intro h packetId
      refine (hsame packetId).trans ?_
      -- an identifier is opened exactly if a PUBLISH with QoS 2 is restored with it
      by_cases hid : packetId ∈ openedIds (pvs.map (·.packet.toPacketVariant))
      · obtain ⟨e, he, hopens, rfl⟩ := (hids packetId).mp hid
        rw [h e he hopens, decide_eq_true hid, Bool.or_true]
      · rw [decide_eq_false hid]
        simp [endsSession]
  | notifyClosed =>
    refine iff_of_true ?_ trivial
    -- nothing is opened here, so that all that counts is whether the session ends
    have hnone : c.notifyClosed.events.filterMap Event.exchangeNote = [] := by
      rw [exchangeNotes_sends fun pv hpv => ?_, (notifyClosed_line c).2]
      · rfl
      · rw [receives_notifyClosed] at hpv
        cases hpv
    have hnotes : c.exchangeNotes .notifyClosed =
        (if c.endsSession .notifyClosed then [.discarded] else []) ++
          ([] : List Nat).map .opened := by
      show _ ++ (c.notifyClosed.events.filterMap Event.exchangeNote ++ []) = _
      rw [hnone]
      rfl
    rw [follows_iff_of_opened hnotes]
    intro packetId
    rw [next, call, notifyClosed_conn]
    simp only [isPublishProcessing, endsSession, Bool.not_not]
    cases c.needStore <;> simp
  | notifyTimerFired kind =>
    exact iff_of_true (follows_of_idles (.of_quiet (notifyTimerFired_quiet kind c)) rfl rfl) trivial
  | releasePacketId packetId =>
    refine iff_of_true (follows_of_idles ?_ rfl rfl) trivial
    rw [call, releasePacketId]
    split
    · exact ⟨fun _ => rfl, rfl⟩
    · exact idles_nothing rfl
  | setPingreqSendInterval duration =>
    refine iff_of_true (follows_of_idles ?_ rfl rfl) trivial
    rw [call, setPingreqSendInterval]
    split <;> exact ⟨fun _ => rfl, rfl⟩
  | _ => exact iff_of_true (follows_of_idles (idles_nothing rfl) rfl rfl) trivial

end Connection

/-! ### Runs -/

/-- A connection and what an observer has seen of it -/
structure ExchangeLog (role : Role) (pb : PacketIdBytes) where
  conn : Connection role pb
  notes : List ExchangeNote

namespace ExchangeLog

open Connection

variable {role : Role} {pb : PacketIdBytes}

/-- Before the first call -/
def start (role : Role) (pb : PacketIdBytes) (ver : ProtocolVersion) : ExchangeLog role pb :=
  ⟨.make role pb ver, []⟩

/-- The log after a call -/
def next (l : ExchangeLog role pb) (op : Op pb) : ExchangeLog role pb :=
  ⟨l.conn.next op, l.notes ++ l.conn.exchangeNotes op⟩

/-- `is_publish_processing` is true for the open exchanges. -/
def Truthful (l : ExchangeLog role pb) : Prop :=
  ∀ packetId, l.conn.isPublishProcessing packetId ↔ OpenExchange packetId l.notes

/-- In the beginning nothing is marked. -/
theorem truthful_start (ver : ProtocolVersion) : (start role pb ver).Truthful := by
  intro packetId
  rw [openExchange_iff]
  exact Iff.rfl

/-- From a state in which the set is right, a step leads to such a state exactly if it tracks
    the exchanges. -/
theorem Truthful.next_iff {l : ExchangeLog role pb} (h : l.Truthful) (op : Op pb) :
    (l.next op).Truthful ↔ l.conn.Tracks op := by
  have hmarked : ∀ packetId, l.conn.isPublishProcessing packetId =
      (exchangeLatch packetId).readAll false l.notes := by
    intro packetId
    rw [Bool.eq_iff_iff, h packetId, openExchange_iff]
  rw [← follows_iff]
  refine forall_congr' fun packetId => ?_
  rw [openExchange_iff, ← Bool.eq_iff_iff, hmarked, ← Latch.readAll_append]
  exact Iff.rfl

/-- A run is truthful exactly when each of its calls tracks the exchanges. -/
theorem run_truthful_iff (ver : ProtocolVersion) (ops : List (Op pb)) :
    Run.All next (fun l op => (l.next op).Truthful) (start role pb ver) ops ↔
      Run.All Connection.next Tracks (make role pb ver) ops := by
  refine Run.all_iff (R := fun l c => l.conn = c ∧ l.Truthful) ?_ ?_ ⟨rfl, truthful_start ver⟩
  · rintro l c op ⟨rfl, h⟩
    exact h.next_iff op
  · rintro l c op ⟨rfl, h⟩ htracks
    exact ⟨rfl, (h.next_iff op).mpr htracks⟩

/-- The reason code of a PUBREL is the one that was given. -/
theorem pubrelPacket_code {packetId : Nat} {rc : Option UInt8} {props : Properties}
    {p : V5.PubResponsePacket .two} (h : V5.pubrelPacket .two packetId rc props = .ok p) :
    p.code = rc.getD 0 := by
  simp only [V5.pubrelPacket, V5.pubResponsePacket, Except.bind_eq_ok, Except.pure_eq_ok] at h
  obtain ⟨⟨tail, n⟩, hmake, rb, -, rfl⟩ := h
  exact congrArg (·.getD 0) (V5.ReasonTail.make_reasonCode hmake)

/-- The broker does not answer the PUBREC of an open exchange with `packet_identifier_not_found`. -/
theorem Truthful.pubrelAnswer {l : ExchangeLog .server .two} (h : l.Truthful) {packetId : Nat}
    (hopen : OpenExchange packetId l.notes) {pubrelProps : Properties} {pv : PacketVariant .two}
    (hpv : InflightSession.pubrelAnswer pubrelProps packetId l.conn = .ok pv) :
    pv.view.code ≠ 0x92 := by
  have hmarked := (h packetId).mpr hopen
  unfold InflightSession.pubrelAnswer at hpv
  simp only [hmarked, if_true] at hpv
  split at hpv
  · split at hpv
    · obtain ⟨p, hp, hpv⟩ := Except.bind_eq_ok.mp hpv
      obtain rfl := Except.pure_eq_ok.mp hpv
      show p.code ≠ 0x92
      rw [pubrelPacket_code hp]
      decide
    · obtain ⟨p, hp, hpv⟩ := Except.bind_eq_ok.mp hpv
      obtain rfl := Except.pure_eq_ok.mp hpv
      show p.code ≠ 0x92
      rw [pubrelPacket_code hp]
      decide
  · obtain rfl := Except.pure_eq_ok.mp hpv
    exact show (0 : UInt8) ≠ 0x92 by decide

/-- In a run `is_publish_processing` is true for exactly the open exchanges, after every call, if
    and only if every call tracks them. The broker then never answers the PUBREC of an open
    exchange with `packet_identifier_not_found`. -/
theorem truthful_iff (ver : ProtocolVersion) (ops : List (Op pb)) :
    (Run.All next (fun l op => (l.next op).Truthful) (start role pb ver) ops ↔
      Run.All Connection.next Tracks (make role pb ver) ops) ∧
    (∀ ver (ops : List (Op .two)), Run.All Connection.next Tracks (make .server .two ver) ops →
      ∀ packetId, OpenExchange packetId (Run.final next (start .server .two ver) ops).notes →
        ∀ pubrelProps pv, InflightSession.pubrelAnswer pubrelProps packetId
          (Run.final next (start .server .two ver) ops).conn = .ok pv → pv.view.code ≠ 0x92) := by
  refine ⟨run_truthful_iff ver ops, fun ver ops htracks packetId hopen pubrelProps pv hpv => ?_⟩
  have hall := (run_truthful_iff ver ops).mpr htracks
  have htruthful : (Run.final next (start .server .two ver) ops).Truthful :=
    Run.final_invariant (fun l op hok _ => hok) (truthful_start ver) hall
  exact htruthful.pubrelAnswer hopen hpv

/-- A CONNECT without clean start, with a Session Expiry Interval -/
def sessionConnectFrame : List UInt8 :=
  [0x10, 0x13, 0, 4, 0x4d, 0x51, 0x54, 0x54, 5, 0, 0, 0, 5, 0x11, 0, 0, 1, 0, 0, 1, 0x61]

/-- The client comes back to its session while a PUBLISH with QoS 2 is not acknowledged. The
    exchange goes on, but it is not marked any more, and the PUBREC is answered with
    `packet_identifier_not_found`. -/
theorem exchange_not_marked : ∃ p : V5.PublishPacket .two,
    V5.publishPacket .two 1 [0x74] [] 0b100 [] = .ok p ∧
    let ops : List (Op .two) :=
      [.recv sessionConnectFrame, .send (.v5Connack (V5.connackOf false 0)),
        .acquireUniquePacketId, .send (.v5Publish p), .notifyClosed,
        .recv sessionConnectFrame, .send (.v5Connack (V5.connackOf true 0)),
        .recv [0x50, 2, 0, 1]]
    ¬ Run.All next (fun l op => (l.next op).Truthful) (start .server .two .v5) ops ∧
    OpenExchange 1 (Run.final next (start .server .two .v5) ops).notes ∧
    (InflightSession.pubrelAnswer [] 1 (Run.final next (start .server .two .v5) ops).conn).map
      (·.view.code) = .ok 0x92 := by
  refine ⟨_, rfl, fun h => ?_, ?_, ?_⟩
  · have hlast := (h 7 _ rfl 1).mpr (by rw [openExchange_iff]; decide +kernel)
    exact absurd hlast (by decide +kernel)
  · rw [openExchange_iff]
    decide +kernel
  · decide +kernel

end ExchangeLog

end AsyncMqtt
