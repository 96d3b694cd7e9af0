import AsyncMqtt.Spec.Line
import AsyncMqtt.Spec.PacketIdAccounting
import AsyncMqtt.Spec.SendAtomic

/-!
# No packet that is sent is lost

A packet that is given to `send` should be passed to the owner, be kept in the store, or be
answered with an error. A PUBLISH is not: without a connection and with `offline_publish_`
a PUBLISH that is not stored simply ends there, and its packet identifier, if it has one,
goes on to wait for an acknowledgement that cannot come.

## Key results

- `Connection.send_not_lost_iff`: when `send` loses nothing
- `Connection.publish_lost`: a PUBLISH that is lost
-/

namespace AsyncMqtt

namespace Connection

variable {role : Role} {pb : PacketIdBytes}

/-- The copy of a PUBLISH that is put into the store. -/
def storedCopy (c : Connection role pb) : PacketVariant pb → Option (StorePacketVariant pb)
  | .v311Publish p => StorePacketVariant.ofPacket? (.v311Publish p.setDup)
  | .v5Publish p =>
    (c.storedPublishV5 p).bind fun sp => StorePacketVariant.ofPacket? (.v5Publish sp.setDup)
  | _ => none

/-- The packet is passed to `on_send`; v5.0 may have changed the topic of a PUBLISH to an
    alias. -/
def Emits (c : Connection role pb) (pv : PacketVariant pb) : Prop :=
  c.aliased pv ∈ sends (c.send pv).events

/-- A copy of the packet is in the store afterwards. -/
def LeavesCopy (c : Connection role pb) (pv : PacketVariant pb) : Prop :=
  ∃ e ∈ (c.send pv).conn.store.elems, c.storedCopy pv = some e

/-- An error is reported. -/
def Reports (c : Connection role pb) (pv : PacketVariant pb) : Prop :=
  ∃ ec, Event.error ec ∈ (c.send pv).events

/-- The packet is emitted, stored or answered with an error, and an identifier that begins
    to wait is the one of a packet that is emitted or stored. -/
structure NotLost (c : Connection role pb) (pv : PacketVariant pb) : Prop where
  outcome : c.Emits pv ∨ c.LeavesCopy pv ∨ c.Reports pv
  waits : ∀ k, ∀ packetId ∈ (c.send pv).conn.waiting k, packetId ∈ c.waiting k ∨
    packetId = pv.packetId ∧ (c.Emits pv ∨ c.LeavesCopy pv)

/-! ### The condition -/

/-- The PUBLISH is stored, or a copy of it is there already. -/
def KeepsCopy (c : Connection role pb) (pv : PacketVariant pb) : Prop :=
  ∃ e, c.storedCopy pv = some e ∧ (e ∈ c.store.elems ∨
    c.storesPublish ∧ ¬ c.store.Waits e.responsePacketType e.packetId)

/-- A PUBLISH with QoS 0 for which there is no connection, and which is not refused. -/
def dropsPlain (c : Connection role pb) (pv : PacketVariant pb) : Bool :=
  ! isQos12 pv.view.opts && c.status ≠ .connected && c.offlinePublish &&
    match pv with
    | .v5Publish p => ! (getTopicAlias p.props).isSome && ! c.aliasRejected p
    | _ => true

/-- The constructor of the copy that is to be stored throws. -/
def copyThrows (c : Connection role pb) : PacketVariant pb → Bool
  | .v5Publish p =>
    ! (c.status ≠ .connected && (getTopicAlias p.props).isSome) && isQos12 p.opts &&
      c.pidMan.isUsedId p.packetId && c.storesPublish &&
      match c.storedTopic p with
      | none => false
      | some topic => (storePacket p topic).toOption.isNone
  | _ => false

/-- Nothing is lost: the packet is no PUBLISH, or it is refused. If it enters the session, then
    the connection is up and no later check stops it, or a copy is stored, or it is stopped and
    its identifier was waiting before. Else it has to be one that is sent or refused. -/
def NotLostWhen (c : Connection role pb) (pv : PacketVariant pb) : Prop :=
  pv.type = .publish → c.passesChecks pv →
    if c.publishEnters pv then
      c.status = .connected ∧ ¬ c.publishFailsLate pv ∨ c.KeepsCopy pv ∨
        c.publishFailsLate pv ∧ pv.packetId ∈ c.waiting (publishAck pv.view.opts)
    else ¬ c.dropsPlain pv ∧ ¬ c.copyThrows pv

/-! ### What a PUBLISH that does not enter the session does -/

theorem failRelease_reports (c : Connection role pb) (ec : ErrorCode) (packetId : Nat) :
    Event.error ec ∈ (Sent.failRelease c ec packetId).step.events := by
  unfold Sent.failRelease
  split <;> exact List.mem_cons_self

theorem failRelease_waiting (c : Connection role pb) (ec : ErrorCode) (packetId : Nat) :
    (Sent.failRelease c ec packetId).step.conn.waiting = c.waiting := by
  obtain ⟨m, hm, -⟩ := failRelease_conn c ec packetId
  rw [hm]
  rfl

/-- What the `need_store_` branch does if it stores nothing. -/
theorem storePublishV5_events {c : Connection role pb} {p : V5.PublishPacket pb}
    (h : c.storedPublishV5 p = none) {r : Sent role pb} (hr : c.storePublishV5 p = .error r) :
    match c.storedTopic p with
    | none => ∃ ec, Event.error ec ∈ r.step.events
    | some topic =>
      if (storePacket p topic).toOption.isNone then ∃ e, r.step.events = [.threw e]
      else ∃ ec, Event.error ec ∈ r.step.events := by
  unfold storedPublishV5 at h
  unfold storePublishV5 at hr
  unfold storedTopic
  -- the topic is that of the alias, or the packet's own
  by_cases htopic : p.topic = []
  · rw [if_pos htopic] at h hr ⊢
    rcases hval : c.validateTopicAlias (getTopicAlias p.props) with ⟨topic, c'⟩
    rw [hval] at h hr
    cases topic with
    | none =>
      obtain rfl := Except.error.inj hr
      exact ⟨_, failRelease_reports _ _ _⟩
    | some topic =>
      dsimp only at h hr ⊢
      cases hsp : storePacket p topic with
      | error e =>
        rw [hsp] at hr
        obtain rfl := Except.error.inj hr
        exact ⟨e, rfl⟩
      | ok sp =>
        rw [hsp] at h hr
        dsimp only at h hr
        have hsize : ¬ c'.validateMaximumPacketSize sp.size := by
          intro hsize
          rw [if_pos hsize] at hr
          exact nomatch hr
        rw [if_neg hsize] at hr
        obtain rfl := Except.error.inj hr
        exact ⟨_, failRelease_reports _ _ _⟩
  · rw [if_neg htopic] at h hr ⊢
    dsimp only
    cases hsp : storePacket p p.topic with
    | error e =>
      rw [hsp] at hr
      obtain rfl := Except.error.inj hr
      exact ⟨e, rfl⟩
    | ok sp =>
      rw [hsp] at h
      exact nomatch h

/-- A PUBLISH with QoS 1 or 2 that does not enter the session is answered with an error, unless
    the copy for the store cannot be constructed. -/
theorem stopped_events {c : Connection role pb} {pv : PacketVariant pb} (h : pv.type = .publish)
    (henters : ¬ c.publishEnters pv) (hqos : isQos12 pv.view.opts) :
    if c.copyThrows pv then ∃ e, (c.processSendActual pv).step.events = [.threw e]
    else ∃ ec, Event.error ec ∈ (c.processSendActual pv).step.events := by
  cases pv with
  | v311Publish p =>
    have hused : ¬ c.pidMan.isUsedId p.packetId := fun hused =>
      henters (Bool.and_eq_true_iff.mpr ⟨hqos, hused⟩)
    have hqos : isQos12 p.opts := hqos
    rw [if_neg (show ¬ c.copyThrows (.v311Publish p) from Bool.false_ne_true), processSendActual,
      sendPublishV311, if_pos hqos, if_neg hused]
    exact ⟨MqttError.packetIdentifierInvalid, List.mem_singleton.mpr rfl⟩
  | v5Publish p =>
    have hqos : isQos12 p.opts := hqos
    rw [processSendActual, sendPublishV5]
    -- a packet with an alias is refused while the connection is down
    by_cases halias : c.status ≠ .connected ∧ (getTopicAlias p.props).isSome
    · have hthrows : c.copyThrows (.v5Publish p) = false := by
        simp [copyThrows, halias.1, halias.2]
      rw [hthrows, if_neg Bool.false_ne_true, if_pos halias]
      exact ⟨_, failRelease_reports _ _ _⟩
    have hfirst : ! (c.status ≠ .connected && (getTopicAlias p.props).isSome) := by
      by_contra hcon
      simp only [Bool.not_eq_true', Bool.not_eq_false, Bool.and_eq_true, decide_eq_true_eq] at hcon
      exact halias hcon
    rw [if_neg halias, if_pos hqos]
    -- the identifier has to be in use
    by_cases hused : c.pidMan.isUsedId p.packetId
    case neg =>
      have hthrows : c.copyThrows (.v5Publish p) = false := by
        simp only [copyThrows, hused, Bool.and_false, Bool.false_and]
      rw [hthrows, if_neg Bool.false_ne_true, if_neg hused]
      exact ⟨_, List.mem_singleton.mpr rfl⟩
    have hstore : (! c.storesPublish || (c.storedPublishV5 p).isSome) = false := by
      simpa only [publishEnters, hfirst, hqos, hused, Bool.and_true, Bool.true_and,
        Bool.not_eq_true] using henters
    obtain ⟨hstores, hnone⟩ := Bool.or_eq_false_iff.mp hstore
    have hstores : c.storesPublish = true := by simpa using hstores
    -- what is left is a copy that cannot be made
    have hnone := Option.isNone_iff_eq_none.mp (Option.isSome_eq_false_iff.mp hnone)
    obtain ⟨r, hr, -⟩ := storePublishV5_none hnone
    have hevents := storePublishV5_events hnone hr
    rw [if_pos hused, if_pos hstores, hr]
    simp only [copyThrows, hfirst, hqos, hused, hstores, Bool.true_and]
    split at hevents
    · exact hevents
    · exact hevents
  | _ => cases h

theorem finishPublish_events (c : Connection role pb) (pv : PacketVariant pb)
    (release : Option Nat) :
    (c.status ≠ .connected ∧ c.offlinePublish → (c.finishPublish pv release).step.events = []) ∧
    (¬ (c.status ≠ .connected ∧ c.offlinePublish) →
      (∃ ec, Event.error ec ∈ (c.finishPublish pv release).step.events) ∨
        sends (c.finishPublish pv release).step.events ≠ []) := by
  unfold finishPublish
  by_cases hstatus : c.status ≠ .connected
  · rw [if_pos hstatus]
    cases c.offlinePublish with
    | true => exact ⟨fun _ => rfl, fun h => absurd ⟨hstatus, rfl⟩ h⟩
    | false => exact ⟨fun h => absurd h.2 Bool.false_ne_true, fun _ => .inl ⟨_, failRelease_reports _ _ _⟩⟩
  · rw [if_neg hstatus]
    exact ⟨fun h => absurd h.1 hstatus, fun _ => .inr (List.cons_ne_nil _ _)⟩

/-- A PUBLISH with QoS 0 is emitted or answered with an error, or nothing happens. -/
theorem plain_events {c : Connection role pb} {pv : PacketVariant pb} (h : pv.type = .publish)
    (hqos : ¬ isQos12 pv.view.opts) :
    (c.dropsPlain pv → (c.processSendActual pv).step.events = []) ∧
    (¬ c.dropsPlain pv → (∃ ec, Event.error ec ∈ (c.processSendActual pv).step.events) ∨
      sends (c.processSendActual pv).step.events ≠ []) := by
  cases pv with
  | v311Publish p =>
    have hqos : ¬ isQos12 p.opts := hqos
    have hdrops : c.dropsPlain (.v311Publish p) = true ↔ c.status ≠ .connected ∧ c.offlinePublish := by
      simp [dropsPlain, PacketVariant.view, hqos]
    rw [hdrops, processSendActual, sendPublishV311, if_neg hqos]
    exact c.finishPublish_events _ _
  | v5Publish p =>
    have hqos : ¬ isQos12 p.opts := hqos
    have hdrops : c.dropsPlain (.v5Publish p) = true ↔ c.status ≠ .connected ∧ c.offlinePublish ∧
        (getTopicAlias p.props).isSome = false ∧ c.aliasRejected p = false := by
      simp [dropsPlain, PacketVariant.view, hqos, and_assoc]
    rw [hdrops, processSendActual, sendPublishV5]
    -- with an alias the packet is refused while down, or the alias is checked
    by_cases halias : c.status ≠ .connected ∧ (getTopicAlias p.props).isSome
    · rw [if_pos halias]
      exact ⟨fun h => absurd halias.2 (Bool.eq_false_iff.mp h.2.2.1),
        fun _ => .inl ⟨_, failRelease_reports _ _ _⟩⟩
    rw [if_neg halias, if_neg hqos, sendTopicAlias_eq]
    by_cases hrej : c.aliasRejected p = true
    · rw [if_pos hrej]
      exact ⟨fun h => absurd hrej (Bool.eq_false_iff.mp h.2.2.2),
        fun _ => .inl ⟨_, failRelease_reports _ _ _⟩⟩
    · have hqos' : ¬ isQos12 (c.aliasApplied p).2.opts := by
        rw [(c.aliasApplied_opts p).1]
        exact hqos
      have hnone : c.status ≠ .connected → (getTopicAlias p.props).isSome = false :=
        fun hstatus => Bool.eq_false_iff.mpr fun hsome => halias ⟨hstatus, hsome⟩
      obtain ⟨hdropped, hdone⟩ := finishPublish_events
        ({ c with topicAliasSend := (c.aliasApplied p).1 } : Connection role pb)
        (.v5Publish (c.aliasApplied p).2) none
      rw [if_neg hrej, sendReceiveMaximum, if_neg hqos']
      refine ⟨fun h => hdropped ⟨h.1, h.2.1⟩, fun h => hdone fun hnot => h ?_⟩
      exact ⟨hnot.1, hnot.2, hnone hnot.1, Bool.eq_false_iff.mpr hrej⟩
  | _ => cases h

/-! ### What goes out, what is stored and what waits -/

section

variable {c : Connection role pb} {pv : PacketVariant pb}

/-- A PUBLISH that goes out is the one that is meant. -/
theorem emits_of_sends (htype : pv.type = .publish) (h : sends (c.send pv).events ≠ []) :
    c.Emits pv := by
  rcases (send_line_publish (c := c) htype).2 with hnil | ⟨-, -, hsends⟩
  · exact absurd hnil h
  · rw [Emits, hsends]
    exact List.mem_singleton.mpr rfl

theorem not_emits_of_sends (h : sends (c.send pv).events = []) : ¬ c.Emits pv := by
  rw [Emits, h]
  exact List.not_mem_nil

theorem send_publish_sends (htype : pv.type = .publish) (hpass : c.passesChecks pv) :
    sends (c.send pv).events = sends (c.processSendActual pv).step.events ∧
      ∀ ec, Event.error ec ∈ (c.send pv).events ↔
        Event.error ec ∈ (c.processSendActual pv).step.events := by
  obtain ⟨hallowed, hsize⟩ := Bool.and_eq_true_iff.mp hpass
  have hne : pv.type ≠ .connack := by
    rw [htype]
    exact nofun
  have hreset : ∀ (c : Connection role pb) ec, Event.error ec ∉ c.resetPingreqSend.events := by
    intro c ec
    unfold resetPingreqSend
    split
    · split <;> simp
    · exact List.not_mem_nil
  rw [send_of_allowed hallowed hsize, if_neg hne]
  split
  · refine ⟨?_, fun ec => ?_⟩
    · rw [Step.events_andThen, sends_append, sends_resetPingreqSend, List.append_nil]
    · rw [Step.events_andThen, List.mem_append, or_iff_left (hreset _ ec)]
  · exact ⟨rfl, fun _ => Iff.rfl⟩

/-- The copy is in the store after the PUBLISH has entered the session. -/
theorem mem_storeEntered {e : StorePacketVariant pb} (h : c.storedCopy pv = some e) :
    e ∈ (c.storeEntered pv).elems ↔
      e ∈ c.store.elems ∨ c.storesPublish ∧ ¬ c.store.Waits e.responsePacketType e.packetId := by
  have hadd : ∀ p, StorePacketVariant.ofPacket? p = some e → (e ∈ (c.store.add p).elems ↔
      e ∈ c.store.elems ∨ ¬ c.store.Waits e.responsePacketType e.packetId) := by
    intro p hp
    rw [Store.add, hp]
    dsimp only
    rw [Store.mem_emplaceBack]
    simp
  cases pv with
  | v311Publish p =>
    by_cases hstores : c.storesPublish = true
    · rw [storeEntered, if_pos hstores, hadd _ h]
      simp [hstores]
    · rw [storeEntered, if_neg hstores]
      simp [hstores]
  | v5Publish p =>
    obtain ⟨sp, hsp, hcopy⟩ := Option.bind_eq_some_iff.mp h
    by_cases hstores : c.storesPublish = true
    · simp only [storeEntered, if_pos hstores, hsp]
      rw [hadd _ hcopy]
      simp [hstores]
    · rw [storeEntered, if_neg hstores]
      simp [hstores]
  | _ => cases h

theorem leavesCopy_iff (h : (c.send pv).conn.store = c.storeEntered pv) :
    c.LeavesCopy pv ↔ c.KeepsCopy pv := by
  unfold LeavesCopy KeepsCopy
  rw [h]
  constructor
  · rintro ⟨e, he, hcopy⟩
    exact ⟨e, hcopy, (mem_storeEntered hcopy).mp he⟩
  · rintro ⟨e, hcopy, he⟩
    exact ⟨e, (mem_storeEntered hcopy).mpr he, hcopy⟩

/-- A packet that is no PUBLISH is passed to the owner if it passes the checks. -/
theorem emits_of_passes (htype : pv.type ≠ .publish) (hpass : c.passesChecks pv) : c.Emits pv := by
  have haliased : c.aliased pv = pv := by
    cases pv with
    | v5Publish p => exact absurd rfl htype
    | _ => rfl
  rw [Emits, haliased, (send_line htype hpass).2]
  exact List.mem_cons_self

/-- A packet that is refused reports an error and lets nothing wait. -/
theorem send_of_refused (hpass : ¬ c.passesChecks pv) :
    c.Reports pv ∧ (c.send pv).conn.waiting = c.waiting := by
  by_cases hallowed : c.sendAllowed pv
  · have hsize : ¬ c.validateMaximumPacketSize pv.size := fun hsize =>
      hpass (Bool.and_eq_true_iff.mpr ⟨hallowed, hsize⟩)
    rw [Reports, send_of_too_large hallowed hsize]
    exact ⟨⟨_, failRelease_reports _ _ _⟩, failRelease_waiting _ _ _⟩
  · rw [Reports, send_of_not_allowed hallowed]
    exact ⟨⟨_, List.mem_singleton.mpr rfl⟩, rfl⟩

/-- A packet that is no PUBLISH lets nothing wait but its own identifier. -/
theorem waiting_send (htype : pv.type ≠ .publish) {k : AckKind} {packetId : Nat}
    (h : packetId ∈ (c.send pv).conn.waiting k) :
    packetId ∈ c.waiting k ∨ packetId = pv.packetId := by
  cases send_cases pv c with
  | quiet hq => exact .inl (hq.1.waiting ▸ h)
  | tooLarge _ _ _ _ hconn =>
    rw [hconn] at h
    exact .inl h
  | connect _ _ _ clean hc₁ hconn =>
    left
    rw [hconn.waiting, hc₁] at h
    cases clean with
    | true => cases k <;> exact absurd h (OrdSet.notMem_empty _)
    | false =>
      cases k with
      | suback | unsuback => exact absurd h (OrdSet.notMem_empty _)
      | _ => exact h
  | connack _ _ _ _ hc₁ hconn =>
    rw [hconn.waiting, sendStored_conn, hc₁] at h
    exact .inl h
  | pubrecRefused _ _ hconn => exact .inl (hconn.waiting ▸ h)
  | pubrel _ _ _ _ _ hconn | subscribe _ _ hconn | unsubscribe _ _ hconn =>
    rw [hconn.waiting] at h
    cases k <;> first | exact .inl h | exact (OrdSet.mem_insert.mp h).symm
  | publish _ htype' => exact absurd htype' htype

/-- A PUBLISH that has entered the session waits for its acknowledgement. -/
theorem send_entered (htype : pv.type = .publish) (hpass : c.passesChecks pv)
    (henters : c.publishEnters pv) :
    (c.send pv).conn.store = c.storeEntered pv ∧
      ∀ k, (c.send pv).conn.waiting k = if k = publishAck pv.view.opts then
        (c.waiting k).insert pv.packetId else c.waiting k := by
  obtain ⟨hallowed, hsize⟩ := Bool.and_eq_true_iff.mp hpass
  obtain ⟨hquiet, -⟩ := send_of_actual hallowed hsize (by rw [htype]; exact nofun)
  have hwaiting := hquiet.waiting
  obtain ⟨_, _, _, _, _, -, hconn⟩ := hquiet
  have hentered : (c.processSendActual pv).step.conn.store = c.storeEntered pv ∧
      (c.processSendActual pv).step.conn.waiting = (c.publishEntered pv).waiting := by
    cases processSendActual_publish htype c with
    | stopped hnot => exact absurd henters hnot
    | plain hqos => exact absurd (publishEnters_qos henters).2 hqos
    | failed _ ec hc₁ hr =>
      obtain ⟨m, hm, -⟩ := failRelease_conn _ ec pv.packetId
      rw [hr, hm, hc₁, publishEntered_eq]
      exact ⟨rfl, rfl⟩
    | entered _ _ _ _ _ _ _ hconn =>
      rw [hconn, publishEntered_eq]
      exact ⟨rfl, rfl⟩
  refine ⟨?_, fun k => ?_⟩
  · rw [hconn]
    exact hentered.1
  · rw [hwaiting, hentered.2]
    exact waiting_publishEntered pv k

/-- A PUBLISH that does not enter the session lets nothing wait. -/
theorem waiting_send_stopped (htype : pv.type = .publish) (hpass : c.passesChecks pv)
    (henters : ¬ c.publishEnters pv) : (c.send pv).conn.waiting = c.waiting := by
  obtain ⟨hallowed, hsize⟩ := Bool.and_eq_true_iff.mp hpass
  rw [(send_of_actual hallowed hsize (by rw [htype]; exact nofun)).1.waiting]
  cases processSendActual_publish htype c with
  | stopped _ h =>
    obtain ⟨tas, m, hconn, -⟩ := h.conn
    rw [hconn]
    rfl
  | plain _ _ _ _ _ _ hconn =>
    rw [hconn]
    rfl
  | failed hlate => exact absurd (publishFailsLate_enters hlate) henters
  | entered h => exact absurd h henters

/-- What a PUBLISH that has entered the session puts out. -/
theorem entered_events (htype : pv.type = .publish) (hpass : c.passesChecks pv)
    (henters : c.publishEnters pv) :
    (c.Emits pv ↔ c.status = .connected ∧ ¬ c.publishFailsLate pv) ∧
      (c.Reports pv ↔ c.publishFailsLate pv) := by
  obtain ⟨hsends, herrors⟩ := send_publish_sends htype hpass
  have hreports : c.Reports pv ↔ ∃ ec, Event.error ec ∈ (c.processSendActual pv).step.events :=
    exists_congr herrors
  rw [hreports]
  -- the outcome decides between sent and reported
  cases processSendActual_publish htype c with
  | stopped hnot => exact absurd henters hnot
  | plain hqos => exact absurd (publishEnters_qos henters).2 hqos
  | @failed hlate ec c₁ hc₁ hr =>
    rw [hr, (failRelease_line _ _ _).2] at hsends
    rw [hr]
    exact ⟨iff_of_false (not_emits_of_sends hsends) fun h => h.2 hlate,
      iff_of_true ⟨ec, failRelease_reports _ _ _⟩ hlate⟩
  | entered _ hlate pv' _ _ _ _ _ hevents =>
    rw [hevents] at hsends ⊢
    -- a connected one is sent, and one that is down stays in the store
    by_cases hstatus : c.status = .connected
    · rw [if_pos hstatus] at hsends ⊢
      refine ⟨iff_of_true (emits_of_sends htype ?_) ⟨hstatus, hlate⟩, iff_of_false ?_ hlate⟩
      · rw [hsends]
        exact List.cons_ne_nil _ _
      · rintro ⟨ec, he⟩
        exact nomatch List.mem_singleton.mp he
    · rw [if_neg hstatus] at hsends ⊢
      exact ⟨iff_of_false (not_emits_of_sends hsends) fun h => hstatus h.1,
        iff_of_false (fun ⟨_, he⟩ => nomatch he) hlate⟩

theorem ofPacket_eq_none {p : StorePacket pb} (h : p.response? = none) :
    StorePacketVariant.ofPacket? p = none := by
  unfold StorePacketVariant.ofPacket?
  split
  · next hres => exact nomatch h.symm.trans hres
  · rfl

theorem not_isQos12 {v : UInt8} (h : ¬ isQos12 v) :
    (Pub.getQos v).toNat ≠ 1 ∧ (Pub.getQos v).toNat ≠ 2 := by
  rwa [isQos12_iff_toNat, not_or] at h

/-- A PUBLISH with another QoS has no copy that could be stored. -/
theorem storedCopy_eq_none (hqos : ¬ isQos12 pv.view.opts) : c.storedCopy pv = none := by
  cases pv with
  | v311Publish p =>
    have hdup : Pub.getQos p.setDup.opts = Pub.getQos p.opts := getQos_setDup p.fixedHeader
    obtain ⟨h1, h2⟩ := not_isQos12 (v := p.opts) hqos
    refine ofPacket_eq_none ?_
    simp only [StorePacket.response?, hdup]
  | v5Publish p =>
    refine Option.bind_eq_none_iff.mpr fun sp hsp => ofPacket_eq_none ?_
    obtain ⟨topic, -, hsp⟩ := storePacket_of_storedPublishV5 hsp
    have hdup : Pub.getQos sp.setDup.opts = Pub.getQos p.opts :=
      (getQos_setDup sp.fixedHeader).trans (storePacket_qos hsp)
    obtain ⟨h1, h2⟩ := not_isQos12 (v := p.opts) hqos
    simp only [StorePacket.response?, hdup]
  | _ => rfl

/-- If the constructor throws, there is no copy. -/
theorem storedCopy_of_throws (h : c.copyThrows pv) : c.storedCopy pv = none := by
  cases pv with
  | v5Publish p =>
    refine Option.bind_eq_none_iff.mpr fun sp hsp => ?_
    obtain ⟨topic, htopic, hsp⟩ := storePacket_of_storedPublishV5 hsp
    simp [copyThrows, htopic, hsp, Except.toOption] at h
  | _ => exact nomatch h

/-- What a PUBLISH that does not enter the session puts out. -/
theorem stopped_outcome (htype : pv.type = .publish) (hpass : c.passesChecks pv)
    (henters : ¬ c.publishEnters pv) :
    (c.Emits pv ∨ c.LeavesCopy pv ∨ c.Reports pv) ↔ ¬ c.dropsPlain pv ∧ ¬ c.copyThrows pv := by
  obtain ⟨hsends, herrors⟩ := send_publish_sends htype hpass
  have hreports : c.Reports pv ↔ ∃ ec, Event.error ec ∈ (c.processSendActual pv).step.events :=
    exists_congr herrors
  have hleaves : c.storedCopy pv = none → ¬ c.LeavesCopy pv := by
    rintro hnone ⟨e, -, he⟩
    cases hnone.symm.trans he
  -- QoS 1 and 2 are reported, unless the copy throws
  by_cases hqos : isQos12 pv.view.opts = true
  · have hplain : ¬ c.dropsPlain pv := by
      simp [dropsPlain, hqos]
    have hevents := stopped_events htype henters hqos
    split at hevents
    · next hthrows =>
      refine iff_of_false ?_ fun h => h.2 hthrows
      obtain ⟨e, hevents⟩ := hevents
      rw [hevents] at hsends
      rw [hreports, hevents]
      rintro (h | h | ⟨ec, h⟩)
      · exact not_emits_of_sends hsends h
      · exact hleaves (storedCopy_of_throws hthrows) h
      · cases List.mem_singleton.mp h
    · next hthrows => exact iff_of_true (.inr (.inr (hreports.mpr hevents))) ⟨hplain, hthrows⟩
  -- QoS 0 has no copy, and is dropped or sent
  · have hthrows : ¬ c.copyThrows pv := by
      cases pv with
      | v5Publish p =>
        have hqos : isQos12 p.opts = false := Bool.eq_false_iff.mpr hqos
        simp [copyThrows, hqos]
      | _ => exact Bool.false_ne_true
    obtain ⟨hdropped, hdone⟩ := plain_events (c := c) htype hqos
    by_cases hdrops : c.dropsPlain pv = true
    · refine iff_of_false ?_ fun h => h.1 hdrops
      rw [hdropped hdrops] at hsends
      rw [hreports, hdropped hdrops]
      rintro (h | h | ⟨ec, h⟩)
      · exact not_emits_of_sends hsends h
      · exact hleaves (storedCopy_eq_none hqos) h
      · cases h
    · refine iff_of_true ?_ ⟨hdrops, hthrows⟩
      rcases hdone hdrops with herror | hsent
      · exact .inr (.inr (hreports.mpr herror))
      · exact .inl (emits_of_sends htype (hsends ▸ hsent))

/-! ### The equivalence -/

/-- `send` loses nothing exactly under this condition. -/
theorem send_not_lost_iff (c : Connection role pb) (pv : PacketVariant pb) :
    c.NotLost pv ↔ c.NotLostWhen pv := by
  unfold NotLostWhen
  -- the cases are those of the condition, and only the last one depends on the state
  by_cases hpass : c.passesChecks pv = true
  case neg =>
    obtain ⟨hreports, hwaiting⟩ := send_of_refused hpass
    exact iff_of_true ⟨.inr (.inr hreports), fun k packetId hk => .inl (hwaiting ▸ hk)⟩
      fun _ h => absurd h hpass
  by_cases htype : pv.type = .publish
  case neg =>
    have hemits := emits_of_passes htype hpass
    exact iff_of_true ⟨.inl hemits, fun k packetId hk =>
      (waiting_send htype hk).imp_right fun hid => ⟨hid, .inl hemits⟩⟩ fun h => absurd h htype
  by_cases henters : c.publishEnters pv = true
  case neg =>
    rw [if_neg henters]
    have hwaiting := waiting_send_stopped htype hpass henters
    have houtcome := stopped_outcome htype hpass henters
    exact ⟨fun h _ _ => houtcome.mp h.outcome, fun h =>
      ⟨houtcome.mpr (h htype hpass), fun k packetId hk => .inl (hwaiting ▸ hk)⟩⟩
  obtain ⟨hstore, hwaiting⟩ := send_entered htype hpass henters
  obtain ⟨hemits, hreports⟩ := entered_events htype hpass henters
  have hcopy := leavesCopy_iff hstore
  rw [if_pos henters]
  constructor
  · intro h _ _
    have hmem : pv.packetId ∈ (c.send pv).conn.waiting (publishAck pv.view.opts) := by
      rw [hwaiting, if_pos rfl]
      exact OrdSet.mem_insert.mpr (.inl rfl)
    rcases h.outcome with hout | hout | hout
    · exact .inl (hemits.mp hout)
    · exact .inr (.inl (hcopy.mp hout))
    · rcases h.waits _ _ hmem with hold | ⟨-, hout | hout⟩
      · exact .inr (.inr ⟨hreports.mp hout, hold⟩)
      · exact .inl (hemits.mp hout)
      · exact .inr (.inl (hcopy.mp hout))
  · intro h
    -- only the identifier of the PUBLISH may wait now and not before
    have hnew : ∀ k, ∀ packetId ∈ (c.send pv).conn.waiting k, packetId ∈ c.waiting k ∨
        k = publishAck pv.view.opts ∧ packetId = pv.packetId := by
      intro k packetId hk
      rw [hwaiting] at hk
      split at hk
      · next heq => exact (OrdSet.mem_insert.mp hk).symm.imp_right fun hid => ⟨heq, hid⟩
      · exact .inl hk
    rcases h htype hpass with hsent | hkept | ⟨hlate, hold⟩
    · have hout := hemits.mpr hsent
      exact ⟨.inl hout, fun k packetId hk => (hnew k packetId hk).imp_right fun hid =>
        ⟨hid.2, .inl hout⟩⟩
    · have hout := hcopy.mpr hkept
      exact ⟨.inr (.inl hout), fun k packetId hk => (hnew k packetId hk).imp_right fun hid =>
        ⟨hid.2, .inr hout⟩⟩
    -- the identifier waited before, so that nothing new waits
    · refine ⟨.inr (.inr (hreports.mpr hlate)), fun k packetId hk => .inl ?_⟩
      rcases hnew k packetId hk with hk | ⟨rfl, rfl⟩
      · exact hk
      · exact hold

end

/-- Without a connection and with `offline_publish_` a PUBLISH is accepted and gone, with QoS 1
    and with QoS 0. The identifier of the one with QoS 1 waits for a PUBACK. -/
theorem publish_lost :
    let c := (make .client .two .v311).run [.setOfflinePublish true, .acquireUniquePacketId]
    ∃ p₀ p₁, V311.publishPacket .two 0 [0x61] [] 0x00 = .ok p₀ ∧
      V311.publishPacket .two 1 [0x61] [] 0x02 = .ok p₁ ∧
      ¬ c.NotLost (.v311Publish p₀) ∧ ¬ c.NotLost (.v311Publish p₁) ∧
      1 ∈ (c.send (.v311Publish p₁)).conn.pidPuback := by
  intro c
  refine ⟨_, _, rfl, rfl, fun h => ?_, fun h => ?_, by decide⟩
  all_goals
    rcases h.outcome with hemits | ⟨e, he, -⟩ | ⟨ec, hec⟩
    · exact nomatch hemits
    · exact nomatch he
    · exact nomatch hec

end Connection

end AsyncMqtt
