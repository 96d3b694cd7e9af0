import AsyncMqtt.Spec.ConnectionEvents
import AsyncMqtt.Spec.ReceivedCorrect

/-!
# The answers of a connection

A packet that is handed over may be one that the connection answers by itself. If the answer is
refused because the peer does not accept packets of its size, `recv` reports the error and hands
the packet over as well. In all other cases it does one or the other.

## Key results

- `Connection.autoResponse`: the answer to a packet that is handed over
- `Connection.received_or_error`: a packet or errors, but not both
-/

namespace AsyncMqtt

/-- The errors that are reported, in order. -/
def errors {pb : PacketIdBytes} (es : List (Event pb)) : List ErrorCode :=
  es.filterMap fun e =>
    match e with
    | .error ec => some ec
    | _ => none

/-- No events have no errors. -/
@[simp] theorem errors_nil {pb : PacketIdBytes} : errors ([] : List (Event pb)) = [] := rfl

/-- The errors of a longer list of events -/
@[simp] theorem errors_append {pb : PacketIdBytes} (es fs : List (Event pb)) :
    errors (es ++ fs) = errors es ++ errors fs := List.filterMap_append ..

/-- An error among the events -/
theorem mem_errors {pb : PacketIdBytes} {es : List (Event pb)} {ec : ErrorCode} :
    ec ∈ errors es ↔ .error ec ∈ es := by
  rw [errors, List.mem_filterMap]
  constructor
  · rintro ⟨e, he, heq⟩
    cases e with
    | error ec' => exact Option.some.inj heq ▸ he
    | _ => exact nomatch heq
  · exact fun h => ⟨_, h, rfl⟩

/-- Without errors among the events the list is empty. -/
theorem errors_eq_nil {pb : PacketIdBytes} {es : List (Event pb)} :
    errors es = [] ↔ ∀ ec, .error ec ∉ es := by
  rw [List.eq_nil_iff_forall_not_mem]
  simp only [mem_errors]

namespace Connection

variable {role : Role} {pb : PacketIdBytes} {c : Connection role pb} {pv : PacketVariant pb}

/-- The answer to a PUBLISH that is handed over. -/
def publishAnswer (c : Connection role pb) (ver : ProtocolVersion) (opts : UInt8)
    (packetId : Nat) : Option (PacketVariant pb) :=
  match (Pub.getQos opts).toNat with
  | 1 => if c.autoPubResponse then some (pubackOf ver pb packetId) else none
  | 2 =>
    if c.autoPubResponse ∧ packetId ∉ c.qos2PublishHandled then some (pubrecOf ver pb packetId)
    else none
  | _ => none

/-- A v5.0 PUBLISH is not accepted. -/
def rejectsPublish (c : Connection role pb) (p : V5.PublishPacket pb) : Bool :=
  isQos12 p.opts && c.recvMaximumReached || (c.recvTopicAlias p).isNone

/-- The answer of the connection to a packet that it hands over. -/
def autoResponse (c : Connection role pb) (pv : PacketVariant pb) : Option (PacketVariant pb) :=
  match pv with
  | .v311Publish p => c.publishAnswer .v311 p.opts p.packetId
  | .v5Publish p => if c.rejectsPublish p then none else c.publishAnswer .v5 p.opts p.packetId
  | .v311Pubrec p =>
    if c.autoPubResponse ∧ p.packetId ∈ c.pidPubrec then some (pubrelOf .v311 pb p.packetId)
    else none
  | .v5Pubrec p =>
    if c.autoPubResponse ∧ p.packetId ∈ c.pidPubrec ∧ ¬ reasonCodeFailed p.code then
      some (pubrelOf .v5 pb p.packetId)
    else none
  | .v311Pubrel p => if c.autoPubResponse then some (pubcompOf .v311 pb p.packetId) else none
  | .v5Pubrel p => if c.autoPubResponse then some (pubcompOf .v5 pb p.packetId) else none
  | .v311Pingreq _ =>
    if canSendAsServer role && c.autoPingResponse then
      some (.v311Pingresp (TwoBytePacket.make .pingresp))
    else none
  | .v5Pingreq _ =>
    if canSendAsServer role && c.autoPingResponse then
      some (.v5Pingresp (TwoBytePacket.make .pingresp))
    else none
  | _ => none

/-! ### Steps without an error -/

/-- Setting the timer for the PINGREQ is no error. -/
@[simp] theorem errors_resetPingreqSend (c : Connection role pb) :
    errors c.resetPingreqSend.events = [] :=
  errors_eq_nil.mpr fun _ => resetPingreqSend_events

/-- Setting the timer for the PINGREQ of the client is no error. -/
@[simp] theorem errors_pingreqRecvOp (c : Connection role pb) :
    errors c.pingreqRecvOp.events = [] := by
  unfold pingreqRecvOp
  split
  · rfl
  · split <;> rfl

/-- Handing a packet over is no error. -/
@[simp] theorem errors_receive (pv : PacketVariant pb) (c : Connection role pb) :
    errors (c.receive pv).events = [] := by
  rw [receive, Step.events_emit, errors_append, errors_pingreqRecvOp]
  rfl

/-- The properties of a CONNACK are no error. -/
@[simp] theorem errors_recvConnackProps (props : Properties) (c : Connection role pb) :
    errors (recvConnackProps props c).events = [] := by
  induction props generalizing c with
  | nil => rfl
  | cons prop props ih =>
    have hone : errors (recvConnackProp prop c).events = [] := by
      unfold recvConnackProp setPingreqSendInterval
      split <;> (try split) <;> (try split) <;> rfl
    rw [recvConnackProps, Step.events_andThen, errors_append, hone, ih]
    rfl

/-- Resuming a session is no error. -/
@[simp] theorem errors_resumeSession (sessionPresent : Bool) (c : Connection role pb) :
    errors (c.resumeSession sessionPresent).events = [] := by
  unfold resumeSession
  split
  · exact errors_eq_nil.mpr (sendStored_error c)
  · rfl

/-- Cancelling timers is no error. -/
@[simp] theorem errors_cancelTimers (c : Connection role pb) :
    errors c.cancelTimers.events = [] := errors_eq_nil.mpr (cancelTimers_error c)

/-! ### Answers that are sent -/

/-- An answer that passes the checks is sent without an error. -/
theorem errors_answer {r : PacketVariant pb} (hr : r.isAnswer) (hpass : c.passesChecks r) :
    errors (c.send r).events = [] := by
  obtain ⟨hallowed, hsize⟩ := Bool.and_eq_true_iff.mp hpass
  have hpublish : r.type ≠ .publish := fun h => by simp [PacketVariant.isAnswer, h] at hr
  have hconnack : r.type ≠ .connack := fun h => by simp [PacketVariant.isAnswer, h] at hr
  rw [send_of_allowed hallowed hsize, if_pos (processSendActual_ok hpublish c).1, if_neg hconnack,
    Step.events_andThen, errors_append, errors_eq_nil.mpr (processSendActual_error hpublish c),
    errors_resetPingreqSend]
  rfl

/-- Acknowledgements can be sent by either side. -/
theorem passesChecks_ack {r : PacketVariant pb}
    (htype : r.type = .puback ∨ r.type = .pubrec ∨ r.type = .pubrel ∨ r.type = .pubcomp)
    (hstatus : c.status = .connected) (hversion : r.version = c.protocolVersion)
    (hsize : c.validateMaximumPacketSize r.size) : c.passesChecks r := by
  have hrole : (canSendAsClient role || canSendAsServer role) = true := by cases role <;> rfl
  have hversion : c.versionCheck r := decide_eq_true hversion.symm
  unfold passesChecks sendAllowed PacketVariant.isClientSendable PacketVariant.isServerSendable
  rcases htype with h | h | h | h <;> simp [h, hrole, hstatus, hversion, hsize]

/-- A PINGRESP passes the checks of a connected server. -/
theorem passesChecks_pingresp {r : PacketVariant pb} (htype : r.type = .pingresp)
    (hrole : canSendAsServer role) (hstatus : c.status = .connected)
    (hversion : r.version = c.protocolVersion) (hsize : c.validateMaximumPacketSize r.size) :
    c.passesChecks r := by
  have hversion : c.versionCheck r := decide_eq_true hversion.symm
  unfold passesChecks sendAllowed PacketVariant.isServerSendable
  simp [htype, hrole, hstatus, hversion, hsize]

/-- The acknowledgements that the connection sends by itself. -/
def IsAck (ver : ProtocolVersion) (r : PacketVariant pb) : Prop :=
  ∃ packetId, r = pubackOf ver pb packetId ∨ r = pubrecOf ver pb packetId ∨
    r = pubrelOf ver pb packetId ∨ r = pubcompOf ver pb packetId

/-- A response passes the checks of a connected endpoint. -/
theorem IsAck.passes {ver : ProtocolVersion} {r : PacketVariant pb} (h : IsAck ver r)
    (hne : ver ≠ .undetermined) (hstatus : c.status = .connected)
    (hversion : ver = c.protocolVersion) (hsize : c.validateMaximumPacketSize r.size) :
    r.isAnswer ∧ c.passesChecks r := by
  have hpass : r.type = .puback ∨ r.type = .pubrec ∨ r.type = .pubrel ∨ r.type = .pubcomp →
      r.version = ver → c.passesChecks r :=
    fun htype hver => passesChecks_ack htype hstatus (hver.trans hversion) hsize
  obtain ⟨packetId, rfl | rfl | rfl | rfl⟩ := h
  · refine ⟨pubackOf_isAnswer ver packetId, hpass (.inl (pubackOf_type ver packetId)) ?_⟩
    cases ver <;> first | rfl | exact absurd rfl hne
  · refine ⟨pubrecOf_isAnswer ver packetId, hpass (.inr (.inl (pubrecOf_type ver packetId))) ?_⟩
    cases ver <;> first | rfl | exact absurd rfl hne
  · refine ⟨pubrelOf_isAnswer ver packetId,
      hpass (.inr (.inr (.inl (pubrelOf_type ver packetId)))) ?_⟩
    cases ver <;> first | rfl | exact absurd rfl hne
  · refine ⟨pubcompOf_isAnswer ver packetId,
      hpass (.inr (.inr (.inr (pubcompOf_type ver packetId)))) ?_⟩
    cases ver <;> first | rfl | exact absurd rfl hne

/-- The answer to a PUBLISH is a response. -/
theorem publishAnswer_isAck {ver : ProtocolVersion} {opts : UInt8} {packetId : Nat}
    {r : PacketVariant pb} (h : c.publishAnswer ver opts packetId = some r) : IsAck ver r := by
  unfold publishAnswer at h
  split at h
  · split at h
    · exact ⟨packetId, .inl (Option.some.inj h).symm⟩
    · exact nomatch h
  · split at h
    · exact ⟨packetId, .inr (.inl (Option.some.inj h).symm)⟩
    · exact nomatch h
  · exact nomatch h

/-- The answer is an acknowledgement or a PINGRESP. -/
theorem autoResponse_cases {r : PacketVariant pb} (h : c.autoResponse pv = some r) :
    pv.version ≠ .undetermined ∧ (IsAck pv.version r ∨
      canSendAsServer role ∧ r.type = .pingresp ∧ r.version = pv.version) := by
  unfold autoResponse at h
  -- a PUBLISH of each version
  split at h
  · exact ⟨nofun, .inl (publishAnswer_isAck h)⟩
  · split at h
    · exact nomatch h
    · exact ⟨nofun, .inl (publishAnswer_isAck h)⟩
  -- a PUBREC of each version
  · split at h
    · exact ⟨nofun, .inl ⟨_, .inr (.inr (.inl (Option.some.inj h).symm))⟩⟩
    · exact nomatch h
  · split at h
    · exact ⟨nofun, .inl ⟨_, .inr (.inr (.inl (Option.some.inj h).symm))⟩⟩
    · exact nomatch h
  -- a PUBREL of each version
  · split at h
    · exact ⟨nofun, .inl ⟨_, .inr (.inr (.inr (Option.some.inj h).symm))⟩⟩
    · exact nomatch h
  · split at h
    · exact ⟨nofun, .inl ⟨_, .inr (.inr (.inr (Option.some.inj h).symm))⟩⟩
    · exact nomatch h
  -- a PINGREQ of each version
  · split at h
    · next hserver =>
      obtain rfl := Option.some.inj h
      exact ⟨nofun, .inr ⟨(Bool.and_eq_true_iff.mp hserver).1, rfl, rfl⟩⟩
    · exact nomatch h
  · split at h
    · next hserver =>
      obtain rfl := Option.some.inj h
      exact ⟨nofun, .inr ⟨(Bool.and_eq_true_iff.mp hserver).1, rfl, rfl⟩⟩
    · exact nomatch h
  · exact nomatch h

/-- An answer that the peer accepts is sent. -/
theorem autoResponse_passes {r : PacketVariant pb} (h : c.autoResponse pv = some r)
    (hstatus : c.status = .connected) (hversion : pv.version = c.protocolVersion)
    (hsize : c.validateMaximumPacketSize r.size) : r.isAnswer ∧ c.passesChecks r := by
  obtain ⟨hne, hack | ⟨hserver, htype, hver⟩⟩ := autoResponse_cases h
  · exact hack.passes hne hstatus hversion hsize
  · refine ⟨by simp [PacketVariant.isAnswer, htype], ?_⟩
    exact passesChecks_pingresp htype hserver hstatus (hver.trans hversion) hsize

/-- An answer that passes the checks is no error. -/
theorem errors_respondIf {cond : Bool} {r : PacketVariant pb} {c' : Connection role pb}
    (hsame : c'.passesChecks r = c.passesChecks r)
    (hpass : cond → r.isAnswer ∧ c.passesChecks r) : errors (c'.respondIf cond r).events = [] := by
  unfold respondIf
  split
  · next h => exact errors_answer (hpass h.1).1 (hsame ▸ (hpass h.1).2)
  · rfl

/-! ### A packet or an error -/

/-- An automatic answer hands nothing over. -/
theorem receives_respondIf (cond : Bool) (r : PacketVariant pb) (c : Connection role pb) :
    receives (c.respondIf cond r).events = [] := by
  unfold respondIf
  split
  · exact receives_send r c
  · rfl

/-- Setting the timer for the PINGREQ of the client hands nothing over. -/
theorem receives_pingreqRecvOp (c : Connection role pb) : receives c.pingreqRecvOp.events = [] := by
  rw [← receives_signals, signals_pingreqRecvOp]
  rfl

/-- A v5 DISCONNECT hands nothing over. -/
theorem receives_disconnectV5 (reasonCode : UInt8) (c : Connection role pb) :
    receives (c.disconnectV5 reasonCode).events = [] := by
  rw [disconnectV5, Step.events_emit, receives_append, receives_send]
  rfl

/-- An unexpected acknowledgement is not handed over. -/
theorem receives_invalidPacketId (ver : ProtocolVersion) (c : Connection role pb) :
    receives (c.invalidPacketId ver).events = [] := by
  unfold invalidPacketId
  split
  · exact receives_disconnectV5 _ c
  · rfl

/-- The topic of a v5 PUBLISH that is handed over was known. -/
theorem errors_recvPublishTopicV5 {p : V5.PublishPacket pb} {response : Option (PacketVariant pb)}
    {handled : Bool} {c' : Connection role pb}
    (hsame : ∀ tar r,
      ({ c' with topicAliasRecv := tar } : Connection role pb).passesChecks r = c.passesChecks r)
    (hpass : handled = false → c'.recvTopicAlias p ≠ none →
      ∀ r ∈ response, r.isAnswer ∧ c.passesChecks r)
    (hreceives : receives (c'.recvPublishTopicV5 p response handled).events ≠ []) :
    errors (c'.recvPublishTopicV5 p response handled).events = [] := by
  unfold recvPublishTopicV5 at hreceives ⊢
  split
  -- the alias is not known, so that nothing is handed over
  · next halias =>
    rw [halias] at hreceives
    exact absurd (receives_disconnectV5 _ c') hreceives
  · next c'' p' halias =>
    rw [halias] at hreceives hpass
    obtain ⟨⟨tar, rfl⟩, -⟩ := recvTopicAlias_eq halias
    dsimp only at hreceives ⊢
    -- a message that was handled before is answered, and not handed over
    cases handled with
    | true =>
      refine absurd ?_ hreceives
      rw [if_pos rfl, Step.events_andThen, receives_append, receives_pingreqRecvOp]
      cases response with
      | none => rfl
      | some r => rw [receives_send]; rfl
    | false =>
      rw [if_neg Bool.false_ne_true, Step.events_emit, Step.events_andThen, errors_append,
        errors_append, errors_pingreqRecvOp]
      cases response with
      | none => rfl
      | some r =>
        obtain ⟨hr, hpassr⟩ := hpass rfl nofun r rfl
        rw [errors_answer hr (hsame tar r ▸ hpassr)]
        rfl

section

variable (hanswer : ∀ r, c.autoResponse pv = some r → r.isAnswer ∧ c.passesChecks r)
include hanswer

/-- A v3.1.1 PUBLISH that is handed over is answered without an error. -/
theorem errors_recvPublishV311 {p : V311.PublishPacket pb} (hpv : pv = .v311Publish p)
    (hreceives : receives (c.recvPublishV311 p).events ≠ []) :
    errors (c.recvPublishV311 p).events = [] := by
  subst hpv
  unfold autoResponse publishAnswer at hanswer
  unfold recvPublishV311 at hreceives ⊢
  split
  · exact errors_receive _ c
  · next hqos =>
    simp only [hqos] at hanswer
    rw [Step.events_andThen, errors_append, errors_receive,
      errors_respondIf rfl fun hauto => hanswer _ (if_pos hauto)]
    rfl
  · next hqos =>
    simp only [hqos] at hanswer hreceives ⊢
    by_cases hhandled : p.packetId ∈ c.qos2PublishHandled
    · simp [hhandled, receives_respondIf, receives_pingreqRecvOp] at hreceives
    · have hpass : c.autoPubResponse → _ := fun hauto => hanswer _ (if_pos ⟨hauto, hhandled⟩)
      simp only [hhandled, decide_false, Bool.or_false, Bool.false_eq_true, if_false,
        Step.events_emit, Step.events_andThen, errors_append, errors_pingreqRecvOp]
      rw [errors_respondIf ?same hpass]
      · rfl
      · rfl
  · rfl

/-- A v5 PUBLISH that is handed over is answered without an error. -/
theorem errors_recvPublishV5 {p : V5.PublishPacket pb} (hpv : pv = .v5Publish p)
    {s : Step role pb} (hs : c.recvPublishV5 p = s) (hreceives : receives s.events ≠ []) :
    errors s.events = [] := by
  subst hpv
  -- the answer to a PUBLISH that is accepted
  have hpublish : c.recvMaximumReached = false → c.recvTopicAlias p ≠ none →
      ∀ r, c.publishAnswer .v5 p.opts p.packetId = some r → r.isAnswer ∧ c.passesChecks r := by
    intro hmax halias r hr
    apply hanswer r
    have hsome : (c.recvTopicAlias p).isNone = false :=
      Bool.eq_false_of_not_eq_true (Option.isNone_iff_eq_none.not.mpr halias)
    rw [autoResponse, rejectsPublish, hmax, hsome, Bool.and_false]
    exact hr
  have hdisconnect := receives_disconnectV5 DisconnectReasonCode.receiveMaximumExceeded c
  unfold recvPublishV5 at hs
  split at hs
  · next hqos =>
    split at hs
    · exact absurd hdisconnect (hs ▸ hreceives)
    · next hmax =>
      subst hs
      refine errors_recvPublishTopicV5 (fun _ _ => rfl) (fun _ halias r hr => ?_) hreceives
      have halias : c.recvTopicAlias p ≠ none := fun hnone =>
        halias ((recvTopicAlias_eq_none (by rfl)).mpr hnone)
      split at hr
      · next hauto =>
        apply hpublish (Bool.eq_false_of_not_eq_true hmax) halias
        rw [publishAnswer, hqos, ← hr]
        exact if_pos hauto.1
      · exact nomatch hr
  · next hqos =>
    split at hs
    · exact absurd hdisconnect (hs ▸ hreceives)
    · next hmax =>
      subst hs
      refine errors_recvPublishTopicV5 (fun _ _ => rfl) (fun hhandled halias r hr => ?_) hreceives
      have halias : c.recvTopicAlias p ≠ none := fun hnone =>
        halias ((recvTopicAlias_eq_none (by rfl)).mpr hnone)
      split at hr
      · next hauto =>
        apply hpublish (Bool.eq_false_of_not_eq_true hmax) halias
        rw [hhandled, Bool.or_false] at hauto
        rw [publishAnswer, hqos, ← hr]
        exact if_pos ⟨hauto.1, of_decide_eq_false hhandled⟩
      · exact nomatch hr
  · subst hs
    exact errors_recvPublishTopicV5 (fun _ _ => rfl) (fun _ _ _ hr => nomatch hr) hreceives

/-- A PUBREC that is handed over is answered without an error. -/
theorem errors_recvPubrec {ver : ProtocolVersion} {failed : Bool}
    (hr : c.autoPubResponse → pv.packetId ∈ c.pidPubrec → failed = false →
      c.autoResponse pv = some (pubrelOf ver pb pv.packetId))
    (hreceives : receives (c.recvPubrec ver failed pv).events ≠ []) :
    errors (c.recvPubrec ver failed pv).events = [] := by
  unfold recvPubrec at hreceives ⊢
  dsimp only at hreceives ⊢
  split
  · next hmem =>
    rw [Step.events_andThen, errors_append, errors_receive]
    cases failed with
    | true => rfl
    | false =>
      rw [if_neg Bool.false_ne_true, errors_respondIf ?same fun hauto => hanswer _ (hr hauto hmem rfl)]
      · rfl
      · rfl
  · next hmem =>
    rw [if_neg hmem] at hreceives
    exact absurd (receives_invalidPacketId ver c) hreceives

/-- A PUBREL is answered without an error. -/
theorem errors_recvPubrel {ver : ProtocolVersion}
    (hr : c.autoPubResponse → c.autoResponse pv = some (pubcompOf ver pb pv.packetId)) :
    errors (c.recvPubrel ver pv).events = [] := by
  unfold recvPubrel
  dsimp only
  rw [Step.events_andThen, errors_append, errors_receive,
    errors_respondIf ?same fun hauto => hanswer _ (hr hauto)]
  · rfl
  · rfl

/-- A PINGREQ is answered without an error. -/
theorem errors_recvPingreq {r : PacketVariant pb}
    (hr : (canSendAsServer role && c.autoPingResponse) = true → c.autoResponse pv = some r) :
    errors (c.recvPingreq r pv).events = [] := by
  rw [recvPingreq, Step.events_andThen, errors_append, errors_receive,
    errors_respondIf rfl fun hauto => hanswer _ (hr hauto)]
  rfl

end

/-- An acknowledgement that is handed over is no error. -/
theorem errors_recvAck {ver : ProtocolVersion} {s : Step role pb}
    (hs : s = c.recvPuback ver pv ∨ s = c.recvPubcomp ver pv ∨ s = c.recvSuback ver pv ∨
      s = c.recvUnsuback ver pv) (hreceives : receives s.events ≠ []) : errors s.events = [] := by
  have hinvalid : receives (c.invalidPacketId ver).events ≠ [] → False :=
    fun h => h (receives_invalidPacketId ver c)
  -- each of the four is handed over only if its identifier is awaited
  rcases hs with rfl | rfl | rfl | rfl
  · unfold recvPuback at hreceives ⊢
    dsimp only at hreceives ⊢
    split
    · rw [Step.events_andThen, errors_append, errors_receive]
      rfl
    · next hmem => exact (hinvalid (by rwa [if_neg hmem] at hreceives)).elim
  · unfold recvPubcomp at hreceives ⊢
    dsimp only at hreceives ⊢
    split
    · rw [Step.events_andThen, errors_append, errors_receive]
      rfl
    · next hmem => exact (hinvalid (by rwa [if_neg hmem] at hreceives)).elim
  · unfold recvSuback at hreceives ⊢
    split
    · rw [Step.events_andThen, errors_append, errors_receive]
      rfl
    · next hmem => exact (hinvalid (by rwa [if_neg hmem] at hreceives)).elim
  · unfold recvUnsuback at hreceives ⊢
    split
    · rw [Step.events_andThen, errors_append, errors_receive]
      rfl
    · next hmem => exact (hinvalid (by rwa [if_neg hmem] at hreceives)).elim

/-- A packet that is handed over is not reported as an error as well. -/
theorem errors_processRecvActual
    (hanswer : ∀ r, c.autoResponse pv = some r → r.isAnswer ∧ c.passesChecks r)
    (hreceives : receives (c.processRecvActual pv).events ≠ []) :
    errors (c.processRecvActual pv).events = [] := by
  -- only a PUBLISH, PUBREC, PUBREL and PINGREQ are answered
  cases pv with
  | v311Connect p | v5Connect p => exact errors_receive _ _
  | v311Connack p =>
    rw [processRecvActual, Step.events_emit, errors_append, recvConnackV311]
    split
    · rw [errors_resumeSession]
      rfl
    · rfl
  | v5Connack p =>
    rw [processRecvActual, Step.events_emit, errors_append, recvConnackV5]
    split
    · rw [Step.events_andThen, errors_append, errors_recvConnackProps, errors_resumeSession]
      rfl
    · rfl
  | v311Publish p => exact errors_recvPublishV311 hanswer rfl hreceives
  | v5Publish p => exact errors_recvPublishV5 hanswer rfl rfl hreceives
  | v311Puback p | v5Puback p => exact errors_recvAck (.inl rfl) hreceives
  | v311Pubcomp p | v5Pubcomp p => exact errors_recvAck (.inr (.inl rfl)) hreceives
  | v311Suback p | v5Suback p => exact errors_recvAck (.inr (.inr (.inl rfl))) hreceives
  | v311Unsuback p | v5Unsuback p => exact errors_recvAck (.inr (.inr (.inr rfl))) hreceives
  | v311Pubrec p =>
    exact errors_recvPubrec hanswer (fun hauto hmem _ => if_pos ⟨hauto, hmem⟩) hreceives
  | v5Pubrec p =>
    refine errors_recvPubrec hanswer (fun hauto hmem hfailed => ?_) hreceives
    exact if_pos ⟨hauto, hmem, by rw [hfailed]; exact Bool.false_ne_true⟩
  | v311Pubrel p | v5Pubrel p => exact errors_recvPubrel hanswer fun hauto => if_pos hauto
  | v311Pingreq p | v5Pingreq p => exact errors_recvPingreq hanswer fun hauto => if_pos hauto
  | v311Pingresp p | v5Pingresp p => rfl
  | v311Disconnect p | v5Disconnect p =>
    rw [processRecvActual, recvDisconnect, Step.events_emit, errors_append, errors_cancelTimers]
    rfl
  | v311Subscribe p | v5Subscribe p | v311Unsubscribe p | v5Unsubscribe p | v5Auth p =>
    exact errors_receive _ c

/-- Whether a PUBLISH is rejected depends on the count and the aliases. -/
theorem rejectsPublish_congr {c₀ : Connection role pb} (hmax : c₀.recvMaximumReached = c.recvMaximumReached)
    (htar : c₀.topicAliasRecv = c.topicAliasRecv) (p : V5.PublishPacket pb) :
    c₀.rejectsPublish p = c.rejectsPublish p := by
  have halias : (c₀.recvTopicAlias p).isNone = (c.recvTopicAlias p).isNone := by
    rw [Bool.eq_iff_iff, Option.isNone_iff_eq_none, Option.isNone_iff_eq_none]
    exact recvTopicAlias_eq_none htar
  rw [rejectsPublish, rejectsPublish, hmax, halias]

/-- The packet builder has no part in the answer. -/
theorem autoResponse_rpb {c₀ : Connection role pb} {rpb : RecvPacketBuilder}
    (hc₀ : c₀ = { c with rpb := rpb }) (pv : PacketVariant pb) :
    c₀.autoResponse pv = c.autoResponse pv := by
  cases pv with
  | v5Publish p =>
    have hreject : c₀.rejectsPublish p = c.rejectsPublish p :=
      rejectsPublish_congr (by rw [hc₀]; rfl) (by rw [hc₀]) p
    rw [autoResponse, hreject, hc₀]
    rfl
  | _ => rw [hc₀]; rfl

/-- The answer to what is received is one that the peer accepts. -/
def AnswerFits (c : Connection role pb) (is : List UInt8) : Prop :=
  ∀ pv, c.received is = some pv → c.recvAllowed pv → ∀ r, c.autoResponse pv = some r →
    c.validateMaximumPacketSize r.size

/-- The packets that are answered are received on a connection with their version. -/
theorem autoResponse_connected {is : List UInt8} {r : PacketVariant pb}
    (hreceived : c.received is = some pv) (hallowed : c.recvAllowed pv)
    (hr : c.autoResponse pv = some r) : pv.version = c.protocolVersion ∧ c.status = .connected := by
  have hconnect : pv.type ≠ .connect := by
    intro htype
    cases pv with
    | v311Connect p | v5Connect p => exact Option.some_ne_none r (hr.symm.trans rfl)
    | _ => exact nomatch htype
  refine ⟨received_version hreceived fun hver => hconnect (received_undetermined hreceived hver), ?_⟩
  unfold recvAllowed at hallowed
  cases pv with
  | v311Connect p | v5Connect p | v311Connack p | v5Connack p | v5Auth p =>
    exact absurd (hr.symm.trans rfl) (Option.some_ne_none r)
  | _ => exact of_decide_eq_true hallowed

/-- At most one packet is handed over, and then there is no error. -/
theorem received_or_error {is : List UInt8} (h : c.AnswerFits is) :
    receives (c.recv is).1.events = [] ∨
      (∃ pv, receives (c.recv is).1.events = [pv]) ∧ errors (c.recv is).1.events = [] := by
  by_cases hreceives : receives (c.recv is).1.events = []
  · exact .inl hreceives
  · right
    cases hreceived : c.received is with
    | none => exact absurd (receives_of_none hreceived) hreceives
    | some pv =>
      obtain hnone | ⟨hallowed, pv', hpv', -⟩ := receives_of_signals (signals_of_received hreceived)
      · exact absurd hnone hreceives
      · refine ⟨⟨pv', hpv'⟩, ?_⟩
        obtain ⟨c₀, hc₀⟩ : ∃ c₀ : Connection role pb, c₀ = { c with rpb := (c.rpb.recv is).1 } :=
          ⟨_, rfl⟩
        have hallowed₀ : c₀.recvAllowed pv := hc₀ ▸ hallowed
        have hrecv : (c.recv is).1 = c₀.processRecvActual pv := by
          rw [recv_of_received hreceived, ← hc₀, processRecvDecoded, if_pos hallowed₀]
        rw [hrecv] at hreceives ⊢
        refine errors_processRecvActual (fun r hr => ?_) hreceives
        rw [autoResponse_rpb hc₀] at hr
        have hsize := h pv hreceived hallowed r hr
        obtain ⟨hversion, hstatus⟩ := autoResponse_connected hreceived hallowed hr
        obtain ⟨hanswer, hpass⟩ := autoResponse_passes hr hstatus hversion hsize
        exact ⟨hanswer, hc₀ ▸ hpass⟩

end Connection

end AsyncMqtt
