import AsyncMqtt.Spec.SendAtomic

/-!
# The events of a packet that is sent

A packet that is refused leads to an error and to nothing that the application has to wait for.
One that is not refused leads to no error. And the receive maximum stops only a v5.0 PUBLISH that
has entered the session before: the connection then gives its packet identifier back, but still
waits for the response to it.

## Key results

- `Connection.refusals_of_error`: an error comes alone
- `Connection.exceedsMaximum_of_error`, `Connection.send_of_exceedsMaximum_release`: what the
  receive maximum stops, and what that leaves behind
-/

namespace AsyncMqtt

/-- An event of a packet that is refused. -/
def Event.isRefusal {pb : PacketIdBytes} : Event pb → Bool
  | .error _ | .packetIdRelease _ | .threw _ => true
  | _ => false

namespace Connection

variable {role : Role} {pb : PacketIdBytes}

/-- What `send` reports if the receive maximum is exceeded. -/
def maximumExceeded : ErrorCode := .disconnect DisconnectReasonCode.receiveMaximumExceeded

/-- A PUBLISH passes all checks but the one of the receive maximum. -/
def exceedsMaximum (c : Connection role pb) (p : V5.PublishPacket pb) : Bool :=
  c.sendAllowed (.v5Publish p) && c.validateMaximumPacketSize (PacketVariant.v5Publish p).size &&
    c.publishEnters (.v5Publish p) && ! c.aliasRejected p && c.sendMaximumReached

/-! ### Refusals -/

theorem failRelease_refusals (c : Connection role pb) (ec : ErrorCode) (packetId : Nat) :
    ∀ e ∈ (Sent.failRelease c ec packetId).step.events, e.isRefusal = true := by
  unfold Sent.failRelease
  split <;> simp [Step.andThen, releaseId, Sent.fail, Event.isRefusal]

theorem Stopped.refusals {c : Connection role pb} {packetId : Nat} {r : Sent role pb}
    (h : Stopped c packetId r) : ∀ e ∈ r.step.events, e.isRefusal = true := by
  intro e he
  rcases h.events e he with ⟨ec, rfl⟩ | rfl | ⟨x, rfl⟩ <;> rfl

theorem sendStoredElems_error (pvs : List (StorePacketVariant pb)) (c : Connection role pb)
    (ec : ErrorCode) : Event.error ec ∉ (sendStoredElems pvs c).events := by
  induction pvs generalizing c with
  | nil => simp [sendStoredElems]
  | cons pv pvs ih =>
    rw [sendStoredElems, Step.events_andThen, List.mem_append, not_or]
    refine ⟨?_, ih _⟩
    split <;> simp [releaseId]

theorem sendStored_error (c : Connection role pb) (ec : ErrorCode) :
    Event.error ec ∉ c.sendStored.events := by
  rw [sendStored, Step.events_andThen, List.append_nil]
  exact sendStoredElems_error _ c ec

theorem cancelTimers_error (c : Connection role pb) (ec : ErrorCode) :
    Event.error ec ∉ c.cancelTimers.events := by
  simp only [cancelTimers, cancelTimer, Step.events_andThen, Step.conn_andThen]
  split <;> split <;> split <;> simp

/-- Only a PUBLISH is refused after the checks of its class and size. -/
theorem processSendActual_error {pv : PacketVariant pb} (h : pv.type ≠ .publish)
    (c : Connection role pb) (ec : ErrorCode) :
    Event.error ec ∉ (c.processSendActual pv).step.events := by
  have hping : ∀ pv' : PacketVariant pb, Event.error ec ∉ (c.sendPingreq pv').step.events := by
    intro pv'
    unfold sendPingreq
    split <;> simp [Sent.send]
  cases pv with
  | v311Publish p | v5Publish p => exact absurd rfl h
  | v311Connack p =>
    have hcancel := cancelTimers_error ({ c with status := .disconnected } : Connection role pb) ec
    simp only [processSendActual, sendConnackV311, Step.events_emit, List.mem_append]
    split <;> simp [hcancel]
  | v5Connack p =>
    have hcancel := cancelTimers_error ({ c with status := .disconnected } : Connection role pb) ec
    simp only [processSendActual, sendConnackV5, Step.events_emit, List.mem_append]
    split <;> simp [hcancel]
  | v311Pingreq p | v5Pingreq p => exact hping _
  | v311Disconnect p | v5Disconnect p =>
    have hcancel := cancelTimers_error ({ c with status := .disconnected } : Connection role pb) ec
    simp [processSendActual, sendDisconnect, hcancel]
  | _ => simp [processSendActual, Sent.send]

/-- A packet that does not pass the first checks is refused. -/
theorem refusals_of_not_passes {c : Connection role pb} {pv : PacketVariant pb}
    (h : ¬ (c.sendAllowed pv && c.validateMaximumPacketSize pv.size)) :
    ∀ e ∈ (c.send pv).events, e.isRefusal = true := by
  by_cases hallowed : c.sendAllowed pv
  · have hsize : ¬ c.validateMaximumPacketSize pv.size :=
      fun hsize => h (by rw [hallowed, hsize]; rfl)
    rw [send_of_too_large hallowed hsize]
    exact failRelease_refusals _ _ _
  · rw [send_of_not_allowed hallowed]
    simp [Event.isRefusal]

/-- An error comes alone: nothing is sent or closed, and no timer is touched. -/
theorem refusals_of_error {c : Connection role pb} {pv : PacketVariant pb} {ec : ErrorCode}
    (h : .error ec ∈ (c.send pv).events) : ∀ e ∈ (c.send pv).events, e.isRefusal = true := by
  by_cases hallowed : c.sendAllowed pv
  · by_cases hsize : c.validateMaximumPacketSize pv.size
    · have hsend := send_of_allowed hallowed hsize
      by_cases htype : pv.type = .publish
      -- the error is that of a stopped or of a failed PUBLISH
      · cases processSendActual_publish htype c with
        | stopped henters hstopped =>
          rw [if_neg (by rw [hstopped.ok]; exact nofun)] at hsend
          rw [hsend]
          exact hstopped.refusals
        | plain hqos pv' _ _ _ hok hconn hevents =>
          exact absurd h (send_publish_no_error hallowed hsize htype hok hevents
            (fun ec => by split <;> simp) ec)
        | @failed hlate ec' c₁ hc₁ hr =>
          rw [hr, if_neg (by rw [failRelease_ok]; exact nofun)] at hsend
          rw [hsend]
          exact failRelease_refusals _ _ _
        | entered henters hlate pv' _ _ _ hok hconn hevents =>
          exact absurd h (send_publish_no_error hallowed hsize htype hok hevents
            (fun ec => by split <;> simp) ec)
      -- the other classes report no error of their own
      · have herror := processSendActual_error htype c ec
        rw [hsend, if_pos (processSendActual_ok htype c).1, Step.events_andThen,
          List.mem_append] at h
        rcases h with h | h
        · split at h
          · rw [Step.events_andThen, List.mem_append] at h
            exact h.elim (absurd · herror) (absurd · (sendStored_error _ ec))
          · exact absurd h herror
        · exact absurd h resetPingreqSend_events
    · exact refusals_of_not_passes fun hpass => hsize (Bool.and_eq_true_iff.mp hpass).2
  · exact refusals_of_not_passes fun hpass => hallowed (Bool.and_eq_true_iff.mp hpass).1

/-! ### The receive maximum -/

theorem failRelease_error {c : Connection role pb} {ec ec' : ErrorCode} {packetId : Nat}
    (h : .error ec' ∈ (Sent.failRelease c ec packetId).step.events) : ec' = ec := by
  unfold Sent.failRelease at h
  split at h
  · simpa [Step.andThen, releaseId] using h
  · simpa [Sent.fail] using h

theorem finishPublish_error {c : Connection role pb} {pv : PacketVariant pb}
    {release : Option Nat} {ec : ErrorCode}
    (h : .error ec ∈ (c.finishPublish pv release).step.events) :
    ec = MqttError.packetNotAllowedToSend := by
  cases hs : c.notSendable with
  | true =>
    rw [finishPublish_notSendable hs] at h
    exact failRelease_error h
  | false =>
    rw [finishPublish_sendable hs] at h
    split at h <;> simp at h

/-- The other errors of a PUBLISH. -/
theorem packetNotAllowed_ne : MqttError.packetNotAllowedToSend ≠ maximumExceeded := by decide

theorem storePublishV5_error {c : Connection role pb} {p : V5.PublishPacket pb}
    {r : Sent role pb} (h : c.storePublishV5 p = .error r) {ec : ErrorCode}
    (hec : .error ec ∈ r.step.events) : ec = MqttError.packetNotAllowedToSend := by
  unfold storePublishV5 at h
  split at h
  · split at h
    · obtain rfl := Except.error.inj h
      exact failRelease_error hec
    · split at h
      · obtain rfl := Except.error.inj h
        simp [Sent.threw] at hec
      · split at h
        · exact nomatch h
        · obtain rfl := Except.error.inj h
          exact failRelease_error hec
  · split at h
    · obtain rfl := Except.error.inj h
      simp [Sent.threw] at hec
    · exact nomatch h

/-- A PUBLISH with QoS 0 does not count for the receive maximum. -/
theorem sendTopicAlias_error {c : Connection role pb} {p : V5.PublishPacket pb}
    (hqos : ¬ isQos12 p.opts) {ec : ErrorCode}
    (h : .error ec ∈ (c.sendTopicAlias p false none).step.events) :
    ec = MqttError.packetNotAllowedToSend := by
  rw [sendTopicAlias_eq] at h
  split at h
  · exact failRelease_error h
  · rw [sendReceiveMaximum, (c.aliasApplied_opts p).1, if_neg hqos] at h
    exact finishPublish_error h

theorem sendPublishV5_error {c : Connection role pb} {p : V5.PublishPacket pb}
    (h : .error maximumExceeded ∈ (c.sendPublishV5 p).step.events) :
    c.publishEnters (.v5Publish p) ∧ c.aliasRejected p = false ∧ c.sendMaximumReached := by
  by_cases henters : c.publishEnters (.v5Publish p)
  · rw [sendPublishV5_entered henters rfl] at h
    -- after it has entered only the receive maximum gives this error
    split at h
    · exact absurd (failRelease_error h).symm packetNotAllowed_ne
    · next halias =>
      rw [sendReceiveMaximum_eq (by
        rw [(c.aliasApplied_opts p).1]; exact (publishEnters_qos henters).2)] at h
      split at h
      · next hmax =>
        rw [sendMaximumReached, publishEntered_eq] at hmax
        exact ⟨henters, by simpa using halias, hmax⟩
      · exact absurd (finishPublish_error h).symm packetNotAllowed_ne
  · refine absurd ?_ packetNotAllowed_ne.symm
    unfold sendPublishV5 at h
    -- before it has entered every error is that of a packet that is not allowed
    split at h
    · exact failRelease_error h
    · next halias =>
      split at h
      · next hqos =>
        split at h
        · next hused =>
          split at h
          · next hstores =>
            split at h
            · next r hstore => exact storePublishV5_error hstore h
            · next c' validated hstore =>
              cases hsp : c.storedPublishV5 p with
              | none =>
                obtain ⟨r, hr, -⟩ := storePublishV5_none hsp
                rw [hr] at hstore
                cases hstore
              | some sp =>
                exact absurd (by simp_all [publishEnters]) henters
          · next hstores => exact absurd (by simp_all [publishEnters]) henters
        · simp only [Sent.fail, List.mem_singleton, Event.error.injEq] at h
          exact absurd h (by decide)
      · next hqos => exact sendTopicAlias_error hqos h

theorem sendPublishV311_error {c : Connection role pb} {p : V311.PublishPacket pb}
    {ec : ErrorCode} (h : .error ec ∈ (c.sendPublishV311 p).step.events) :
    ec ≠ maximumExceeded := by
  unfold sendPublishV311 at h
  split at h
  · split at h
    · rw [finishPublish_error h]
      exact packetNotAllowed_ne
    · simp only [Sent.fail, List.mem_singleton, Event.error.injEq] at h
      rw [h]
      decide
  · rw [finishPublish_error h]
    exact packetNotAllowed_ne

/-- Only a v5.0 PUBLISH exceeds the receive maximum. -/
theorem exceedsMaximum_of_error {c : Connection role pb} {pv : PacketVariant pb}
    (h : .error maximumExceeded ∈ (c.send pv).events) :
    ∃ p, pv = .v5Publish p ∧ c.exceedsMaximum p := by
  by_cases hallowed : c.sendAllowed pv
  · by_cases hsize : c.validateMaximumPacketSize pv.size
    · have hactual : .error maximumExceeded ∈ (c.processSendActual pv).step.events := by
        -- the timer is set after the packet, and reports nothing
        rw [send_of_allowed hallowed hsize] at h
        split at h
        · rw [Step.events_andThen, List.mem_append] at h
          have h := h.resolve_right resetPingreqSend_events
          split at h
          · rw [Step.events_andThen, List.mem_append] at h
            exact h.resolve_right (sendStored_error _ _)
          · exact h
        · exact h
      have htype : pv.type = .publish := by
        by_contra htype
        exact processSendActual_error htype c _ hactual
      cases pv with
      | v311Publish p => exact absurd rfl (sendPublishV311_error hactual)
      | v5Publish p =>
        obtain ⟨henters, halias, hmax⟩ := sendPublishV5_error hactual
        refine ⟨p, rfl, ?_⟩
        rw [exceedsMaximum, hallowed, hsize, henters, halias, hmax]
        rfl
      | _ => exact nomatch htype
    · rw [send_of_too_large hallowed hsize] at h
      exact absurd (failRelease_error h).symm packetNotAllowed_ne
  · rw [send_of_not_allowed hallowed] at h
    exact absurd (by simpa using h) packetNotAllowed_ne.symm

theorem send_of_exceedsMaximum {c : Connection role pb} {p : V5.PublishPacket pb}
    (h : c.exceedsMaximum p) :
    c.send (.v5Publish p) = (Sent.failRelease
      { c.publishEntered (.v5Publish p) with topicAliasSend := (c.aliasApplied p).1 }
      maximumExceeded p.packetId).step := by
  simp only [exceedsMaximum, Bool.and_eq_true, Bool.not_eq_true'] at h
  obtain ⟨⟨⟨⟨hallowed, hsize⟩, henters⟩, halias⟩, hmax⟩ := h
  have hqos : isQos12 (c.aliasApplied p).2.opts := by
    rw [(c.aliasApplied_opts p).1]
    exact (publishEnters_qos henters).2
  have hactual : c.processSendActual (.v5Publish p) = .failRelease
      { c.publishEntered (.v5Publish p) with topicAliasSend := (c.aliasApplied p).1 }
      maximumExceeded p.packetId := by
    rw [processSendActual, sendPublishV5_entered henters rfl, halias, if_neg Bool.false_ne_true,
      sendReceiveMaximum_eq hqos, if_pos, (c.aliasApplied_opts p).2]
    · rfl
    · rw [publishEntered_eq]
      exact hmax
  rw [send_of_allowed hallowed hsize, hactual, if_neg (by rw [failRelease_ok]; rintro ⟨⟩)]

/-- What is left behind: the connection gives the identifier back, and waits for a response. -/
theorem send_of_exceedsMaximum_release {c : Connection role pb} {p : V5.PublishPacket pb}
    (h : c.exceedsMaximum p) (hid : p.packetId ≠ 0) :
    c.send (.v5Publish p) =
      ⟨{ c.publishEntered (.v5Publish p) with
          topicAliasSend := (c.aliasApplied p).1
          pidMan := c.pidMan.releaseId p.packetId },
        [.error maximumExceeded, .packetIdRelease p.packetId]⟩ := by
  rw [send_of_exceedsMaximum h, Sent.failRelease, if_pos hid, publishEntered_eq]
  rfl

theorem exceedsMaximum_enters {c : Connection role pb} {p : V5.PublishPacket pb}
    (h : c.exceedsMaximum p) : c.publishEnters (.v5Publish p) ∧ c.sendMaximumReached := by
  simp only [exceedsMaximum, Bool.and_eq_true] at h
  exact ⟨h.1.1.2, h.2⟩

end Connection

end AsyncMqtt
