import AsyncMqtt.Spec.PacketIdCorrect
import AsyncMqtt.Spec.SendAtomic

/-!
# Packet identifiers of packets that are not sent

A PUBLISH with QoS 1 or 2, a PUBREL, a SUBSCRIBE and an UNSUBSCRIBE own their packet
identifier. When `send` ends in `on_error` the application does not get the identifier
back by itself: `send` has to release it and to say so with `on_packet_id_release`.

Every check from the size of the packet on does this. The checks of the role, the status
and the version, which come first, only report the error.

## Key results

- `Connection.sendPublishV5_refuses`, `Connection.sendPublishV311_refuses`: a PUBLISH
  that is refused gives its identifier back, whichever check it fails
- `Connection.send_gives_id_back_iff`: exactly when a failed send gives the identifier back
- `Connection.subscribe_offline_keeps_id`: a SUBSCRIBE without a connection does not
-/

namespace AsyncMqtt

/-- The packet owns its identifier: a PUBLISH does if its QoS is 1 or 2. -/
def PacketVariant.ownsId {pb : PacketIdBytes} (pv : PacketVariant pb) : Bool :=
  pv.ownPacketId && (pv.type ≠ .publish || Connection.isQos12 pv.view.opts)

namespace Connection

variable {role : Role} {pb : PacketIdBytes}

/-- A call of `send` that reports an error frees the identifier of the packet, and says
    so once. -/
def GivesIdBack (c : Connection role pb) (pv : PacketVariant pb) : Prop :=
  (∃ ec, Event.error ec ∈ (c.send pv).events) →
    ¬ (c.send pv).conn.pidMan.isUsedId pv.packetId ∧
    (c.send pv).events.count (.packetIdRelease pv.packetId) = 1

/-! ### PUBLISH -/

/-- A result that reports no error, or that gives the identifier back and changes nothing
    else of the packet identifier manager. -/
inductive Refuses (c : Connection role pb) (packetId : Nat) (r : Sent role pb) : Prop where
  | silent (h : ∀ ec, Event.error ec ∉ r.step.events)
  | released (c₁ : Connection role pb) (ec : ErrorCode) (hm : c₁.pidMan = c.pidMan)
      (hr : r = .failRelease c₁ ec packetId)

theorem Refuses.congr {c c' : Connection role pb} {packetId : Nat} {r : Sent role pb}
    (h : Refuses c' packetId r) (hm : c'.pidMan = c.pidMan) : Refuses c packetId r := by
  cases h with
  | silent h => exact .silent h
  | released c₁ ec hm₁ hr => exact .released c₁ ec (hm₁.trans hm) hr

theorem refuses_failRelease (c : Connection role pb) (ec : ErrorCode) (packetId : Nat) :
    Refuses c packetId (.failRelease c ec packetId) := .released c ec rfl rfl

theorem finishPublish_refuses (c : Connection role pb) (pv : PacketVariant pb)
    (release : Option Nat) : Refuses c pv.packetId (c.finishPublish pv release) := by
  cases hs : c.notSendable with
  | true =>
    rw [finishPublish_notSendable hs]
    exact refuses_failRelease c _ _
  | false =>
    rw [finishPublish_sendable hs]
    refine .silent fun ec => ?_
    split <;> simp

theorem sendReceiveMaximum_refuses (c : Connection role pb) (p : V5.PublishPacket pb)
    (release : Option Nat) : Refuses c p.packetId (c.sendReceiveMaximum p release) := by
  have hfinish := c.finishPublish_refuses (.v5Publish p) release
  unfold sendReceiveMaximum
  split
  · split
    · exact hfinish
    · split
      · exact refuses_failRelease c _ _
      · exact (finishPublish_refuses _ (.v5Publish p) release).congr rfl
  · exact hfinish

/-- The later steps of a PUBLISH, whether or not its topic was looked up before. -/
theorem sendTopicAlias_refuses (c : Connection role pb) (p : V5.PublishPacket pb)
    (validated : Bool) (release : Option Nat) :
    Refuses c p.packetId (c.sendTopicAlias p validated release) := by
  have hlooked : Refuses c p.packetId (c.sendTopicAlias p false release) := by
    rw [sendTopicAlias_eq]
    split
    · exact (refuses_failRelease _ _ _).congr rfl
    · have h := sendReceiveMaximum_refuses
        ({ c with topicAliasSend := (c.aliasApplied p).1 } : Connection role pb)
        (c.aliasApplied p).2 release
      rw [(c.aliasApplied_opts p).2] at h
      exact h.congr rfl
  -- the topic was looked up before, or it is looked up now
  cases validated with
  | true =>
    by_cases htopic : p.topic = []
    · unfold sendTopicAlias
      rw [if_pos htopic, if_pos rfl]
      exact c.sendReceiveMaximum_refuses p release
    · -- a topic that is there is not looked up, so the flag does not matter
      have hsame : c.sendTopicAlias p true release = c.sendTopicAlias p false release := by
        unfold sendTopicAlias
        rw [if_neg htopic, if_neg htopic]
      rw [hsame]
      exact hlooked
  | false => exact hlooked

/-- Storing a PUBLISH fails with the identifier given back, or with an exception, or it
    leaves the packet identifier manager alone. -/
theorem storePublishV5_refuses (c : Connection role pb) (p : V5.PublishPacket pb) :
    (∃ r, c.storePublishV5 p = .error r ∧ Refuses c p.packetId r) ∨
    ∃ c₁ validated, c.storePublishV5 p = .ok (c₁, validated) ∧ c₁.pidMan = c.pidMan := by
  have hthrew : ∀ (c₁ : Connection role pb) (e : Exception),
      Refuses c p.packetId (.threw c₁ e) := by
    intro c₁ e
    refine .silent fun ec => ?_
    simp [Sent.threw]
  have hconn := c.validateTopicAlias_conn (getTopicAlias p.props)
  unfold storePublishV5
  split
  -- the copy has to be made and to fit, and both failures give the identifier back
  · split
    · next c₁ hval =>
      rw [hval] at hconn
      have hm : c₁.pidMan = c.pidMan := by rw [show c₁ = _ from hconn]
      exact .inl ⟨_, rfl, (refuses_failRelease c₁ _ _).congr hm⟩
    · next topic c₁ hval =>
      rw [hval] at hconn
      have hm : c₁.pidMan = c.pidMan := by rw [show c₁ = _ from hconn]
      split
      · exact .inl ⟨_, rfl, hthrew _ _⟩
      · split
        · exact .inr ⟨_, _, rfl, hm⟩
        · exact .inl ⟨_, rfl, (refuses_failRelease c₁ _ _).congr hm⟩
  · split
    · exact .inl ⟨_, rfl, hthrew _ _⟩
    · exact .inr ⟨_, _, rfl, rfl⟩

theorem waitAck_pidMan (c : Connection role pb) (qos : UInt8) (packetId : Nat) :
    (c.waitAck qos packetId).pidMan = c.pidMan := by
  rw [waitAck_eq]

/-- A v5.0 PUBLISH with an identifier in use that is refused gives it back. -/
theorem sendPublishV5_refuses {c : Connection role pb} {p : V5.PublishPacket pb}
    (hqos : isQos12 p.opts) (hused : c.pidMan.isUsedId p.packetId) :
    Refuses c p.packetId (c.sendPublishV5 p) := by
  unfold sendPublishV5
  rw [if_pos hqos, if_pos hused]
  split
  · exact refuses_failRelease c _ _
  · split
    · rcases c.storePublishV5_refuses p with ⟨r, hr, hrefuses⟩ | ⟨c₁, validated, hr, hm⟩
      · rw [hr]
        exact hrefuses
      · rw [hr]
        refine (sendTopicAlias_refuses _ p validated none).congr ?_
        rw [waitAck_pidMan]
        exact hm
    · exact (sendTopicAlias_refuses _ p false _).congr (waitAck_pidMan _ _ _)

/-- A v3.1.1 PUBLISH with an identifier in use that is refused gives it back. -/
theorem sendPublishV311_refuses {c : Connection role pb} {p : V311.PublishPacket pb}
    (hqos : isQos12 p.opts) (hused : c.pidMan.isUsedId p.packetId) :
    Refuses c p.packetId (c.sendPublishV311 p) := by
  have henters : c.publishEnters (.v311Publish p) = true := by
    rw [publishEnters, hqos, hused]
    rfl
  rw [sendPublishV311_entered henters]
  refine (finishPublish_refuses _ (.v311Publish p) _).congr ?_
  rw [publishEntered_eq]

/-! ### All packets -/

/-- What the connection does with a packet that owns an identifier in use, after the
    checks of role, status and version. -/
theorem processSendActual_refuses {c : Connection role pb} {pv : PacketVariant pb}
    (howns : pv.ownsId) (hused : c.pidMan.isUsedId pv.packetId) :
    Refuses c pv.packetId (c.processSendActual pv) := by
  simp only [PacketVariant.ownsId, Bool.and_eq_true, Bool.or_eq_true, decide_eq_true_eq] at howns
  obtain ⟨hown, hqos⟩ := howns
  have hsend : ∀ (c₁ : Connection role pb) (release : Option Nat),
      Refuses c pv.packetId (.send c₁ pv release) := by
    intro c₁ release
    refine .silent fun ec => ?_
    simp [Sent.send]
  cases pv with
  | v311Publish p => exact sendPublishV311_refuses (hqos.resolve_left (absurd rfl)) hused
  | v5Publish p => exact sendPublishV5_refuses (hqos.resolve_left (absurd rfl)) hused
  | v311Pubrel p | v5Pubrel p | v311Subscribe p | v5Subscribe p | v311Unsubscribe p
  | v5Unsubscribe p => exact hsend _ _
  | _ => cases hown

/-- The identifier is free after it was given back, and this is said once. -/
theorem failRelease_gives_back {c c₁ : Connection role pb} {packetId : Nat} (hid : packetId ≠ 0)
    (hused : c.pidMan.isUsedId packetId) (hm : c₁.pidMan = c.pidMan) (ec : ErrorCode) :
    ¬ (Sent.failRelease c₁ ec packetId).step.conn.pidMan.isUsedId packetId ∧
    (Sent.failRelease c₁ ec packetId).step.events.count (.packetIdRelease packetId) = 1 := by
  unfold Sent.failRelease
  rw [if_pos hid]
  constructor
  · intro hfree
    have hvacant := ValueAllocator.mem_deallocate_self (ValueAllocator.isUsed_iff.mp hused)
    refine ValueAllocator.isUsed_iff.mp hfree ?_
    show packetId ∈ (c₁.pidMan.releaseId packetId).pool
    rw [hm]
    exact hvacant
  · simp [Step.andThen, releaseId]

/-- A failed send of a packet that owns an identifier in use gives the identifier back
    exactly if the role may send the packet, the status fits and the version is the
    connection's: each of the other checks releases it. -/
theorem send_gives_id_back_iff (c : Connection role pb) (pv : PacketVariant pb)
    (howns : pv.ownsId) (hid : pv.packetId ≠ 0) (hused : c.pidMan.isUsedId pv.packetId) :
    c.GivesIdBack pv ↔ c.sendAllowed pv := by
  have hown : pv.ownPacketId = true := (Bool.and_eq_true_iff.mp howns).1
  constructor
  -- a packet that is not allowed is refused, and its identifier stays in use
  · intro hgives
    by_contra hnot
    unfold GivesIdBack at hgives
    rw [send_of_not_allowed hnot] at hgives
    exact (hgives ⟨_, List.mem_singleton_self _⟩).1 hused
  · rintro hallowed ⟨ec, herror⟩
    -- an allowed packet that fails gives the identifier back itself
    by_cases hsize : c.validateMaximumPacketSize pv.size = true
    · have htype : pv.type ≠ .connack := by
        intro htype
        simp [PacketVariant.ownPacketId, htype] at hown
      have hsend := send_of_allowed hallowed hsize
      rw [if_neg htype] at hsend
      cases processSendActual_refuses howns hused with
      | silent hsilent =>
        rw [hsend] at herror
        split at herror
        · rw [Step.events_andThen, List.mem_append] at herror
          exact absurd herror (not_or.mpr ⟨hsilent ec, resetPingreqSend_events⟩)
        · exact absurd herror (hsilent ec)
      | released c₁ ec₁ hm hr =>
        rw [hr, failRelease_ok, if_neg Bool.false_ne_true] at hsend
        rw [hsend]
        exact failRelease_gives_back hid hused hm ec₁
    · rw [send_of_too_large hallowed hsize, if_pos hown]
      exact failRelease_gives_back hid hused rfl _

/-- A QoS 1 PUBLISH without a connection is refused after the first checks, and gives its
    identifier back. -/
theorem send_gives_id_back_publish :
    ∃ p, V311.publishPacket .two 1 [0x61] [] 0x02 = .ok p ∧
      GivesIdBack ((make .client .two .v311).run [.acquireUniquePacketId]) (.v311Publish p) :=
  ⟨_, rfl, (send_gives_id_back_iff _ _ (by decide) (by decide) (by decide)).mpr (by decide)⟩

/-- A SUBSCRIBE without a connection: the error is reported, but its identifier stays in
    use and `on_packet_id_release` is not called. -/
theorem subscribe_offline_keeps_id :
    ∃ p, V311.subscribePacket .two 1 [⟨⟨[0x61]⟩, 0⟩] = .ok p ∧
      let c := (make .client .two .v311).run [.acquireUniquePacketId]
      (PacketVariant.v311Subscribe p).ownsId ∧ p.packetId ≠ 0 ∧ c.pidMan.isUsedId p.packetId ∧
      ¬ c.GivesIdBack (.v311Subscribe p) := by
  refine ⟨_, rfl, by decide, by decide, by decide, fun hgives => ?_⟩
  have hfree := (hgives ⟨MqttError.packetNotAllowedToSend, by decide⟩).1
  exact hfree (by decide)

end Connection

end AsyncMqtt
