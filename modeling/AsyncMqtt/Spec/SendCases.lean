import AsyncMqtt.Spec.ConnectionSteps

/-!
# What sending a packet does

`process_send_packet` mixes checks and changes. Here a PUBLISH with QoS 1 or 2 is
followed through them: what it has changed when it passes the check of its packet
identifier (`publishEntered`), what the topic alias adds, and which later checks may
still stop it (`publishFailsLate`). `Connection.SendOutcome` lists the results for
all packets.

## Key results

- `Connection.sendPublishV5_outcome`, `Connection.sendPublishV311_outcome`: the results
  of a PUBLISH
- `Connection.send_cases`: the results of `send`
-/

namespace AsyncMqtt

namespace Connection

variable {role : Role} {pb : PacketIdBytes}

/-! ### Topic aliases -/

/-- The table after `validate_topic_alias`. -/
def touchedAliases (c : Connection role pb) (taOpt : Option Nat) : Option TopicAliasSend :=
  (c.validateTopicAlias taOpt).2.topicAliasSend

/-- The check of an alias changes nothing but the time of its use. -/
theorem validateTopicAlias_conn (c : Connection role pb) (taOpt : Option Nat) :
    (c.validateTopicAlias taOpt).2 = { c with topicAliasSend := c.touchedAliases taOpt } := by
  unfold touchedAliases validateTopicAlias
  split
  · split <;> rfl
  · rfl

/-- The topic alias of a PUBLISH is not valid. -/
def aliasRejected (c : Connection role pb) (p : V5.PublishPacket pb) : Bool :=
  if p.topic = [] then (c.validateTopicAlias (getTopicAlias p.props)).1.isNone
  else
    match getTopicAlias p.props with
    | some ta => ! c.validateTopicAliasRange ta
    | none => false

/-- The table of topic aliases and the packet after `// apply topic_alias`. -/
def aliasApplied (c : Connection role pb) (p : V5.PublishPacket pb) :
    Option TopicAliasSend × V5.PublishPacket pb :=
  if p.topic = [] then (c.touchedAliases (getTopicAlias p.props), p)
  else
    match getTopicAlias p.props with
    | some ta => ((c.insertOrUpdateTopicAlias p.topic ta).topicAliasSend, p)
    | none =>
      if c.status = .connected then
        ((c.autoTopicAlias p).1.topicAliasSend, (c.autoTopicAlias p).2)
      else (c.topicAliasSend, p)

/-- Replacing the topic by an alias changes nothing but the table of aliases. -/
theorem autoTopicAlias_conn (c : Connection role pb) (p : V5.PublishPacket pb) :
    (c.autoTopicAlias p).1 = { c with topicAliasSend := (c.autoTopicAlias p).1.topicAliasSend } := by
  unfold autoTopicAlias
  split
  · rfl
  · split
    · split <;> rfl
    · split
      · split <;> rfl
      · rfl

/-- Replacing the topic by an alias leaves the options and the identifier. -/
theorem autoTopicAlias_opts (c : Connection role pb) (p : V5.PublishPacket pb) :
    (c.autoTopicAlias p).2.opts = p.opts ∧ (c.autoTopicAlias p).2.packetId = p.packetId := by
  unfold autoTopicAlias
  split
  · exact ⟨rfl, rfl⟩
  · split
    · split <;> exact ⟨rfl, rfl⟩
    · split
      · split <;> exact ⟨rfl, rfl⟩
      · exact ⟨rfl, rfl⟩

/-- Applying an alias leaves the options and the identifier. -/
theorem aliasApplied_opts (c : Connection role pb) (p : V5.PublishPacket pb) :
    (c.aliasApplied p).2.opts = p.opts ∧ (c.aliasApplied p).2.packetId = p.packetId := by
  unfold aliasApplied
  split
  · exact ⟨rfl, rfl⟩
  · split
    · exact ⟨rfl, rfl⟩
    · split
      · exact c.autoTopicAlias_opts p
      · exact ⟨rfl, rfl⟩

/-- The fields that the topic alias of a PUBLISH depends on are the same. -/
structure SameAliasing (c c' : Connection role pb) : Prop where
  topicAliasSend : c'.topicAliasSend = c.topicAliasSend
  now : c'.now = c.now
  status : c'.status = c.status
  autoMap : c'.autoMapTopicAliasSend = c.autoMapTopicAliasSend
  autoReplace : c'.autoReplaceTopicAliasSend = c.autoReplaceTopicAliasSend

/-- The range of the aliases is the same. -/
theorem SameAliasing.validateTopicAliasRange {c c' : Connection role pb} (h : SameAliasing c c')
    (ta : Nat) : c'.validateTopicAliasRange ta = c.validateTopicAliasRange ta := by
  simp only [Connection.validateTopicAliasRange, h.topicAliasSend]

/-- The check of an alias has the same result. -/
theorem SameAliasing.validateTopicAlias {c c' : Connection role pb} (h : SameAliasing c c')
    (taOpt : Option Nat) :
    (c'.validateTopicAlias taOpt).1 = (c.validateTopicAlias taOpt).1 ∧
      c'.touchedAliases taOpt = c.touchedAliases taOpt := by
  unfold touchedAliases Connection.validateTopicAlias
  rw [h.topicAliasSend, h.now]
  split
  · rw [h.validateTopicAliasRange]
    split
    · exact ⟨rfl, rfl⟩
    · exact ⟨rfl, h.topicAliasSend⟩
  · exact ⟨rfl, h.topicAliasSend⟩

/-- The same aliases are rejected. -/
theorem SameAliasing.aliasRejected {c c' : Connection role pb} (h : SameAliasing c c')
    (p : V5.PublishPacket pb) : c'.aliasRejected p = c.aliasRejected p := by
  unfold Connection.aliasRejected
  simp only [(h.validateTopicAlias _).1, h.validateTopicAliasRange]

/-- The same aliases are applied. -/
theorem SameAliasing.aliasApplied {c c' : Connection role pb} (h : SameAliasing c c')
    (p : V5.PublishPacket pb) : c'.aliasApplied p = c.aliasApplied p := by
  have hauto : (c'.autoTopicAlias p).1.topicAliasSend = (c.autoTopicAlias p).1.topicAliasSend ∧
      (c'.autoTopicAlias p).2 = (c.autoTopicAlias p).2 := by
    unfold autoTopicAlias
    rw [h.topicAliasSend, h.now, h.autoMap, h.autoReplace]
    split
    · exact ⟨h.topicAliasSend, rfl⟩
    · split
      · split
        · exact ⟨h.topicAliasSend, rfl⟩
        · exact ⟨rfl, rfl⟩
      · split
        · split <;> exact ⟨h.topicAliasSend, rfl⟩
        · exact ⟨h.topicAliasSend, rfl⟩
  unfold Connection.aliasApplied insertOrUpdateTopicAlias
  simp only [(h.validateTopicAlias _).2, hauto.1, hauto.2, h.status, h.topicAliasSend, h.now]

/-- `// apply topic_alias` for a topic that was not looked up before. -/
theorem sendTopicAlias_eq (c : Connection role pb) (p : V5.PublishPacket pb)
    (release : Option Nat) :
    c.sendTopicAlias p false release =
      if c.aliasRejected p then
        .failRelease
          { c with
            topicAliasSend :=
              if p.topic = [] then c.touchedAliases (getTopicAlias p.props) else c.topicAliasSend }
          MqttError.packetNotAllowedToSend p.packetId
      else
        sendReceiveMaximum { c with topicAliasSend := (c.aliasApplied p).1 }
          (c.aliasApplied p).2 release := by
  unfold sendTopicAlias aliasRejected aliasApplied
  -- an empty topic is looked up, another one may get an alias
  by_cases htopic : p.topic = []
  · simp only [htopic, if_true, Bool.false_eq_true, if_false]
    rw [← validateTopicAlias_conn]
    split <;> simp_all
  · simp only [htopic, if_false]
    cases hta : getTopicAlias p.props with
    | some ta =>
      simp only [Bool.not_eq_true']
      cases c.validateTopicAliasRange ta <;> rfl
    | none =>
      simp only [Bool.false_eq_true, if_false]
      split
      · rw [← autoTopicAlias_conn]
      · rfl

/-! ### Entering the session -/

/-- `waitAck` as one update. -/
theorem waitAck_eq (c : Connection role pb) (qos : UInt8) (packetId : Nat) :
    c.waitAck qos packetId =
      { c with
        qos2PublishProcessing :=
          if qos = Qos.exactlyOnce then c.qos2PublishProcessing.insert packetId
          else c.qos2PublishProcessing
        pidPubrec :=
          if qos = Qos.exactlyOnce then c.pidPubrec.insert packetId else c.pidPubrec
        pidPuback :=
          if qos = Qos.exactlyOnce then c.pidPuback else c.pidPuback.insert packetId } := by
  unfold waitAck
  split <;> rfl

/-- The PUBLISH that the `need_store_` branch stores, if it passes its checks. -/
def storedPublishV5 (c : Connection role pb) (p : V5.PublishPacket pb) :
    Option (V5.PublishPacket pb) :=
  if p.topic = [] then
    match (c.validateTopicAlias (getTopicAlias p.props)).1 with
    | none => none
    | some topic =>
      match storePacket p topic with
      | .error _ => none
      | .ok sp => if c.validateMaximumPacketSize sp.size then some sp else none
  else
    match storePacket p p.topic with
    | .error _ => none
    | .ok sp => some sp

/-- The store after the `need_store_` branch. -/
def storeEntered (c : Connection role pb) : PacketVariant pb → Store pb
  | .v311Publish p => if c.storesPublish then c.store.add (.v311Publish p.setDup) else c.store
  | .v5Publish p =>
    if c.storesPublish then
      match c.storedPublishV5 p with
      | some sp => c.store.add (.v5Publish sp.setDup)
      | none => c.store
    else c.store
  | _ => c.store

/-- QoS 1 and 2, in the bits of the options -/
theorem isQos12_iff {v : UInt8} : isQos12 v = true ↔ Pub.getQos v = 1 ∨ Pub.getQos v = 2 := by
  simp only [isQos12, Bool.or_eq_true, decide_eq_true_eq]
  rfl

/-- The same with the QoS as a number -/
theorem isQos12_iff_toNat {v : UInt8} :
    isQos12 v ↔ (Pub.getQos v).toNat = 1 ∨ (Pub.getQos v).toNat = 2 := by
  rw [isQos12_iff, ← UInt8.toNat_inj, ← UInt8.toNat_inj]
  rfl

/-- A PUBLISH with QoS 1 or 2 passes the checks that come before it changes the session. -/
def publishEnters (c : Connection role pb) : PacketVariant pb → Bool
  | .v311Publish p => isQos12 p.opts && c.pidMan.isUsedId p.packetId
  | .v5Publish p =>
    ! (c.status ≠ .connected && (getTopicAlias p.props).isSome) && isQos12 p.opts &&
      c.pidMan.isUsedId p.packetId && (! c.storesPublish || (c.storedPublishV5 p).isSome)
  | _ => false

/-- The state of a PUBLISH that has entered the session. -/
def publishEntered (c : Connection role pb) (pv : PacketVariant pb) : Connection role pb :=
  waitAck { c with store := c.storeEntered pv } (Pub.getQos pv.view.opts) pv.packetId

/-- `release_packet_id_if_send_error` -/
def releaseIfSendError (c : Connection role pb) (packetId : Nat) : Option Nat :=
  if c.storesPublish then none else some packetId

/-- What a PUBLISH may do that does not enter the session. -/
structure Stopped (c : Connection role pb) (packetId : Nat) (r : Sent role pb) : Prop where
  ok : r.ok = false
  conn : ∃ tas m, r.step.conn = { c with topicAliasSend := tas, pidMan := m } ∧
    (tas = c.topicAliasSend ∨ ∃ taOpt, tas = c.touchedAliases taOpt) ∧
    (m = c.pidMan ∨ packetId ≠ 0 ∧ m = c.pidMan.releaseId packetId)
  events : ∀ e ∈ r.step.events, (∃ ec, e = .error ec) ∨ e = .packetIdRelease packetId ∨
    ∃ x, e = .threw x

/-- A PUBLISH that fails stops. -/
theorem stopped_fail (c : Connection role pb) (ec : ErrorCode) (packetId : Nat) :
    Stopped c packetId (.fail c ec) where
  ok := rfl
  conn := ⟨_, _, rfl, .inl rfl, .inl rfl⟩
  events _ he := .inl ⟨ec, List.mem_singleton.mp he⟩

/-- A PUBLISH that fails and gives its identifier back stops. -/
theorem stopped_failRelease (c : Connection role pb) (ec : ErrorCode) (packetId : Nat)
    {tas : Option TopicAliasSend}
    (htas : tas = c.topicAliasSend ∨ ∃ taOpt, tas = c.touchedAliases taOpt) :
    Stopped c packetId (.failRelease { c with topicAliasSend := tas } ec packetId) := by
  unfold Sent.failRelease
  split
  · next hid =>
    refine ⟨rfl, ⟨_, _, rfl, htas, .inr ⟨hid, rfl⟩⟩, fun e he => ?_⟩
    simp only [Step.events_andThen, releaseId, List.cons_append, List.nil_append, List.mem_cons,
      List.not_mem_nil, or_false] at he
    rcases he with rfl | rfl
    · exact .inl ⟨ec, rfl⟩
    · exact .inr (.inl rfl)
  · exact ⟨rfl, ⟨_, _, rfl, htas, .inl rfl⟩, fun e he => .inl ⟨ec, List.mem_singleton.mp he⟩⟩

/-- A PUBLISH that throws stops. -/
theorem stopped_threw (c : Connection role pb) (e : Exception) (packetId : Nat)
    {tas : Option TopicAliasSend}
    (htas : tas = c.topicAliasSend ∨ ∃ taOpt, tas = c.touchedAliases taOpt) :
    Stopped c packetId (.threw { c with topicAliasSend := tas } e) where
  ok := rfl
  conn := ⟨_, _, rfl, htas, .inl rfl⟩
  events _ he := .inr (.inr ⟨e, List.mem_singleton.mp he⟩)

/-- The `need_store_` branch by the packet that it stores. -/
theorem storePublishV5_some {c : Connection role pb} {p sp : V5.PublishPacket pb}
    (h : c.storedPublishV5 p = some sp) :
    c.storePublishV5 p = .ok (
      { c with
        store := c.store.add (.v5Publish sp.setDup)
        topicAliasSend :=
          if p.topic = [] then c.touchedAliases (getTopicAlias p.props) else c.topicAliasSend },
      decide (p.topic = [])) := by
  unfold storedPublishV5 at h
  unfold storePublishV5
  -- an empty topic is looked up by the alias, and the look-up counts as a use
  by_cases htopic : p.topic = []
  · simp only [htopic, if_true] at h ⊢
    have hconn := c.validateTopicAlias_conn (getTopicAlias p.props)
    rcases hval : c.validateTopicAlias (getTopicAlias p.props) with ⟨topic, c'⟩
    rw [hval] at h hconn
    simp only at h hconn
    subst hconn
    cases topic with
    | none => cases h
    | some topic =>
      simp only at h ⊢
      cases hsp : storePacket p topic with
      | error _ => rw [hsp] at h; cases h
      | ok sp' =>
        rw [hsp] at h
        simp only at h ⊢
        split at h
        · next hsize =>
          obtain rfl := Option.some.inj h
          rw [if_pos (by exact hsize)]
          rfl
        · cases h
  · simp only [htopic, if_false] at h ⊢
    cases hsp : storePacket p p.topic with
    | error _ => rw [hsp] at h; cases h
    | ok sp' =>
      rw [hsp] at h
      obtain rfl := Option.some.inj h
      rfl

/-- A PUBLISH that cannot be stored stops. -/
theorem storePublishV5_none {c : Connection role pb} {p : V5.PublishPacket pb}
    (h : c.storedPublishV5 p = none) :
    ∃ r, c.storePublishV5 p = .error r ∧ Stopped c p.packetId r := by
  unfold storedPublishV5 at h
  unfold storePublishV5
  -- the same cases, and now one of the checks stops the packet
  by_cases htopic : p.topic = []
  · simp only [htopic, if_true] at h ⊢
    have hconn := c.validateTopicAlias_conn (getTopicAlias p.props)
    rcases hval : c.validateTopicAlias (getTopicAlias p.props) with ⟨topic, c'⟩
    rw [hval] at h hconn
    simp only at h hconn
    subst hconn
    have htas : c.touchedAliases (getTopicAlias p.props) = c.topicAliasSend ∨
        ∃ taOpt, c.touchedAliases (getTopicAlias p.props) = c.touchedAliases taOpt :=
      .inr ⟨_, rfl⟩
    cases topic with
    | none => exact ⟨_, rfl, stopped_failRelease c _ _ htas⟩
    | some topic =>
      simp only at h ⊢
      cases hsp : storePacket p topic with
      | error e => exact ⟨_, rfl, stopped_threw c e _ htas⟩
      | ok sp =>
        rw [hsp] at h
        simp only at h ⊢
        split at h
        · cases h
        · next hsize =>
          rw [if_neg (by exact hsize)]
          exact ⟨_, rfl, stopped_failRelease c _ _ htas⟩
  · simp only [htopic, if_false] at h ⊢
    cases hsp : storePacket p p.topic with
    | error e => exact ⟨_, rfl, stopped_threw c e _ (.inl rfl)⟩
    | ok sp => rw [hsp] at h; cases h

/-- After the checks of the alias and of the identifier, what stops a PUBLISH is that the packet
    to store cannot be made. -/
theorem storedPublishV5_none_of_not_enters {c : Connection role pb} {p : V5.PublishPacket pb}
    (henters : ¬ c.publishEnters (.v5Publish p))
    (halias : ¬ (c.status ≠ .connected ∧ (getTopicAlias p.props).isSome))
    (hqos : isQos12 p.opts) (hused : c.pidMan.isUsedId p.packetId) :
    c.storesPublish ∧ c.storedPublishV5 p = none := by
  have hfirst : ! (c.status ≠ .connected && (getTopicAlias p.props).isSome) := by
    by_contra hcon
    simp only [Bool.not_eq_true', Bool.not_eq_false, Bool.and_eq_true, decide_eq_true_eq] at hcon
    exact halias hcon
  have hstore : (! c.storesPublish || (c.storedPublishV5 p).isSome) = false := by
    simpa only [publishEnters, hfirst, hqos, hused, Bool.and_true, Bool.true_and,
      Bool.not_eq_true] using henters
  obtain ⟨hstores, hnone⟩ := Bool.or_eq_false_iff.mp hstore
  refine ⟨by simpa using hstores, ?_⟩
  exact Option.isNone_iff_eq_none.mp (Option.isSome_eq_false_iff.mp hnone)

/-- A v5.0 PUBLISH that has entered the session goes on with its topic alias. -/
theorem sendPublishV5_entered {c : Connection role pb} {p : V5.PublishPacket pb}
    (h : c.publishEnters (.v5Publish p)) {c₁ : Connection role pb}
    (hc₁ : c₁ = c.publishEntered (.v5Publish p)) :
    c.sendPublishV5 p =
      if c.aliasRejected p then
        .failRelease
          { c₁ with
            topicAliasSend :=
              if p.topic = [] then c.touchedAliases (getTopicAlias p.props) else c.topicAliasSend }
          MqttError.packetNotAllowedToSend p.packetId
      else
        sendReceiveMaximum { c₁ with topicAliasSend := (c.aliasApplied p).1 }
          (c.aliasApplied p).2 (c.releaseIfSendError p.packetId) := by
  simp only [publishEnters, Bool.and_eq_true, Bool.or_eq_true, Bool.not_eq_true'] at h
  obtain ⟨⟨⟨halias, hqos⟩, hused⟩, hstore⟩ := h
  have hnot : ¬ (c.status ≠ .connected ∧ (getTopicAlias p.props).isSome) := by
    rintro ⟨hs, ha⟩
    simp [hs, ha] at halias
  unfold sendPublishV5
  rw [if_neg hnot, if_pos hqos, if_pos hused]
  -- without a store only the wait is entered
  cases hstores : c.storesPublish with
  | false =>
    have hsame : SameAliasing c (c.waitAck (Pub.getQos p.opts) p.packetId) := by
      rw [waitAck_eq]
      exact ⟨rfl, rfl, rfl, rfl, rfl⟩
    have hentered : c₁ = c.waitAck (Pub.getQos p.opts) p.packetId := by
      rw [hc₁, publishEntered, storeEntered, hstores]
      rfl
    rw [if_neg Bool.false_ne_true, sendTopicAlias_eq, hsame.aliasRejected, hsame.aliasApplied,
      (hsame.validateTopicAlias _).2, hsame.topicAliasSend, hentered, releaseIfSendError, hstores]
    rfl
  -- with a store the copy is added too
  | true =>
    obtain ⟨sp, hsp⟩ := Option.isSome_iff_exists.mp
      (hstore.resolve_left (by rw [hstores]; rintro ⟨⟩))
    have hentered : c₁ = waitAck { c with store := c.store.add (.v5Publish sp.setDup) }
        (Pub.getQos p.opts) p.packetId := by
      rw [hc₁, publishEntered, storeEntered, hstores, if_pos rfl, hsp]
      rfl
    rw [if_pos rfl, storePublishV5_some hsp, releaseIfSendError, hstores, if_pos rfl, hentered]
    by_cases htopic : p.topic = []
    · -- the topic was looked up when the packet was stored
      have hvalid : c.aliasRejected p = false := by
        unfold storedPublishV5 at hsp
        unfold aliasRejected
        rw [if_pos htopic] at hsp ⊢
        split at hsp
        · cases hsp
        · next hval => rw [hval]; rfl
      rw [hvalid, if_neg Bool.false_ne_true]
      simp only [sendTopicAlias, aliasApplied, htopic, decide_true, if_true, waitAck_eq]
    · have hsame : SameAliasing c (waitAck { c with store := c.store.add (.v5Publish sp.setDup) }
          (Pub.getQos p.opts) p.packetId) := by
        rw [waitAck_eq]
        exact ⟨rfl, rfl, rfl, rfl, rfl⟩
      simp only [htopic, decide_false, if_false]
      rw [sendTopicAlias_eq, hsame.aliasRejected, hsame.aliasApplied, hsame.topicAliasSend,
        if_neg htopic]

/-! ### The later checks -/

/-- `publish_send_count_` after a PUBLISH with QoS 1 or 2 has passed the check of the
    receive maximum. -/
def sentCount (c : Connection role pb) : PacketVariant pb → Nat
  | .v5Publish _ =>
    if c.publishSendMax.isSome then (c.publishSendCount + 1) % 2 ^ 16 else c.publishSendCount
  | _ => c.publishSendCount

/-- The receive maximum of the peer is used up. -/
def sendMaximumReached (c : Connection role pb) : Bool :=
  c.publishSendMax = some c.publishSendCount

/-- A PUBLISH can neither be sent nor kept for later. -/
def notSendable (c : Connection role pb) : Bool := c.status ≠ .connected && ! c.offlinePublish

/-- The Receive Maximum refuses a PUBLISH or counts it. -/
theorem sendReceiveMaximum_eq {c : Connection role pb} {p : V5.PublishPacket pb}
    (h : isQos12 p.opts) (release : Option Nat) :
    c.sendReceiveMaximum p release =
      if c.sendMaximumReached then
        .failRelease c (.disconnect DisconnectReasonCode.receiveMaximumExceeded) p.packetId
      else
        finishPublish { c with publishSendCount := c.sentCount (.v5Publish p) } (.v5Publish p)
          release := by
  unfold sendReceiveMaximum
  rw [if_pos h]
  -- without a maximum nothing is counted
  split
  · next hmax =>
    have hcount : c.sentCount (.v5Publish p) = c.publishSendCount := by simp [sentCount, hmax]
    have hreached : c.sendMaximumReached = false := by simp [sendMaximumReached, hmax]
    rw [hcount, hreached]
    rfl
  · next m hmax =>
    have hcount : c.sentCount (.v5Publish p) = (c.publishSendCount + 1) % 2 ^ 16 := by
      simp [sentCount, hmax]
    have hreached : c.sendMaximumReached = decide (c.publishSendCount = m) := by
      simp [sendMaximumReached, hmax, eq_comm]
    rw [hcount, hreached]
    simp only [decide_eq_true_eq]
    rfl

/-- A PUBLISH that has entered the session is stopped by a later check. -/
def publishFailsLate (c : Connection role pb) : PacketVariant pb → Bool
  | .v311Publish p => c.publishEnters (.v311Publish p) && c.notSendable
  | .v5Publish p =>
    c.publishEnters (.v5Publish p) &&
      (c.aliasRejected p || c.sendMaximumReached || c.notSendable)
  | _ => false

/-- A PUBLISH that fails late has been entered. -/
theorem publishFailsLate_enters {c : Connection role pb} {pv : PacketVariant pb}
    (h : c.publishFailsLate pv) : c.publishEnters pv := by
  cases pv with
  | v311Publish p => exact (Bool.and_eq_true_iff.mp h).1
  | v5Publish p => exact (Bool.and_eq_true_iff.mp h).1
  | _ => exact nomatch h

/-- Only a PUBLISH with QoS 1 or 2 is entered. -/
theorem publishEnters_qos {c : Connection role pb} {pv : PacketVariant pb}
    (h : c.publishEnters pv) : pv.type = .publish ∧ isQos12 pv.view.opts := by
  cases pv with
  | v311Publish p => exact ⟨rfl, (Bool.and_eq_true_iff.mp h).1⟩
  | v5Publish p =>
    simp only [publishEnters, Bool.and_eq_true] at h
    exact ⟨rfl, h.1.1.2⟩
  | _ => exact nomatch h

/-- Only an identifier in use is entered. -/
theorem publishEnters_isUsedId {c : Connection role pb} {pv : PacketVariant pb}
    (h : c.publishEnters pv) : c.pidMan.isUsedId pv.packetId := by
  cases pv with
  | v311Publish p => exact (Bool.and_eq_true_iff.mp h).2
  | v5Publish p =>
    simp only [publishEnters, Bool.and_eq_true] at h
    exact h.1.2
  | _ => exact nomatch h

/-- The table of topic aliases after a PUBLISH that has entered the session. -/
def aliasesAfter (c : Connection role pb) : PacketVariant pb → Option TopicAliasSend
  | .v5Publish p =>
    if c.aliasRejected p then
      if p.topic = [] then c.touchedAliases (getTopicAlias p.props) else c.topicAliasSend
    else (c.aliasApplied p).1
  | _ => c.topicAliasSend

/-- `publish_send_count_` after a PUBLISH that has entered the session. -/
def countAfter (c : Connection role pb) (pv : PacketVariant pb) : Nat :=
  match pv with
  | .v5Publish p =>
    if c.aliasRejected p || c.sendMaximumReached then c.publishSendCount else c.sentCount pv
  | _ => c.publishSendCount

/-- What a PUBLISH with QoS 1 or 2 does: it is stopped before it enters the session, or
    after that, or it goes out with its topic alias (or waits for a connection). -/
inductive PublishOutcome (c : Connection role pb) (pv : PacketVariant pb) (r : Sent role pb) :
    Prop where
  | stopped (henters : ¬ c.publishEnters pv) (h : Stopped c pv.packetId r)
  | plain (hqos : ¬ isQos12 pv.view.opts) (pv' : PacketVariant pb) (htype : pv'.type = .publish)
      (hid : pv'.packetId = pv.packetId) (hopts : pv'.view.opts = pv.view.opts) (hok : r.ok)
      (hconn : r.step.conn = { c with topicAliasSend := c.aliasesAfter pv })
      (hevents : r.step.events = if c.status = .connected then [.send pv' none] else [])
  | failed (hlate : c.publishFailsLate pv) (ec : ErrorCode) {c₁ : Connection role pb}
      (hc₁ : c₁ = { c.publishEntered pv with
        topicAliasSend := c.aliasesAfter pv, publishSendCount := c.countAfter pv })
      (hr : r = .failRelease c₁ ec pv.packetId)
  | entered (henters : c.publishEnters pv) (hlate : ¬ c.publishFailsLate pv)
      (pv' : PacketVariant pb) (htype : pv'.type = .publish) (hid : pv'.packetId = pv.packetId)
      (hopts : pv'.view.opts = pv.view.opts) (hok : r.ok)
      (hconn : r.step.conn = { c.publishEntered pv with
        topicAliasSend := c.aliasesAfter pv, publishSendCount := c.countAfter pv })
      (hevents : r.step.events = if c.status = .connected then
        [.send pv' (c.releaseIfSendError pv.packetId)] else [])

/-- Without a connection and without offline publishing the PUBLISH is refused. -/
theorem finishPublish_notSendable {c : Connection role pb} (h : c.notSendable)
    (pv : PacketVariant pb) (release : Option Nat) :
    c.finishPublish pv release =
      .failRelease c MqttError.packetNotAllowedToSend pv.packetId := by
  simp only [notSendable, Bool.and_eq_true, decide_eq_true_eq, Bool.not_eq_true'] at h
  rw [finishPublish, if_pos h.1, h.2]
  rfl

/-- The PUBLISH is sent if the connection is there. -/
theorem finishPublish_sendable {c : Connection role pb} (h : c.notSendable = false)
    (pv : PacketVariant pb) (release : Option Nat) :
    c.finishPublish pv release =
      ⟨⟨c, if c.status = .connected then [.send pv release] else []⟩, true⟩ := by
  unfold finishPublish
  by_cases hs : c.status = .connected
  · simp [hs, Sent.send]
  · have ho : c.offlinePublish = true := by
      by_contra ho
      simp [notSendable, hs, ho] at h
    simp [hs, ho]

/-- Entering a PUBLISH changes the store and the awaited identifiers only. -/
theorem publishEntered_eq (c : Connection role pb) (pv : PacketVariant pb) :
    c.publishEntered pv =
      { c with
        store := c.storeEntered pv
        qos2PublishProcessing :=
          if Pub.getQos pv.view.opts = Qos.exactlyOnce then
            c.qos2PublishProcessing.insert pv.packetId
          else c.qos2PublishProcessing
        pidPubrec :=
          if Pub.getQos pv.view.opts = Qos.exactlyOnce then c.pidPubrec.insert pv.packetId
          else c.pidPubrec
        pidPuback :=
          if Pub.getQos pv.view.opts = Qos.exactlyOnce then c.pidPuback
          else c.pidPuback.insert pv.packetId } := waitAck_eq _ _ _

/-- The result for a v3.1.1 PUBLISH that has entered the session. -/
theorem sendPublishV311_entered {c : Connection role pb} {p : V311.PublishPacket pb}
    (h : c.publishEnters (.v311Publish p)) :
    c.sendPublishV311 p =
      (c.publishEntered (.v311Publish p)).finishPublish (.v311Publish p)
        (c.releaseIfSendError p.packetId) := by
  obtain ⟨hqos, hused⟩ := Bool.and_eq_true_iff.mp h
  unfold sendPublishV311 publishEntered storeEntered releaseIfSendError
  rw [if_pos hqos, if_pos hused]
  cases c.storesPublish <;> rfl

/-- What becomes of a v3.1.1 PUBLISH -/
theorem sendPublishV311_outcome (c : Connection role pb) (p : V311.PublishPacket pb) :
    PublishOutcome c (.v311Publish p) (c.sendPublishV311 p) := by
  by_cases henters : c.publishEnters (.v311Publish p)
  · have hs : (c.publishEntered (.v311Publish p)).notSendable = c.notSendable := by
      rw [publishEntered_eq]
      rfl
    rw [sendPublishV311_entered henters]
    -- the packet has entered, and only the state of the connection decides
    cases hlate : c.notSendable with
    | true =>
      rw [finishPublish_notSendable (hs.trans hlate)]
      refine .failed (by rw [publishFailsLate, henters, hlate]; rfl) _ ?_ rfl
      rw [publishEntered_eq]
      rfl
    | false =>
      rw [finishPublish_sendable (hs.trans hlate)]
      refine .entered henters (by rw [publishFailsLate, henters, hlate]; exact nofun)
        (.v311Publish p) rfl rfl rfl rfl ?_ ?_ <;>
      · rw [publishEntered_eq]
        rfl
  · unfold sendPublishV311
    -- it has not entered: QoS 0, or an identifier that is not in use
    by_cases hqos : isQos12 p.opts
    · have hused : ¬ c.pidMan.isUsedId p.packetId := fun hused =>
        henters (by rw [publishEnters, hqos, hused]; rfl)
      rw [if_pos hqos, if_neg hused]
      exact .stopped henters (stopped_fail c _ _)
    · rw [if_neg hqos]
      cases hs : c.notSendable with
      | true =>
        rw [finishPublish_notSendable hs]
        exact .stopped henters (stopped_failRelease c _ _ (.inl rfl))
      | false =>
        rw [finishPublish_sendable hs]
        exact .plain hqos (.v311Publish p) rfl rfl rfl rfl rfl rfl

/-- Without a connection the table of topic aliases is not changed. -/
theorem aliasApplied_of_not_connected {c : Connection role pb} {p : V5.PublishPacket pb}
    (halias : ¬ (c.status ≠ .connected ∧ (getTopicAlias p.props).isSome))
    (hstatus : c.status ≠ .connected) : (c.aliasApplied p).1 = c.topicAliasSend := by
  have hnone : getTopicAlias p.props = none := by
    cases h : getTopicAlias p.props with
    | none => rfl
    | some ta => exact absurd ⟨hstatus, by rw [h]; rfl⟩ halias
  simp only [aliasApplied, hnone, if_neg hstatus, touchedAliases, validateTopicAlias, ite_self]

/-- A connected endpoint may send. -/
theorem notSendable_status {c : Connection role pb} (h : c.notSendable) :
    c.status ≠ .connected := by
  simp only [notSendable, Bool.and_eq_true, decide_eq_true_eq] at h
  exact h.1

/-- A v5.0 PUBLISH with QoS 0 passes the topic alias only. -/
theorem sendPublishV5_plain {c : Connection role pb} {p : V5.PublishPacket pb}
    (hqos : ¬ isQos12 p.opts)
    (halias : ¬ (c.status ≠ .connected ∧ (getTopicAlias p.props).isSome)) :
    PublishOutcome c (.v5Publish p) (c.sendTopicAlias p false none) := by
  have hopts := c.aliasApplied_opts p
  have henters : ¬ c.publishEnters (.v5Publish p) := fun h => by
    simp only [publishEnters, Bool.and_eq_true] at h
    exact hqos h.1.1.2
  rw [sendTopicAlias_eq]
  split
  · refine .stopped henters (stopped_failRelease c _ _ ?_)
    split
    · exact .inr ⟨_, rfl⟩
    · exact .inl rfl
  -- the packet is sent, or the state of the connection stops it
  · next hrej =>
    rw [sendReceiveMaximum, if_neg (by rw [hopts.1]; exact hqos)]
    cases hs : c.notSendable with
    | true =>
      rw [finishPublish_notSendable (by exact hs)]
      rw [show (PacketVariant.v5Publish (c.aliasApplied p).2).packetId = p.packetId from hopts.2]
      have hkept := aliasApplied_of_not_connected halias (notSendable_status hs)
      exact .stopped henters (stopped_failRelease c _ _ (.inl hkept))
    | false =>
      rw [finishPublish_sendable (by exact hs)]
      refine .plain hqos (.v5Publish (c.aliasApplied p).2) rfl hopts.2 hopts.1 rfl ?_ rfl
      rw [aliasesAfter, if_neg hrej]

/-- What becomes of a v5 PUBLISH -/
theorem sendPublishV5_outcome (c : Connection role pb) (p : V5.PublishPacket pb) :
    PublishOutcome c (.v5Publish p) (c.sendPublishV5 p) := by
  have hopts := c.aliasApplied_opts p
  -- entered, it can still fail at its alias, at the Receive Maximum or at the status, in this order
  by_cases henters : c.publishEnters (.v5Publish p)
  · have hqos : isQos12 p.opts := by
      simp only [publishEnters, Bool.and_eq_true] at henters
      exact henters.1.1.2
    rw [sendPublishV5_entered henters rfl]
    cases hrej : c.aliasRejected p with
    | true =>
      rw [if_pos rfl]
      refine .failed (by rw [publishFailsLate, henters, hrej]; rfl) _ ?_ rfl
      rw [publishEntered_eq, aliasesAfter, countAfter, hrej]
      rfl
    | false =>
      rw [if_neg Bool.false_ne_true, sendReceiveMaximum_eq (by rw [hopts.1]; exact hqos),
        publishEntered_eq]
      change PublishOutcome c _ (if c.sendMaximumReached then _ else _)
      cases hmax : c.sendMaximumReached with
      | true =>
        rw [if_pos rfl, hopts.2]
        refine .failed (by rw [publishFailsLate, henters, hrej, hmax]; rfl) _ ?_ rfl
        rw [publishEntered_eq, aliasesAfter, countAfter, hrej, hmax]
        rfl
      | false =>
        rw [if_neg Bool.false_ne_true]
        cases hs : c.notSendable with
        | true =>
          rw [finishPublish_notSendable (by exact hs),
            show (PacketVariant.v5Publish (c.aliasApplied p).2).packetId = p.packetId from hopts.2]
          refine .failed (by rw [publishFailsLate, henters, hrej, hmax, hs]; rfl) _ ?_ rfl
          rw [publishEntered_eq, aliasesAfter, countAfter, hrej, hmax]
          rfl
        | false =>
          rw [finishPublish_sendable (by exact hs)]
          refine .entered henters (by rw [publishFailsLate, henters, hrej, hmax, hs]; exact nofun)
            (.v5Publish (c.aliasApplied p).2) rfl hopts.2 hopts.1 rfl ?_ rfl
          rw [publishEntered_eq, aliasesAfter, countAfter, hrej, hmax]
          rfl
  · unfold sendPublishV5
    -- not entered, it stops at a check or is one of QoS 0
    by_cases halias : c.status ≠ .connected ∧ (getTopicAlias p.props).isSome
    · rw [if_pos halias]
      exact .stopped henters (stopped_failRelease c _ _ (.inl rfl))
    · rw [if_neg halias]
      by_cases hqos : isQos12 p.opts
      · rw [if_pos hqos]
        by_cases hused : c.pidMan.isUsedId p.packetId
        · obtain ⟨hstores, hnone⟩ := storedPublishV5_none_of_not_enters henters halias hqos hused
          obtain ⟨r, hr, hstopped⟩ := storePublishV5_none hnone
          rw [if_pos hused, if_pos hstores, hr]
          exact .stopped henters hstopped
        · rw [if_neg hused]
          exact .stopped henters (stopped_fail c _ _)
      · rw [if_neg hqos]
        exact sendPublishV5_plain hqos halias

/-! ### All packets -/

/-- What `send` does with a packet. -/
inductive SendOutcome (c : Connection role pb) (pv : PacketVariant pb) (s : Step role pb) :
    Prop where
  | quiet (h : QuietStep c s)
  | tooLarge (hallowed : c.sendAllowed pv) (hsize : ¬ c.validateMaximumPacketSize pv.size)
      (hown : pv.ownPacketId) (hid : pv.packetId ≠ 0)
      (hconn : s.conn = { c with pidMan := c.pidMan.releaseId pv.packetId })
      (hevents : exchanges s.events = [])
  | connect (hallowed : c.sendAllowed pv) (htype : pv.type = .connect)
      (hstatus : c.status = .disconnected) (clean : Bool) {tar prm mps ns int}
      {c₁ : Connection role pb}
      (hc₁ : c₁ = { c with
        status := .connecting, isClient := true, needStore := ns, publishSendMax := none
        publishRecvMax := prm, publishSendCount := 0, topicAliasSend := none
        topicAliasRecv := tar, publishRecv := ∅, qos2PublishProcessing := ∅
        pidSuback := ∅, pidUnsuback := ∅
        pidMan := if clean then c.pidMan.clear else c.pidMan
        store := if clean then .empty else c.store
        pidPuback := if clean then ∅ else c.pidPuback
        pidPubrec := if clean then ∅ else c.pidPubrec
        pidPubcomp := if clean then ∅ else c.pidPubcomp
        maximumPacketSizeRecv := mps, pingreqSendIntervalMs := int })
      (hconn : Quiet c₁ s.conn)
      (hevents : exchanges s.events = [.send pv none])
  | connack (hallowed : c.sendAllowed pv) (htype : pv.type = .connack)
      (hstatus : c.status = .connecting) {st tar prm mps a b d} {c₁ : Connection role pb}
      (hst : st = if pv.acceptsConnection then .connected else .disconnected)
      (hc₁ : c₁ = { c with
        status := st, topicAliasRecv := tar, publishRecvMax := prm, maximumPacketSizeRecv := mps
        pingreqSendSet := a, pingreqRecvSet := b, pingrespRecvSet := d })
      (hconn : Quiet c₁.sendStored.conn s.conn)
      (hevents : exchanges s.events = exchanges c₁.sendStored.events)
  | pubrecRefused {p : V5.PubResponsePacket pb} (hpv : pv = .v5Pubrec p)
      (hcode : reasonCodeFailed p.code)
      (hconn : Quiet
        { c with qos2PublishHandled := c.qos2PublishHandled.erase p.packetId } s.conn)
      (hevents : exchanges s.events = [])
  | pubrel (hallowed : c.sendAllowed pv) (htype : pv.type = .pubrel)
      (hstatus : c.status = .connected) (p : StorePacket pb) (hp : p.toPacketVariant = pv)
      (hconn : Quiet
        { c with
          store := if c.needStore then c.store.add p else c.store
          pidPubcomp := c.pidPubcomp.insert pv.packetId } s.conn)
      (hevents : exchanges s.events = [.send pv none])
  | subscribe (hallowed : c.sendAllowed pv) (htype : pv.type = .subscribe)
      (hconn : Quiet { c with pidSuback := c.pidSuback.insert pv.packetId } s.conn)
      (hevents : exchanges s.events = [])
  | unsubscribe (hallowed : c.sendAllowed pv) (htype : pv.type = .unsubscribe)
      (hconn : Quiet { c with pidUnsuback := c.pidUnsuback.insert pv.packetId } s.conn)
      (hevents : exchanges s.events = [])
  | publish (hallowed : c.sendAllowed pv) (htype : pv.type = .publish) {r : Sent role pb}
      (h : PublishOutcome c pv r) (hconn : Quiet r.step.conn s.conn)
      (hevents : exchanges s.events = exchanges r.step.events)

/-- A refusal is not a success. -/
theorem failRelease_ok (c : Connection role pb) (ec : ErrorCode) (packetId : Nat) :
    (Sent.failRelease c ec packetId).ok = false := by
  unfold Sent.failRelease
  split <;> rfl

/-- After a result that is not for a CONNACK only a timer is set. -/
theorem send_of_actual {c : Connection role pb} {pv : PacketVariant pb}
    (hallowed : c.sendAllowed pv) (hsize : c.validateMaximumPacketSize pv.size)
    (htype : pv.type ≠ .connack) :
    Quiet (c.processSendActual pv).step.conn (c.send pv).conn ∧
      exchanges (c.send pv).events = exchanges (c.processSendActual pv).step.events := by
  rw [send_of_allowed hallowed hsize, if_neg htype]
  split
  · have h := quietStep_resetPingreqSend (c.processSendActual pv).step.conn
    refine ⟨h.1, ?_⟩
    rw [Step.events_andThen, exchanges_append, h.2, List.append_nil]
  · exact ⟨.refl _, rfl⟩

/-- The status that a packet needs to be sent -/
theorem sendAllowed_status {c : Connection role pb} {pv : PacketVariant pb}
    (h : c.sendAllowed pv) :
    (pv.type = .connect → c.status = .disconnected) ∧
    (pv.type = .connack → c.status = .connecting) ∧
    (pv.type = .pubrel → c.status = .connected) := by
  simp only [sendAllowed, Bool.and_eq_true] at h
  have hs := h.1.2
  refine ⟨fun ht => ?_, fun ht => ?_, fun ht => ?_⟩ <;>
  · rw [ht] at hs
    exact of_decide_eq_true hs

/-- A v3.1.1 CONNECT sets up the connection anew. -/
theorem sendConnectV311_eq (c : Connection role pb) (p : V311.ConnectPacket) :
    ∃ ns int, c.sendConnectV311 p =
      { c with
        status := .connecting, isClient := true, needStore := ns, publishSendMax := none
        publishRecvMax := none, publishSendCount := 0, topicAliasSend := none
        topicAliasRecv := none, publishRecv := ∅, qos2PublishProcessing := ∅
        pidSuback := ∅, pidUnsuback := ∅
        pidMan := if p.cleanSession then c.pidMan.clear else c.pidMan
        store := if p.cleanSession then .empty else c.store
        pidPuback := if p.cleanSession then ∅ else c.pidPuback
        pidPubrec := if p.cleanSession then ∅ else c.pidPubrec
        pidPubcomp := if p.cleanSession then ∅ else c.pidPubcomp
        pingreqSendIntervalMs := int } := by
  -- the interval is that of the keep alive, if none was set
  by_cases hk : p.keepAlive ≠ 0 ∧ (c.initialized true).pingreqSendIntervalMs = none
  · simp only [sendConnectV311, if_pos hk]
    cases p.cleanSession <;> exact ⟨_, _, rfl⟩
  · simp only [sendConnectV311, if_neg hk]
    cases p.cleanSession <;> exact ⟨_, _, rfl⟩

/-- A v5 CONNECT sets up the connection anew. -/
theorem sendConnectV5_eq (c : Connection role pb) (p : V5.ConnectPacket) :
    ∃ tar prm mps ns int, c.sendConnectV5 p =
      { c with
        status := .connecting, isClient := true, needStore := ns, publishSendMax := none
        publishRecvMax := prm, publishSendCount := 0, topicAliasSend := none
        topicAliasRecv := tar, publishRecv := ∅, qos2PublishProcessing := ∅
        pidSuback := ∅, pidUnsuback := ∅
        pidMan := if p.cleanStart then c.pidMan.clear else c.pidMan
        store := if p.cleanStart then .empty else c.store
        pidPuback := if p.cleanStart then ∅ else c.pidPuback
        pidPubrec := if p.cleanStart then ∅ else c.pidPubrec
        pidPubcomp := if p.cleanStart then ∅ else c.pidPubcomp
        maximumPacketSizeRecv := mps, pingreqSendIntervalMs := int } := by
  simp only [sendConnectV5]
  -- clean start comes before the properties
  generalize hc₀ : (if p.cleanStart = true then _ else _ : Connection role pb) = c₀
  obtain ⟨tar, prm, mps, ns, hprops⟩ := foldl_sendConnectProp p.props c₀
  rw [hprops, ← hc₀]
  by_cases hk : p.keepAlive ≠ 0 ∧ (c.initialized true).pingreqSendIntervalMs = none
  · simp only [if_pos hk]
    cases p.cleanStart <;> exact ⟨_, _, _, _, _, rfl⟩
  · simp only [if_neg hk]
    cases p.cleanStart <;> exact ⟨_, _, _, _, _, rfl⟩

/-- A v3.1.1 CONNACK decides the status. -/
theorem sendConnackV311_eq (c : Connection role pb) (p : V311.ConnackPacket) :
    ∃ a b d, (c.sendConnackV311 p).conn =
      { c with
        status :=
          if (PacketVariant.v311Connack p : PacketVariant pb).acceptsConnection then .connected
          else .disconnected
        pingreqSendSet := a, pingreqRecvSet := b, pingrespRecvSet := d } ∧
      exchanges (c.sendConnackV311 p).events = [] := by
  have haccepts : (PacketVariant.v311Connack p : PacketVariant pb).acceptsConnection =
      decide (p.code = 0) := rfl
  unfold sendConnackV311
  rw [haccepts]
  -- the connection is accepted, or the timers are cancelled
  split
  · next hcode =>
    refine ⟨c.pingreqSendSet, c.pingreqRecvSet, c.pingrespRecvSet, ?_, rfl⟩
    rw [decide_eq_true hcode]
    rfl
  · next hcode =>
    refine ⟨false, false, false, ?_, exchanges_cancelTimers _⟩
    rw [cancelTimers_conn, decide_eq_false hcode]
    rfl

/-- A v5 CONNACK decides the status. -/
theorem sendConnackV5_eq (c : Connection role pb) (p : V5.ConnackPacket) :
    ∃ tar prm mps a b d, (c.sendConnackV5 p).conn =
      { c with
        status :=
          if (PacketVariant.v5Connack p : PacketVariant pb).acceptsConnection then .connected
          else .disconnected
        topicAliasRecv := tar, publishRecvMax := prm, maximumPacketSizeRecv := mps
        pingreqSendSet := a, pingreqRecvSet := b, pingrespRecvSet := d } ∧
      exchanges (c.sendConnackV5 p).events = [] := by
  have haccepts : (PacketVariant.v5Connack p : PacketVariant pb).acceptsConnection =
      decide (p.code = ConnectReasonCode.success) := rfl
  unfold sendConnackV5
  rw [haccepts]
  -- the properties count for an accepted connection only
  split
  · next hcode =>
    obtain ⟨tar, prm, mps, hprops⟩ := foldl_sendConnackProp p.props
      ({ c with status := .connected } : Connection role pb)
    refine ⟨tar, prm, mps, c.pingreqSendSet, c.pingreqRecvSet, c.pingrespRecvSet, ?_, rfl⟩
    rw [decide_eq_true hcode]
    exact hprops
  · next hcode =>
    refine ⟨c.topicAliasRecv, c.publishRecvMax, c.maximumPacketSizeRecv, false, false, false, ?_,
      exchanges_cancelTimers _⟩
    rw [cancelTimers_conn, decide_eq_false hcode]
    rfl

/-- A PUBREL takes the place of its PUBLISH. -/
theorem sendPubrel_eq (c : Connection role pb) (p : StorePacket pb) :
    c.sendPubrel p =
      { c with
        store := if c.needStore then c.store.add p else c.store
        pidPubcomp := c.pidPubcomp.insert p.packetId } := by
  by_cases h : c.needStore = true
  · simp only [sendPubrel, if_pos h]
  · simp only [sendPubrel, if_neg h]

/-- A CONNACK is followed by the store. -/
theorem sendConnack_outcome {c : Connection role pb} {pv : PacketVariant pb}
    (hallowed : c.sendAllowed pv) (hsize : c.validateMaximumPacketSize pv.size)
    (htype : pv.type = .connack) {r : Step role pb} (hr : c.processSendActual pv = ⟨r, true⟩)
    {st tar prm mps a b d} (hst : st = if pv.acceptsConnection then .connected else .disconnected)
    (hconn : r.conn = { c with
      status := st, topicAliasRecv := tar, publishRecvMax := prm, maximumPacketSizeRecv := mps
      pingreqSendSet := a, pingreqRecvSet := b, pingrespRecvSet := d })
    (hevents : exchanges r.events = []) : SendOutcome c pv (c.send pv) := by
  rw [send_of_allowed hallowed hsize, hr, if_pos rfl, if_pos htype]
  have hq := quietStep_resetPingreqSend r.conn.sendStored.conn
  refine .connack hallowed htype ((sendAllowed_status hallowed).2.1 htype) hst hconn hq.1 ?_
  rw [Step.events_andThen, exchanges_append, Step.events_andThen, exchanges_append, hevents]
  exact (congrArg _ hq.2).trans (List.append_nil _)

/-- `send` does one of the listed things. -/
theorem send_cases (pv : PacketVariant pb) (c : Connection role pb) :
    SendOutcome c pv (c.send pv) := by
  by_cases hallowed : c.sendAllowed pv
  · by_cases hsize : c.validateMaximumPacketSize pv.size
    · have hstatus := sendAllowed_status hallowed
      have hactual := send_of_actual hallowed hsize
      cases pv with
      | v311Connect p =>
        obtain ⟨ns, int, heq⟩ := c.sendConnectV311_eq p
        exact .connect hallowed rfl (hstatus.1 rfl) p.cleanSession heq (hactual nofun).1
          (hactual nofun).2
      | v5Connect p =>
        obtain ⟨tar, prm, mps, ns, int, heq⟩ := c.sendConnectV5_eq p
        exact .connect hallowed rfl (hstatus.1 rfl) p.cleanStart heq (hactual nofun).1
          (hactual nofun).2
      | v311Connack p =>
        obtain ⟨a, b, d, hconn, hevents⟩ := c.sendConnackV311_eq p
        refine sendConnack_outcome hallowed hsize rfl rfl rfl hconn ?_
        rw [Step.events_emit, exchanges_append, hevents]
        rfl
      | v5Connack p =>
        obtain ⟨tar, prm, mps, a, b, d, hconn, hevents⟩ := c.sendConnackV5_eq p
        refine sendConnack_outcome hallowed hsize rfl rfl rfl hconn ?_
        rw [Step.events_emit, exchanges_append, hevents]
        rfl
      | v311Publish p =>
        exact .publish hallowed rfl (c.sendPublishV311_outcome p) (hactual nofun).1
          (hactual nofun).2
      | v5Publish p =>
        exact .publish hallowed rfl (c.sendPublishV5_outcome p) (hactual nofun).1
          (hactual nofun).2
      | v311Pubrel p =>
        refine .pubrel hallowed rfl (hstatus.2.2 rfl) (.v311Pubrel p) rfl ?_ (hactual nofun).2
        exact sendPubrel_eq c (.v311Pubrel p) ▸ (hactual nofun).1
      | v5Pubrel p =>
        refine .pubrel hallowed rfl (hstatus.2.2 rfl) (.v5Pubrel p) rfl ?_ (hactual nofun).2
        exact sendPubrel_eq c (.v5Pubrel p) ▸ (hactual nofun).1
      | v311Subscribe p | v5Subscribe p =>
        exact .subscribe hallowed rfl (hactual nofun).1 (hactual nofun).2
      | v311Unsubscribe p | v5Unsubscribe p =>
        exact .unsubscribe hallowed rfl (hactual nofun).1 (hactual nofun).2
      | v5Pubrec p =>
        by_cases hcode : reasonCodeFailed p.code
        · refine .pubrecRefused rfl hcode (.trans ?_ (hactual nofun).1) (hactual nofun).2
          rw [processSendActual, sendPubrecV5, if_pos hcode]
          exact quiet_publishRecv ({ c with
            qos2PublishHandled := c.qos2PublishHandled.erase p.packetId } : Connection role pb) _
        · exact .quiet (send_quiet (by simpa [PacketVariant.isQuiet] using hcode) c)
      | _ => exact .quiet (send_quiet rfl c)
    -- a packet that is too large gives its own identifier back, if it has one
    · by_cases hown : pv.ownPacketId ∧ pv.packetId ≠ 0
      · have hs : c.send pv = ⟨{ c with pidMan := c.pidMan.releaseId pv.packetId },
            [.error MqttError.packetNotAllowedToSend, .packetIdRelease pv.packetId]⟩ := by
          rw [send_of_too_large hallowed hsize, if_pos hown.1, Sent.failRelease, if_pos hown.2]
          rfl
        rw [hs]
        exact .tooLarge hallowed hsize hown.1 hown.2 rfl rfl
      · have hs : c.send pv = ⟨c, [.error MqttError.packetNotAllowedToSend]⟩ := by
          rw [send_of_too_large hallowed hsize, Sent.failRelease, if_neg]
          · rfl
          · split
            · next h => exact fun hid => hown ⟨h, hid⟩
            · exact not_not.mpr rfl
        rw [hs]
        exact .quiet ⟨.refl c, rfl⟩
  · rw [send_of_not_allowed hallowed]
    exact .quiet ⟨.refl c, rfl⟩

end Connection

end AsyncMqtt
