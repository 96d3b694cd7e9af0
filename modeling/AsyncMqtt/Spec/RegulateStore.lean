import AsyncMqtt.Spec.PublishLengths
import AsyncMqtt.Spec.SendNotLost
import AsyncMqtt.Spec.StoreSteps

/-!
# A PUBLISH that is regulated for the store

`regulate_for_store` gives a PUBLISH the form in which it can be stored: with its topic and
without a topic alias. `send` makes a copy of the same form when it stores a PUBLISH. The one
changes the packet in place and removes every topic alias, the other builds a new packet from
the properties without the first topic alias.

## Key results

- `Connection.regulateForStore_eq`: the result, by the topic that `send` would store
- `Connection.regulate_agrees_iff`: in every reachable state, exactly when the result is as it
  should be and the same as the stored copy
- `Connection.regulate_without_table`: an alias on a connection that has no table
- `Connection.stored_copy_keeps_alias`: the second of two aliases
-/

namespace AsyncMqtt

/-! ### PUBLISH packets -/

theorem eraseTopicAlias_eq_iff (props : Properties) :
    Connection.eraseTopicAlias props = props.filter (·.id ≠ .topicAlias) ↔
      (props.filter (·.id = .topicAlias)).length ≤ 1 := by
  unfold Connection.eraseTopicAlias
  induction props with
  | nil => exact iff_of_true rfl (Nat.zero_le 1)
  | cons prop props ih =>
    by_cases hid : prop.id = .topicAlias
    · -- the rest stays as it is, so no other alias may be in it
      have hrest : props = props.filter (·.id ≠ .topicAlias) ↔
          (props.filter (·.id = .topicAlias)).length = 0 := by
        rw [List.length_eq_zero_iff, List.filter_eq_nil_iff, eq_comm, List.filter_eq_self]
        simp
      simpa [List.eraseP_cons, List.filter_cons, hid] using hrest
    · simpa [List.eraseP_cons, List.filter_cons, hid] using ih

namespace V5.PublishPacket

variable {pb : PacketIdBytes} {p q : PublishPacket pb}

/-- The packet is an object of its class, whose lengths are those of its parts. -/
structure WellFormed (p : PublishPacket pb) : Prop extends p.Sized where
  fixedHeader : makeFixedHeader .publish 0b0000 ||| p.fixedHeader = p.fixedHeader
  packetIdBuf : p.packetIdBuf.length = pb.bytes

theorem packetIdSize_eq (hid : p.packetId ≠ 0) (hlen : p.packetIdBuf.length = pb.bytes) :
    p.packetIdSize = pb.bytes := by
  rw [packetIdSize, if_pos hid, List.length_take, hlen, Nat.min_self]

set_option maxRecDepth 4000 in
theorem publish_header_idem : ∀ v : UInt8, makeFixedHeader .publish 0b0000 |||
    (makeFixedHeader .publish 0b0000 ||| v) = makeFixedHeader .publish 0b0000 ||| v := by
  decide

/-- The constructor makes such packets. -/
theorem wellFormed_of_publishPacket {packetId : Fin pb.limit} {topic : Buffer}
    {payloads : List Buffer} {pubopts : UInt8} {props : Properties}
    (h : publishPacket pb packetId topic payloads pubopts props = .ok p) : p.WellFormed := by
  simp only [publishPacket, Except.bind_eq_ok, throwIf_eq_ok, numericCast16_eq_ok,
    numericCast32_eq_ok, validateProperties_eq_ok, storePublishPacketId_eq_ok,
    Except.pure_eq_ok] at h
  obtain ⟨_, -, _, ⟨htopic, rfl⟩, _, -, _, ⟨-, rfl⟩, _, -, _, ⟨hlt, -⟩, idBuf, hid, rfl⟩ := h
  have hlen : idBuf.length = pb.bytes := by
    rcases hid with ⟨-, -, rfl⟩ | ⟨-, -, rfl⟩ <;> exact length_endianStore _ _
  refine ⟨⟨Nat.le_of_lt_succ htopic, rfl, rfl, ?_, hlt⟩, publish_header_idem pubopts, hlen⟩
  rw [length_body]
  unfold packetIdSize payload PublishPacket.packetId
  dsimp only
  rw [length_endianStore, List.length_flatten]
  -- the packet identifier is there for QoS 1 and 2
  rcases hid with ⟨hqos, -, rfl⟩ | ⟨hqos, hne, rfl⟩
  · have hload : endianLoad pb.bytes (endianStore pb.bytes 0) = 0 :=
      endianLoad_endianStore (Nat.pow_pos (by decide))
    have hidSize : V311.publishPacketIdSize pb pubopts = 0 := by
      rcases hqos with hqos | hqos <;>
        simp [V311.publishPacketIdSize, hqos, Qos.atLeastOnce, Qos.exactlyOnce]
    rw [hload, hidSize, if_neg (not_not_intro rfl)]
    omega
  · have hload : endianLoad pb.bytes (endianStore pb.bytes packetId) = packetId.val :=
      endianLoad_endianStore packetId.isLt
    have hidSize : V311.publishPacketIdSize pb pubopts = pb.bytes := by
      simp [V311.publishPacketIdSize, hqos, Qos.atLeastOnce, Qos.exactlyOnce]
    rw [hload, hidSize, if_pos hne, List.length_take, hlen]
    omega

end V5.PublishPacket

namespace Connection

variable {role : Role} {pb : PacketIdBytes} {c : Connection role pb} {p : V5.PublishPacket pb}

/-- The copy that `send` stores is the packet with its topic, without its first topic alias. -/
theorem storePacket_eq_rewritten (hp : p.WellFormed) (hqos : isQos12 p.opts)
    {sp : V5.PublishPacket pb} {topic : Buffer} (h : storePacket p topic = .ok sp) :
    sp = p.rewritten topic (eraseTopicAlias p.props) := by
  simp only [storePacket, V5.publishPacket, Except.bind_eq_ok, throwIf_eq_ok, numericCast16_eq_ok,
    numericCast32_eq_ok, validateProperties_eq_ok, V5.storePublishPacketId_eq_ok,
    Except.pure_eq_ok] at h
  obtain ⟨_, -, _, ⟨-, rfl⟩, _, -, _, ⟨-, rfl⟩, _, -, _, ⟨-, rfl⟩, idBuf, hid, rfl⟩ := h
  have h12 := isQos12_iff.mp hqos
  -- the copy is stored with the identifier of the original
  rcases hid with ⟨hqos, -⟩ | ⟨-, hne, rfl⟩
  · rcases h12 with h12 | h12 <;> rw [h12] at hqos <;> exact absurd hqos (by decide)
  · have hidSize : V311.publishPacketIdSize pb p.opts = p.packetIdSize := by
      rw [V5.PublishPacket.packetIdSize_eq hne hp.packetIdBuf]
      exact if_pos h12
    have hbuf : endianStore pb.bytes p.packetId = p.packetIdBuf := by
      have hstore := BigEndian.store_load p.packetIdBuf
      rw [hp.packetIdBuf] at hstore
      show BigEndian.store pb.bytes (BigEndian.load (p.packetIdBuf.take pb.bytes)) = _
      rw [List.take_of_length_le (Nat.le_of_eq hp.packetIdBuf), hstore]
    have hlength : 2 + topic.length + V311.publishPacketIdSize pb p.opts +
        (p.payloads.map List.length).sum +
        ((valToVariableBytes (Properties.size (eraseTopicAlias p.props))).length +
          Properties.size (eraseTopicAlias p.props)) =
        p.lengthWith topic (eraseTopicAlias p.props) := by
      rw [hidSize, V5.PublishPacket.lengthWith, V5.PublishPacket.payload, List.length_flatten]
      omega
    rw [hlength, hbuf, show makeFixedHeader .publish 0b0000 ||| p.opts = p.fixedHeader from
      hp.fixedHeader]
    rfl

/-! ### The topic -/

/-- The alias of a packet without a topic is looked up although there is no table. -/
def MissesTable (c : Connection role pb) (p : V5.PublishPacket pb) : Prop :=
  p.topic = [] ∧ (getTopicAlias p.props).isSome ∧ c.topicAliasSend = none

/-- The two ways to look up an alias find the same topic. -/
theorem storedTopic_of_empty (htopic : p.topic = []) :
    c.storedTopic p = (getTopicAlias p.props).bind fun ta =>
      c.topicAliasSend.bind fun t =>
        if t.findWithoutTouch ta = [] then none else some (t.findWithoutTouch ta) := by
  unfold storedTopic validateTopicAlias
  rw [if_pos htopic]
  cases hta : getTopicAlias p.props with
  | none => rfl
  | some ta =>
    cases ht : c.topicAliasSend with
    | none => rfl
    | some t =>
      simp only [Option.bind_some]
      by_cases hrange : c.validateTopicAliasRange ta = true
      · rw [if_pos hrange, ← TopicAliasSend.findTopic_fst t ta c.now]
      · -- an alias that is out of range has no topic
        have hnil : t.findWithoutTouch ta = [] := by
          rw [validateTopicAliasRange_iff ht] at hrange
          unfold TopicAliasSend.findWithoutTouch
          rw [if_neg hrange]
        rw [if_neg hrange, if_pos hnil]

theorem storedTopic_ne_nil {topic : Buffer} (h : c.storedTopic p = some topic) : topic ≠ [] := by
  by_cases htopic : p.topic = []
  · rw [storedTopic_of_empty htopic] at h
    obtain ⟨ta, -, h⟩ := Option.bind_eq_some_iff.mp h
    obtain ⟨t, -, h⟩ := Option.bind_eq_some_iff.mp h
    split at h
    · exact nomatch h
    · next hne => exact Option.some.inj h ▸ hne
  · rw [storedTopic, if_neg htopic] at h
    exact Option.some.inj h ▸ htopic

/-- The topics of a table fit the length field of a topic. -/
def TopicsFit (t : TopicAliasSend) : Prop :=
  t.Valid ∧ ∀ q ∈ TopicAliasSend.pairs t.entries, q.2.length ≤ 65535

theorem length_storedTopic_le (hp : p.WellFormed) (hc : c.Aliases TopicsFit) {topic : Buffer}
    (h : c.storedTopic p = some topic) : topic.length ≤ 65535 := by
  have hne := storedTopic_ne_nil h
  by_cases htopic : p.topic = []
  · rw [storedTopic_of_empty htopic] at h
    obtain ⟨ta, -, h⟩ := Option.bind_eq_some_iff.mp h
    obtain ⟨t, ht, h⟩ := Option.bind_eq_some_iff.mp h
    split at h
    · exact nomatch h
    · obtain rfl := Option.some.inj h
      have hfits := hc t ht
      exact hfits.2 _ ((TopicAliasSend.find_eq_iff hfits.1 hne).mp rfl)
  · rw [storedTopic, if_neg htopic] at h
    exact Option.some.inj h ▸ hp.topicName_le

/-! ### Regulating -/

/-- What `regulate_for_store` comes to where it does not miss the table. -/
theorem regulateForStore_eq (hp : p.WellFormed) (hc : c.Aliases TopicsFit)
    (htable : ¬ c.MissesTable p) :
    c.regulateForStore p =
      match c.storedTopic p with
      | none => .failure MqttError.packetNotRegulated p
      | some topic =>
        if p.lengthWith topic p.propsWithoutTopicAlias < 2 ^ 32 then
          .success (p.rewritten topic p.propsWithoutTopicAlias)
        else .threw .badNumericCast := by
  have hsized := hp.toSized
  by_cases htopic : p.topic = []
  · unfold regulateForStore
    rw [if_pos htopic, storedTopic_of_empty htopic]
    -- without a topic the alias has to stand for one
    cases hta : getTopicAlias p.props with
    | none => rfl
    | some ta =>
      cases ht : c.topicAliasSend with
      | none => exact absurd ⟨htopic, by rw [hta]; rfl, ht⟩ htable
      | some t =>
        simp only [Option.bind_some]
        split
        · rfl
        · next hne =>
          have hlen : (t.findWithoutTouch ta).length ≤ 65535 := by
            apply length_storedTopic_le hp hc
            rw [storedTopic_of_empty htopic, hta, ht]
            exact if_neg hne
          rw [V5.removeTopicAliasAddTopic_eq hsized htopic hlen]
          dsimp only
          split <;> rfl
  -- the topic is there, and the aliases are removed
  · unfold regulateForStore
    rw [if_neg htopic, storedTopic, if_neg htopic, V5.removeTopicAlias_eq hsized]
    dsimp only
    show RegulateResult.ofExcept _ = if p.lengthWith p.topicName _ < 2 ^ 32 then _ else _
    split <;> rfl

theorem regulateForStore_missesTable (h : c.MissesTable p) :
    c.regulateForStore p = .noTable := by
  obtain ⟨htopic, hta, htable⟩ := h
  obtain ⟨ta, hta⟩ := Option.isSome_iff_exists.mp hta
  unfold regulateForStore
  rw [if_pos htopic, hta, htable]

/-- `q` is the packet `p` with a topic and without a topic alias. -/
structure Regulated (p q : V5.PublishPacket pb) : Prop where
  topic_ne : q.topic ≠ []
  topic : p.topic ≠ [] → q.topic = p.topic
  topicAlias : ∀ prop ∈ q.props, prop.id ≠ .topicAlias
  props : q.props = p.props.filter (·.id ≠ .topicAlias)
  payloads : q.payloads = p.payloads
  packetIdBuf : q.packetIdBuf = p.packetIdBuf
  fixedHeader : q.fixedHeader = p.fixedHeader
  sized : q.Sized

theorem regulated_rewritten (hp : p.WellFormed) (hc : c.Aliases TopicsFit) {topic : Buffer}
    (h : c.storedTopic p = some topic)
    (hlt : p.lengthWith topic p.propsWithoutTopicAlias < 2 ^ 32) :
    Regulated p (p.rewritten topic p.propsWithoutTopicAlias) where
  topic_ne := storedTopic_ne_nil h
  topic hne := by
    rw [storedTopic, if_neg hne] at h
    exact (Option.some.inj h).symm
  topicAlias prop hmem := by simpa using (List.mem_filter.mp hmem).2
  props := rfl
  payloads := rfl
  packetIdBuf := rfl
  fixedHeader := rfl
  sized := V5.PublishPacket.sized_rewritten (length_storedTopic_le hp hc h) hlt

/-! ### The stored copy -/

/-- `send` would put a copy of the packet into the store: the packet passes the checks before that,
    the session is one that is stored, and no other packet waits under the identifier. -/
structure StoresCopy (c : Connection role pb) (p : V5.PublishPacket pb) : Prop where
  passes : c.passesChecks (.v5Publish p)
  enters : c.publishEnters (.v5Publish p)
  stores : c.storesPublish
  vacant : ¬ c.store.Waits (publishResponse (.v5Publish p)) p.packetId

/-- A PUBLISH that does not enter the session leaves the store as it is. -/
theorem store_of_not_entered {pv : PacketVariant pb} (htype : pv.type = .publish)
    (h : ¬ (c.passesChecks pv ∧ c.publishEnters pv)) : (c.send pv).conn.store = c.store := by
  have hfail : ∀ packetId,
      (Sent.failRelease c MqttError.packetNotAllowedToSend packetId).step.conn.store = c.store := by
    intro packetId
    obtain ⟨m, hm, -⟩ := failRelease_conn c MqttError.packetNotAllowedToSend packetId
    rw [hm]
  by_cases hallowed : c.sendAllowed pv
  · by_cases hsize : c.validateMaximumPacketSize pv.size
    · have henters : ¬ c.publishEnters pv := fun henters =>
        h ⟨Bool.and_eq_true_iff.mpr ⟨hallowed, hsize⟩, henters⟩
      rw [(send_of_actual hallowed hsize (by rw [htype]; exact nofun)).1.store]
      cases processSendActual_publish htype c with
      | stopped _ hstopped =>
        obtain ⟨tas, m, hconn, -⟩ := hstopped.conn
        rw [hconn]
      | plain _ _ _ _ _ _ hconn => rw [hconn]
      | failed hlate => exact absurd (publishFailsLate_enters hlate) henters
      | entered hentered => exact absurd hentered henters
    · rw [send_of_too_large hallowed hsize]
      exact hfail _
  · rw [send_of_not_allowed hallowed]

theorem storedPublishV5_of_enters (h : c.StoresCopy p) : ∃ sp, c.storedPublishV5 p = some sp := by
  have henters := h.enters
  simp only [publishEnters, Bool.and_eq_true, h.stores, Bool.not_true, Bool.false_or] at henters
  exact Option.isSome_iff_exists.mp henters.2

/-- The element of the store that holds the copy. -/
theorem ofPacket_storedPublishV5 (hqos : isQos12 p.opts) {sp : V5.PublishPacket pb}
    (hsp : c.storedPublishV5 p = some sp) :
    ∃ e, StorePacketVariant.ofPacket? (.v5Publish sp.setDup) = some e ∧
      e.packet = .v5Publish sp.setDup ∧
      e.responsePacketType = publishResponse (.v5Publish p) ∧ e.packetId = p.packetId := by
  obtain ⟨hid, hopts⟩ := storedPublishV5_eq hsp hqos
  have hdup : Pub.getQos sp.setDup.opts = Pub.getQos p.opts :=
    (getQos_setDup sp.fixedHeader).trans hopts
  have hres := @v5Publish_response pb sp.setDup
    (isQos12_iff.mpr (hdup.symm ▸ isQos12_iff.mp hqos))
  rw [@publishResponse_congr pb (.v5Publish p) (.v5Publish sp.setDup) rfl hdup] at hres
  refine ⟨⟨.v5Publish sp.setDup, _, hres⟩, ?_, rfl, rfl, hid⟩
  unfold StorePacketVariant.ofPacket?
  split
  · next res hres' => cases hres'.symm.trans hres; rfl
  · next hnone => cases hnone.symm.trans hres

/-- What `send` adds to the store is the copy of a PUBLISH with QoS 1 or 2. -/
theorem send_publish_stores {e : StorePacketVariant pb}
    (h : e ∈ (c.send (.v5Publish p)).conn.store.elems) (hnew : e ∉ c.store.elems) :
    c.StoresCopy p ∧ isQos12 p.opts ∧ ∃ topic sp, c.storedTopic p = some topic ∧
      storePacket p topic = .ok sp ∧ e.packet = .v5Publish sp.setDup := by
  by_cases hentered : c.passesChecks (.v5Publish p) ∧ c.publishEnters (.v5Publish p)
  · obtain ⟨hpass, henters⟩ := hentered
    have hqos : isQos12 p.opts := (publishEnters_qos henters).2
    rw [(send_entered rfl hpass henters).1] at h
    simp only [storeEntered] at h
    split at h
    · next hstores =>
      split at h
      · next sp hsp =>
        obtain ⟨e', hof, hpacket, hres, hid⟩ := ofPacket_storedPublishV5 hqos hsp
        rw [Store.add, hof] at h
        rcases Store.mem_emplaceBack.mp h with hmem | ⟨rfl, hvacant⟩
        · exact absurd hmem hnew
        · obtain ⟨topic, htopic, hstored⟩ := storePacket_of_storedPublishV5 hsp
          rw [hres, hid] at hvacant
          exact ⟨⟨hpass, henters, hstores, hvacant⟩, hqos, topic, sp, htopic, hstored, hpacket⟩
      · exact absurd h hnew
    · exact absurd h hnew
  · rw [store_of_not_entered rfl hentered] at h
    exact absurd h hnew

/-- Where `send` would store a copy, it does. -/
theorem StoresCopy.mem (h : c.StoresCopy p) :
    ∃ e ∈ (c.send (.v5Publish p)).conn.store.elems, e ∉ c.store.elems := by
  obtain ⟨sp, hsp⟩ := storedPublishV5_of_enters h
  obtain ⟨e, hof, -, hres, hid⟩ := ofPacket_storedPublishV5 (publishEnters_qos h.enters).2 hsp
  have hcopy : c.storedCopy (.v5Publish p) = some e := by
    rw [storedCopy, hsp, Option.bind_some, hof]
  have hvacant : ¬ c.store.Waits e.responsePacketType e.packetId := by
    rw [hres, hid]
    exact h.vacant
  refine ⟨e, ?_, fun hmem => hvacant ⟨e, hmem, rfl, rfl⟩⟩
  rw [(send_entered rfl h.passes h.enters).1]
  exact (mem_storeEntered hcopy).mpr (.inr ⟨h.stores, hvacant⟩)

/-! ### Agreement -/

/-- `regulate_for_store` does what it should, and its result is the copy that `send` stores,
    apart from the DUP flag of the copy. -/
structure RegulateAgrees (c : Connection role pb) (p : V5.PublishPacket pb) : Prop where
  regulated : c.regulateForStore p = .failure MqttError.packetNotRegulated p ∨
    ∃ q, c.regulateForStore p = .success q ∧ Regulated p q
  readsTable : c.regulateForStore p ≠ .noTable
  stored : ∀ e ∈ (c.send (.v5Publish p)).conn.store.elems, e ∉ c.store.elems →
    ∃ q, c.regulateForStore p = .success q ∧ e.packet = .v5Publish q.setDup

/-- The packet can be regulated: no table is missing, its lengths fit 32 bits with the topic, and
    it has one topic alias at most if a copy of it is stored. -/
structure Regulable (c : Connection role pb) (p : V5.PublishPacket pb) : Prop where
  table : ¬ c.MissesTable p
  length : ∀ topic, c.storedTopic p = some topic →
    p.lengthWith topic p.propsWithoutTopicAlias < 2 ^ 32
  topicAlias : c.StoresCopy p → (p.props.filter (·.id = .topicAlias)).length ≤ 1

theorem agrees_iff_of_fit (hp : p.WellFormed) (hc : c.Aliases TopicsFit) :
    c.RegulateAgrees p ↔ c.Regulable p := by
  constructor
  -- a topic that makes the packet too long would be a failure of one and not of the other
  · intro h
    have htable : ¬ c.MissesTable p := fun hmiss => h.readsTable (regulateForStore_missesTable hmiss)
    have heq := regulateForStore_eq hp hc htable
    refine ⟨htable, fun topic htopic => ?_, fun hcopy => ?_⟩
    · by_contra hlt
      rw [htopic] at heq
      simp only [if_neg hlt] at heq
      rcases h.regulated with hfail | ⟨q, hsucc, -⟩
      · exact nomatch hfail.symm.trans heq
      · exact nomatch hsucc.symm.trans heq
    · -- the copy has the properties of the regulated packet, so no second alias
      obtain ⟨e, he, hnew⟩ := hcopy.mem
      obtain ⟨q, hsucc, hpacket⟩ := h.stored e he hnew
      obtain ⟨-, hqos, topic, sp, htopic, hsp, hpacket'⟩ := send_publish_stores he hnew
      have hdup : sp.setDup = q.setDup := StorePacket.v5Publish.inj (hpacket'.symm.trans hpacket)
      have hprops : sp.props = q.props := by
        show sp.setDup.props = q.setDup.props
        rw [hdup]
      rw [storePacket_eq_rewritten hp hqos hsp] at hprops
      rcases h.regulated with hfail | ⟨q', hsucc', hq'⟩
      · exact nomatch hfail.symm.trans hsucc
      · obtain rfl : q' = q := RegulateResult.success.inj (hsucc'.symm.trans hsucc)
        exact (eraseTopicAlias_eq_iff p.props).mp (hprops.trans hq'.props)
  -- with the condition both come to the same packet
  · intro h
    have heq := regulateForStore_eq hp hc h.table
    have hsome : ∀ topic, c.storedTopic p = some topic →
        c.regulateForStore p = .success (p.rewritten topic p.propsWithoutTopicAlias) := by
      intro topic htopic
      rw [heq, htopic]
      exact if_pos (h.length topic htopic)
    have hregulated : c.regulateForStore p = .failure MqttError.packetNotRegulated p ∨
        ∃ q, c.regulateForStore p = .success q ∧ Regulated p q := by
      cases htopic : c.storedTopic p with
      | none => exact .inl (by rw [heq, htopic])
      | some topic =>
        exact .inr ⟨_, hsome topic htopic, regulated_rewritten hp hc htopic (h.length topic htopic)⟩
    refine ⟨hregulated, fun hmiss => ?_, fun e he hnew => ?_⟩
    · rcases hregulated with hfail | ⟨q, hsucc, -⟩
      · exact nomatch hmiss.symm.trans hfail
      · exact nomatch hmiss.symm.trans hsucc
    · obtain ⟨hcopy, hqos, topic, sp, htopic, hsp, hpacket⟩ := send_publish_stores he hnew
      have herase : eraseTopicAlias p.props = p.propsWithoutTopicAlias :=
        (eraseTopicAlias_eq_iff p.props).mpr (h.topicAlias hcopy)
      refine ⟨_, hsome topic htopic, ?_⟩
      rw [hpacket, storePacket_eq_rewritten hp hqos hsp, herase]

/-- The PUBLISH packets that the calls send are objects of their class. -/
def SendsWellFormed (ops : List (Op pb)) : Prop := ∀ q, .send (.v5Publish q) ∈ ops → q.WellFormed

theorem run_aliases_fit (ver : ProtocolVersion) {ops : List (Op pb)} (hops : SendsWellFormed ops) :
    ((make role pb ver).run ops).Aliases TopicsFit := by
  have hall : Run.All next (fun _ op => ∀ q, op = .send (.v5Publish q) → q.WellFormed)
      (make role pb ver) ops := by
    rintro j op hj q rfl
    exact hops q (List.mem_of_getElem? hj)
  have hstart : (make role pb ver).Aliases TopicsFit := nofun
  refine Run.final_invariant (fun c op hop hc => ?_) hstart hall
  refine call_aliases (TopicAliasSend.topics_kept (·.length ≤ 65535)) ?_ hc
  rintro pv rfl q rfl
  exact (hop q rfl).topicName_le

/-- In every reachable state, exactly when `regulate_for_store` agrees with the store. -/
theorem regulate_agrees_iff (ver : ProtocolVersion) (ops : List (Op pb))
    (hops : SendsWellFormed ops) (p : V5.PublishPacket pb) (hp : p.WellFormed) :
    ((make role pb ver).run ops).RegulateAgrees p ↔ ((make role pb ver).run ops).Regulable p :=
  agrees_iff_of_fit hp (run_aliases_fit ver hops)

/-- A client is connected, without a table, and regulates a PUBLISH that has a topic. -/
theorem regulate_agrees_of_topic :
    ∃ connect p, V5.connectPacket false 0 [0x61] none none none [] = .ok connect ∧
      V5.publishPacket .two 1 [0x61] [[0x78]] 0b010 [.topicAlias 1] = .ok p ∧
      let ops : List (Op .two) := [.send (.v5Connect connect), .recv [0x20, 0x03, 0, 0, 0]]
      ((make .client .two .v5).run ops).RegulateAgrees p := by
  refine ⟨_, _, rfl, rfl, (regulate_agrees_iff .v5 _ ?_ _ ?_).mpr ⟨?_, ?_, ?_⟩⟩
  · intro q hmem
    simp at hmem
  · have hp : V5.publishPacket .two (⟨1, by decide⟩ : Fin (PacketIdBytes.limit .two)).val [0x61]
        [[0x78]] 0b010 [.topicAlias 1] = .ok _ := rfl
    exact V5.PublishPacket.wellFormed_of_publishPacket hp
  · exact fun h => absurd h.1 (List.cons_ne_nil _ _)
  · intro topic htopic
    obtain rfl := Option.some.inj htopic
    decide
  · exact fun _ => by decide

/-- On a connection that has no table, the alias of a PUBLISH without a topic is looked up in a
    table that does not exist. -/
theorem regulate_without_table :
    ∃ p, V5.publishPacket .two 1 [] [[0x78]] 0b010 [.topicAlias 1] = .ok p ∧
      (make .client .two .v5).regulateForStore p = .noTable ∧
      ¬ (make .client .two .v5).RegulateAgrees p := by
  refine ⟨_, rfl, rfl, fun h => h.readsTable rfl⟩

/-- The copy of a PUBLISH with two aliases that `send` stores keeps the second one. -/
theorem stored_copy_keeps_alias :
    ∃ connect p, V5.connectPacket false 0 [0x61] none none none
        [.nBytes .sessionExpiryInterval [0, 0, 1, 0]] = .ok connect ∧
      V5.publishPacket .two 1 [0x61] [[0x78]] 0b010 [.topicAlias 1, .topicAlias 2] = .ok p ∧
      let ops : List (Op .two) := [.send (.v5Connect connect),
        .recv [0x20, 0x06, 0, 0, 3, 0x22, 0, 2], .acquireUniquePacketId]
      let c := (make .client .two .v5).run ops
      ((c.send (.v5Publish p)).conn.store.elems.map fun e => e.packet.toPacketVariant.view.props) =
          [[.topicAlias 2]] ∧
        ∃ q, c.regulateForStore p = .success q ∧ q.props = [] := by
  refine ⟨_, _, rfl, rfl, ?_, _, rfl, rfl⟩
  decide +kernel

end Connection

end AsyncMqtt
