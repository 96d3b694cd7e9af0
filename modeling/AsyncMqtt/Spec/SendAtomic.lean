import AsyncMqtt.Spec.RecvCases
import AsyncMqtt.Spec.RoundTripV5
import AsyncMqtt.Spec.SendCases
import AsyncMqtt.Spec.TopicAliasCorrect

/-!
# Send errors and the state they leave

A call of `send` that ends in `on_error` without sending the packet should change
nothing but give the packet identifier back. It does so unless a PUBLISH with QoS 1
or 2 is stopped after it has entered the session.

## Key results

- `Connection.Reachable.aliasesValid`: the table of topic aliases is valid in every state
- `Connection.send_atomic_iff`: exactly when a failed send leaves the state as it was
- `Connection.publish_offline_not_atomic`: a PUBLISH without a connection does not
-/

namespace AsyncMqtt

namespace Connection

variable {role : Role} {pb : PacketIdBytes}

/-! ### Valid tables of topic aliases -/

/-- The table of topic aliases for sending, if there is one, is valid. -/
def AliasesValid (c : Connection role pb) : Prop := ∀ t, c.topicAliasSend = some t → t.Valid

/-- The range of the aliases ends at the maximum of the table. -/
theorem validateTopicAliasRange_iff {c : Connection role pb} {t : TopicAliasSend}
    (h : c.topicAliasSend = some t) (ta : Nat) :
    c.validateTopicAliasRange ta = true ↔ 1 ≤ ta ∧ ta ≤ t.max := by
  simp only [validateTopicAliasRange, h, decide_eq_true_eq]
  omega

/-- Looking up an alias moves at most one entry of the table. -/
theorem touchedAliases_cases (c : Connection role pb) (taOpt : Option Nat) :
    c.touchedAliases taOpt = c.topicAliasSend ∨
    ∃ t ta, c.topicAliasSend = some t ∧
      c.touchedAliases taOpt = some (t.findTopic ta c.now).2 := by
  unfold touchedAliases validateTopicAlias
  split
  · next htas =>
    split
    · exact .inr ⟨_, _, htas, rfl⟩
    · exact .inl rfl
  · exact .inl rfl

/-- The table after the automatic use of topic aliases. -/
theorem autoTopicAlias_aliases (c : Connection role pb) (p : V5.PublishPacket pb) :
    (c.autoTopicAlias p).1.topicAliasSend = c.topicAliasSend.map fun t =>
      if c.autoMapTopicAliasSend ∧ t.findAlias p.topic = none then
        t.insertOrUpdate p.topic t.getLruAlias c.now
      else t := by
  unfold autoTopicAlias
  split
  · next hnone => rw [hnone]; rfl
  · next t ht =>
    rw [ht, Option.map_some]
    by_cases hmap : c.autoMapTopicAliasSend = true
    · rw [if_pos hmap]
      cases t.findAlias p.topic with
      | some ta => simp [ht]
      | none => simp [hmap]
    · have hneg : ¬ (c.autoMapTopicAliasSend = true ∧ t.findAlias p.topic = none) :=
        fun h => hmap h.1
      rw [if_neg hmap, if_neg hneg]
      split
      · split <;> exact ht
      · exact ht

/-- The table of topic aliases for sending, if there is one, satisfies `K`. -/
def Aliases (K : TopicAliasSend → Prop) (c : Connection role pb) : Prop :=
  ∀ t, c.topicAliasSend = some t → K t

/-- A topic of a PUBLISH that is sent satisfies `T`. -/
def TopicOf (T : Buffer → Prop) (pv : PacketVariant pb) : Prop :=
  ∀ p, pv = .v5Publish p → T p.topic

/-- A packet that is no PUBLISH has no topic. -/
theorem topicOf_of_type {T : Buffer → Prop} {pv : PacketVariant pb} (h : pv.type ≠ .publish) :
    TopicOf T pv := by
  rintro p rfl
  exact absurd rfl h

section Kept

variable {K : TopicAliasSend → Prop} {T : Buffer → Prop} (hK : TopicAliasSend.Kept T K)
include hK

/-- A use of an alias keeps the tables. -/
theorem Aliases.touched {c : Connection role pb} (h : c.Aliases K) (taOpt : Option Nat) :
    ∀ t, c.touchedAliases taOpt = some t → K t := by
  rcases c.touchedAliases_cases taOpt with heq | ⟨t, ta, htas, heq⟩
  · rw [heq]
    exact h
  · rw [heq]
    rintro _ ⟨⟩
    exact hK.findTopic (h t htas) ta c.now

/-- A PUBLISH that is not rejected keeps the table as it should be. -/
theorem Aliases.applied {c : Connection role pb} (h : c.Aliases K) {p : V5.PublishPacket pb}
    (hT : T p.topic) (hrej : ¬ c.aliasRejected p) : ∀ t, (c.aliasApplied p).1 = some t → K t := by
  unfold aliasRejected at hrej
  unfold aliasApplied
  by_cases htopic : p.topic = []
  · rw [if_pos htopic]
    exact h.touched hK _
  · rw [if_neg htopic] at hrej ⊢
    cases hta : getTopicAlias p.props with
    | some ta =>
      rw [hta] at hrej
      intro t' ht'
      obtain ⟨t, ht, rfl⟩ := Option.map_eq_some_iff.mp ht'
      have hrange := (validateTopicAliasRange_iff ht ta).mp (by simpa using hrej)
      exact hK.insertOrUpdate (h t ht) c.now hrange htopic hT
    | none =>
      simp only
      split
      · intro t' ht'
        simp only [autoTopicAlias_aliases] at ht'
        obtain ⟨t, ht, rfl⟩ := Option.map_eq_some_iff.mp ht'
        split
        · have hrange := TopicAliasSend.getLruAlias_range (hK.valid (h t ht))
          exact hK.insertOrUpdate (h t ht) c.now hrange htopic hT
        · exact h t ht
      · exact h

/-- A PUBLISH keeps the tables. -/
theorem Aliases.after {c : Connection role pb} (h : c.Aliases K) {pv : PacketVariant pb}
    (hT : TopicOf T pv) : ∀ t, c.aliasesAfter pv = some t → K t := by
  unfold aliasesAfter
  split
  · next p =>
    split
    · split
      · exact h.touched hK _
      · exact h
    · next hrej => exact h.applied hK (hT p rfl) hrej
  · exact h

omit hK in
/-- A quiet step keeps the tables. -/
theorem Quiet.aliases {c c' : Connection role pb} (h : Quiet c c') (hc : c.Aliases K) :
    c'.Aliases K := by
  obtain ⟨_, _, _, _, _, -, rfl⟩ := h
  exact hc

/-- Whatever becomes of a PUBLISH keeps the tables. -/
theorem PublishOutcome.aliases {c : Connection role pb} {pv : PacketVariant pb}
    {r : Sent role pb} (h : PublishOutcome c pv r) (hc : c.Aliases K) (hT : TopicOf T pv) :
    r.step.conn.Aliases K := by
  cases h with
  | stopped _ hs =>
    obtain ⟨tas, m, hconn, htas, -⟩ := hs.conn
    rw [hconn]
    rcases htas with rfl | ⟨taOpt, rfl⟩
    · exact hc
    · exact hc.touched hK taOpt
  | plain _ pv' _ _ _ _ hconn => rw [hconn]; exact hc.after hK hT
  | failed _ ec hc₁ hr =>
    obtain ⟨m, hconn, -⟩ := failRelease_conn _ ec pv.packetId
    rw [hr, hconn, hc₁]
    exact hc.after hK hT
  | entered _ _ pv' _ _ _ _ hconn => rw [hconn]; exact hc.after hK hT

omit hK in
/-- Sending the store again keeps the tables. -/
theorem sendStored_aliases {c : Connection role pb} (hc : c.Aliases K) :
    c.sendStored.conn.Aliases K := by
  rw [sendStored_conn]
  exact hc

/-- Sending any packet keeps the tables. -/
theorem send_aliasesKept {pv : PacketVariant pb} (hT : TopicOf T pv) {c : Connection role pb}
    (hc : c.Aliases K) : (c.send pv).conn.Aliases K := by
  cases send_cases pv c with
  | quiet h => exact h.1.aliases hc
  | tooLarge _ _ _ _ hconn => rw [hconn]; exact hc
  | connect _ _ _ _ hc₁ hconn => exact hconn.aliases (by rw [hc₁]; exact nofun)
  | connack _ _ _ _ hc₁ hconn =>
    exact hconn.aliases (sendStored_aliases (by rw [hc₁]; exact hc))
  | pubrecRefused _ _ hconn => exact hconn.aliases hc
  | pubrel _ _ _ _ _ hconn => exact hconn.aliases hc
  | subscribe _ _ hconn => exact hconn.aliases hc
  | unsubscribe _ _ hconn => exact hconn.aliases hc
  | publish _ _ h hconn => exact hconn.aliases (h.aliases hK hc hT)

/-- A table that is kept or made anew -/
theorem KeptOrNew.kept {tas tas' : Option TopicAliasSend} (h : KeptOrNew tas tas')
    (htas : ∀ t, tas = some t → K t) : ∀ t, tas' = some t → K t := by
  rcases h with rfl | ⟨max, hmax, rfl⟩
  · exact htas
  · rintro _ ⟨⟩
    exact hK.make max hmax

omit hK in
/-- Resuming a session keeps the tables. -/
theorem resumeSession_aliases (sessionPresent : Bool) {c : Connection role pb}
    (hc : c.Aliases K) : (c.resumeSession sessionPresent).conn.Aliases K := by
  unfold resumeSession
  split
  · exact sendStored_aliases hc
  · exact hc

/-- Whatever becomes of a packet that is received keeps the tables. -/
theorem RecvOutcome.aliases {c : Connection role pb} {pv : PacketVariant pb}
    {s : Step role pb} (h : RecvOutcome c pv s) (hc : c.Aliases K) : s.conn.Aliases K := by
  cases h with
  | quiet h => exact h.1.aliases hc
  | connect _ _ _ htas hconn => rw [hconn]; exact htas.kept hK nofun
  | connack _ _ htas hc₁ hconn =>
    rw [hconn]
    exact resumeSession_aliases _ (by rw [hc₁]; exact htas.kept hK hc)
  | publish _ hconn => exact hconn.aliases hc
  | publishDelivered _ _ _ hconn => exact hconn.aliases hc
  | publishRejected _ _ _ _ _ _ hconn => exact hconn.aliases hc
  | puback _ _ _ hconn => rw [hconn]; exact hc
  | pubrecFailed _ _ _ _ hconn => rw [hconn]; exact hc
  | @pubrec _ _ _ _ c₁ r hc₁ hr hconn =>
    have hc₁ : c₁.Aliases K := by rw [hc₁]; exact hc
    have hr : r.conn.Aliases K := by
      rw [hr, respondIf]
      split
      · exact send_aliasesKept hK (topicOf_of_type (by rw [pubrelOf_type]; exact nofun)) hc₁
      · exact hc₁
    rw [hconn]
    exact hr
  | pubrel _ hconn => exact hconn.aliases hc
  | pubcomp _ _ _ hconn => rw [hconn]; exact hc
  | suback _ _ hconn => rw [hconn]; exact hc
  | unsuback _ _ hconn => rw [hconn]; exact hc

/-- Every call keeps the tables. -/
theorem call_aliases {c : Connection role pb} {op : Op pb} (hT : ∀ pv, op = .send pv → TopicOf T pv)
    (hc : c.Aliases K) : (c.call op).conn.Aliases K := by
  cases op with
  | recv is =>
    rcases recv_cases is (c := c) rfl with h | ⟨pv, -, h⟩ | ⟨value, c₁, -, -, hc₁, hs⟩
    · exact h.1.aliases hc
    · exact h.aliases hK hc
    · rw [call, hs, Step.conn_emit]
      have hrefusal : TopicOf T (c.refusal value) :=
        topicOf_of_type (by rw [refusal_type]; exact nofun)
      exact send_aliasesKept hK hrefusal (by rw [hc₁]; exact hc)
  | send pv => exact send_aliasesKept hK (hT pv rfl) hc
  | notifyTimerFired kind => exact (notifyTimerFired_quiet kind c).1.aliases hc
  | notifyClosed =>
    rw [call, notifyClosed_conn]
    exact nofun
  | restorePackets pvs =>
    obtain ⟨m, st, a, b, d, heq⟩ := c.restorePackets_eq pvs
    rw [call, heq]
    exact hc
  | releasePacketId packetId =>
    rw [call, releasePacketId_conn]
    exact hc
  | setPingreqSendInterval duration =>
    rw [call, setPingreqSendInterval]
    split <;> exact hc
  | _ => exact hc

end Kept

/-- In every state the table of topic aliases is valid. -/
theorem Reachable.aliasesValid {c : Connection role pb} (h : c.Reachable) : c.AliasesValid :=
  h.induction (P := AliasesValid) (fun _ => nofun) fun _ _ hc =>
    call_aliases TopicAliasSend.valid_kept (fun _ _ _ _ => trivial) hc

/-! ### The store -/

set_option maxRecDepth 4000 in
/-- The DUP flag is not in the bits of the QoS. -/
theorem getQos_setDup : ∀ v : UInt8, Pub.getQos (Pub.setDup v) = Pub.getQos v := by
  decide

/-- A packet that is stored has the QoS of the one it stands for. -/
theorem storePacket_qos {p sp : V5.PublishPacket pb} {topic : Buffer}
    (h : storePacket p topic = .ok sp) : Pub.getQos sp.opts = Pub.getQos p.opts := by
  simp only [storePacket, V5.publishPacket, Except.bind_eq_ok, throwIf_eq_ok, numericCast16_eq_ok,
    numericCast32_eq_ok, validateProperties_eq_ok, V5.storePublishPacketId_eq_ok,
    Except.pure_eq_ok] at h
  obtain ⟨_, -, _, -, _, -, _, -, _, -, _, -, idBuf, -, rfl⟩ := h
  exact getQos_publish_header _

/-- A packet that is stored has the identifier of the one it stands for. -/
theorem storePacket_packetId {p sp : V5.PublishPacket pb} {topic : Buffer}
    (h : storePacket p topic = .ok sp) (hqos : isQos12 p.opts) : sp.packetId = p.packetId := by
  have h12 := isQos12_iff.mp hqos
  simp only [storePacket, V5.publishPacket, Except.bind_eq_ok, throwIf_eq_ok, numericCast16_eq_ok,
    numericCast32_eq_ok, validateProperties_eq_ok, V5.storePublishPacketId_eq_ok,
    Except.pure_eq_ok] at h
  obtain ⟨_, -, _, -, _, -, _, -, _, -, _, -, idBuf, hid, rfl⟩ := h
  rcases hid with ⟨hqos0, -⟩ | ⟨-, -, rfl⟩
  · rcases h12 with h12 | h12 <;> rw [h12] at hqos0 <;> exact absurd hqos0 (by decide)
  · exact endianLoad_endianStore (endianLoad_lt _ _)

/-- The topic of the copy that is stored: the one of the PUBLISH, or the one its alias stands
    for. -/
def storedTopic (c : Connection role pb) (p : V5.PublishPacket pb) : Option Buffer :=
  if p.topic = [] then (c.validateTopicAlias (getTopicAlias p.props)).1 else some p.topic

/-- The packet in the store is the PUBLISH with its topic. -/
theorem storePacket_of_storedPublishV5 {c : Connection role pb} {p sp : V5.PublishPacket pb}
    (h : c.storedPublishV5 p = some sp) :
    ∃ topic, c.storedTopic p = some topic ∧ storePacket p topic = .ok sp := by
  unfold storedPublishV5 at h
  unfold storedTopic
  split at h
  · next htopic =>
    rw [if_pos htopic]
    split at h
    · cases h
    · next topic hval =>
      split at h
      · cases h
      · next hsp =>
        split at h
        · exact ⟨topic, hval, Option.some.inj h ▸ hsp⟩
        · cases h
  · next htopic =>
    rw [if_neg htopic]
    split at h
    · cases h
    · next hsp => exact ⟨p.topic, rfl, Option.some.inj h ▸ hsp⟩

/-- The packet in the store has the identifier and the QoS of the PUBLISH. -/
theorem storedPublishV5_eq {c : Connection role pb} {p sp : V5.PublishPacket pb}
    (h : c.storedPublishV5 p = some sp) (hqos : isQos12 p.opts) :
    sp.packetId = p.packetId ∧ Pub.getQos sp.opts = Pub.getQos p.opts := by
  obtain ⟨topic, -, hsp⟩ := storePacket_of_storedPublishV5 h
  exact ⟨storePacket_packetId hsp hqos, storePacket_qos hsp⟩

/-- The response that ends the stay of a PUBLISH in the store. -/
def publishResponse (pv : PacketVariant pb) : ResponsePacket :=
  if Pub.getQos pv.view.opts = Qos.exactlyOnce then
    if pv.version = .v5 then .v5Pubrec else .v311Pubrec
  else if pv.version = .v5 then .v5Puback else .v311Puback

/-- The store does not change exactly when it has an entry for the response already. -/
theorem add_eq_self_iff {s : Store pb} {p : StorePacket pb} {res : ResponsePacket}
    (h : p.response? = some res) : s.add p = s ↔ s.Waits res p.packetId := by
  have hof : StorePacketVariant.ofPacket? p = some ⟨p, res, h⟩ := by
    unfold StorePacketVariant.ofPacket?
    split
    · next hr => cases hr.symm.trans h; rfl
    · next hr => exact nomatch hr.symm.trans h
  rw [Store.add, hof]
  change Store.emplaceBack s ⟨p, res, h⟩ = s ↔ _
  by_cases hw : s.Waits res p.packetId
  · exact iff_of_true (dif_pos hw) hw
  · refine iff_of_false (fun hsame => ?_) hw
    have hlen := congrArg (fun s : Store pb => s.elems.length) hsame
    rw [Store.emplaceBack, dif_neg (by exact hw)] at hlen
    simp at hlen

/-- A v3.1.1 PUBLISH in the store waits for its response. -/
theorem v311Publish_response {p : V311.PublishPacket pb} (h : isQos12 p.opts) :
    (StorePacket.v311Publish p).response? = some (publishResponse (.v311Publish p)) := by
  have hview : (PacketVariant.v311Publish p).view.opts = p.opts := rfl
  simp only [StorePacket.response?, publishResponse, hview]
  rcases isQos12_iff.mp h with hq | hq <;> (rw [hq]; rfl)

/-- A v5 PUBLISH in the store waits for its response. -/
theorem v5Publish_response {p : V5.PublishPacket pb} (h : isQos12 p.opts) :
    (StorePacket.v5Publish p).response? = some (publishResponse (.v5Publish p)) := by
  have hview : (PacketVariant.v5Publish p).view.opts = p.opts := rfl
  simp only [StorePacket.response?, publishResponse, hview]
  rcases isQos12_iff.mp h with hq | hq <;> (rw [hq]; rfl)

/-- The response depends on the version and the QoS. -/
theorem publishResponse_congr {pv pv' : PacketVariant pb} (hver : pv'.version = pv.version)
    (hqos : Pub.getQos pv'.view.opts = Pub.getQos pv.view.opts) :
    publishResponse pv' = publishResponse pv := by
  rw [publishResponse, publishResponse, hver, hqos]

/-- Entering the session changes the store unless its place is taken. -/
theorem storeEntered_eq_iff {c : Connection role pb} {pv : PacketVariant pb}
    (h : c.publishEnters pv) :
    c.storeEntered pv = c.store ↔
      ¬ c.storesPublish ∨ c.store.Waits (publishResponse pv) pv.packetId := by
  cases pv with
  | v311Publish p =>
    have hqos : isQos12 p.opts := (Bool.and_eq_true_iff.mp h).1
    have hdup : Pub.getQos p.setDup.opts = Pub.getQos p.opts := getQos_setDup p.fixedHeader
    have hres := @v311Publish_response pb p.setDup
      (isQos12_iff.mpr (hdup.symm ▸ isQos12_iff.mp hqos))
    rw [@publishResponse_congr pb (.v311Publish p) (.v311Publish p.setDup) rfl hdup] at hres
    -- the copy is what differs; without it only the wait is left behind
    by_cases hstores : c.storesPublish = true
    · simp only [storeEntered, hstores, if_true, not_true_eq_false, false_or]
      exact add_eq_self_iff hres
    · simp [storeEntered, hstores]
  | v5Publish p =>
    simp only [publishEnters, Bool.and_eq_true, Bool.or_eq_true] at h
    have hqos := h.1.1.2
    by_cases hstores : c.storesPublish = true
    · obtain ⟨sp, hsp⟩ := Option.isSome_iff_exists.mp (h.2.resolve_left (by simp [hstores]))
      obtain ⟨hid, hopts⟩ := storedPublishV5_eq hsp hqos
      have hdup : Pub.getQos sp.setDup.opts = Pub.getQos p.opts :=
        (getQos_setDup sp.fixedHeader).trans hopts
      have hres := @v5Publish_response pb sp.setDup
        (isQos12_iff.mpr (hdup.symm ▸ isQos12_iff.mp hqos))
      rw [@publishResponse_congr pb (.v5Publish p) (.v5Publish sp.setDup) rfl hdup] at hres
      simp only [storeEntered, hstores, hsp, if_true, not_true_eq_false, false_or]
      rw [add_eq_self_iff hres]
      exact Iff.of_eq (congrArg _ hid)
    · simp [storeEntered, hstores]
  | _ => cases h

/-! ### The meaning of topic aliases -/

/-- The tables give the same topic for every alias. -/
def SameMapping (tas tas' : Option TopicAliasSend) : Prop :=
  ∀ ta, tas'.map (·.findWithoutTouch ta) = tas.map (·.findWithoutTouch ta)

/-- A use of an alias leaves what the aliases stand for. -/
theorem AliasesValid.touched_same {c : Connection role pb} (h : c.AliasesValid)
    (taOpt : Option Nat) : SameMapping c.topicAliasSend (c.touchedAliases taOpt) := by
  intro x
  rcases c.touchedAliases_cases taOpt with heq | ⟨t, ta, htas, heq⟩
  · rw [heq]
  · rw [heq, htas]
    exact congrArg some (TopicAliasSend.find_findTopic (h t htas) ta c.now x)

/-- A PUBLISH gives an alias a new meaning. -/
def registersAlias (c : Connection role pb) : PacketVariant pb → Bool
  | .v5Publish p =>
    ! c.aliasRejected p && p.topic ≠ [] &&
      match c.topicAliasSend, getTopicAlias p.props with
      | none, _ => false
      | some t, some ta => t.records p.topic ta && t.findWithoutTouch ta ≠ p.topic
      | some t, none =>
        c.status = .connected && c.autoMapTopicAliasSend && (t.findAlias p.topic).isNone
  | _ => false

/-- A registration changes the meaning of the alias only. -/
theorem sameMapping_insertOrUpdate {t : TopicAliasSend} (h : t.Valid) {topic : Buffer} {ta : Nat}
    (now : Nat) (hrange : 1 ≤ ta ∧ ta ≤ t.max) (htopic : topic ≠ []) :
    SameMapping (some t) (some (t.insertOrUpdate topic ta now)) ↔
      ¬ (t.records topic ta ∧ t.findWithoutTouch ta ≠ topic) := by
  have hfind := TopicAliasSend.find_insertOrUpdate h now hrange htopic
  constructor
  · rintro hsame ⟨hrec, hne⟩
    have hta : (t.insertOrUpdate topic ta now).findWithoutTouch ta = t.findWithoutTouch ta :=
      Option.some.inj (hsame ta)
    rw [hfind, if_pos ⟨rfl, hrec⟩] at hta
    exact hne hta.symm
  · intro hno x
    refine congrArg some ?_
    dsimp only
    rw [hfind]
    split
    · next hx =>
      rw [hx.1]
      exact (not_not.mp fun hne => hno ⟨hx.2, hne⟩).symm
    · rfl

/-- The aliases stand for the same topics exactly when none is registered. -/
theorem aliasesAfter_same_iff {c : Connection role pb} (h : c.AliasesValid)
    (pv : PacketVariant pb) :
    SameMapping c.topicAliasSend (c.aliasesAfter pv) ↔ ¬ c.registersAlias pv := by
  have hrefl : SameMapping c.topicAliasSend c.topicAliasSend := fun _ => rfl
  cases pv with
  | v5Publish p =>
    rw [aliasesAfter, registersAlias]
    -- the cases are those in which the table is written: a new alias, or one that is assigned
    by_cases hrej : c.aliasRejected p = true
    · simp only [hrej, if_true, Bool.not_true, Bool.false_and, Bool.false_eq_true,
        not_false_eq_true, iff_true]
      split
      · exact h.touched_same _
      · exact hrefl
    · rw [if_neg hrej, aliasApplied]
      -- without a topic the alias is only looked up
      by_cases htopic : p.topic = []
      · simp only [htopic, if_true, ne_eq, not_true_eq_false, decide_false, Bool.and_false,
          Bool.false_and, Bool.false_eq_true, not_false_eq_true, iff_true]
        exact h.touched_same _
      · rw [if_neg htopic]
        simp only [hrej, htopic, ne_eq, not_false_eq_true, decide_true, Bool.and_true,
          Bool.not_false, Bool.true_and]
        unfold aliasRejected at hrej
        rw [if_neg htopic] at hrej
        cases hta : getTopicAlias p.props with
        | some ta =>
          cases htas : c.topicAliasSend with
          | none =>
            rw [hta] at hrej
            simp [validateTopicAliasRange, htas] at hrej
          | some t =>
            rw [hta] at hrej
            have hrange := (validateTopicAliasRange_iff htas ta).mp (by simpa using hrej)
            simp only [insertOrUpdateTopicAlias, htas, Option.map_some, Bool.and_eq_true,
              decide_eq_true_eq]
            exact sameMapping_insertOrUpdate (h t htas) c.now hrange htopic
        | none =>
          by_cases hstatus : c.status = .connected
          · simp only [hstatus, if_true, autoTopicAlias_aliases]
            cases htas : c.topicAliasSend with
            | none => simp [SameMapping]
            | some t =>
              -- an alias is assigned only if the topic has none
              by_cases hmap : c.autoMapTopicAliasSend = true ∧ t.findAlias p.topic = none
              · have hrec : t.records p.topic t.getLruAlias := by simp [TopicAliasSend.records, hmap.2]
                have hnew : t.findWithoutTouch t.getLruAlias ≠ p.topic := fun hfind =>
                  TopicAliasSend.findAlias_eq_none.mp hmap.2 _
                    ((TopicAliasSend.find_eq_iff (h t htas) htopic).mp hfind)
                simp only [Option.map_some, hmap, and_self, if_true]
                rw [sameMapping_insertOrUpdate (h t htas) c.now
                  (TopicAliasSend.getLruAlias_range (h t htas)) htopic]
                simp [hrec, hnew]
              · simp only [Option.map_some, if_neg hmap]
                refine iff_of_true (fun _ => rfl) ?_
                simpa [Option.isNone_iff_eq_none] using hmap
          · simp only [hstatus, if_false]
            cases c.topicAliasSend with
            | none => exact iff_of_true (fun _ => rfl) Bool.false_ne_true
            | some t => exact iff_of_true (fun _ => rfl) Bool.false_ne_true
  | _ => exact iff_of_true hrefl Bool.false_ne_true

/-! ### Failed sends -/

/-- The state is what it was, up to a packet identifier that was given back. -/
structure Unchanged (c : Connection role pb) (packetId : Nat) (c' : Connection role pb) :
    Prop where
  store : c'.store = c.store
  pidPuback : c'.pidPuback = c.pidPuback
  pidPubrec : c'.pidPubrec = c.pidPubrec
  pidPubcomp : c'.pidPubcomp = c.pidPubcomp
  pidSuback : c'.pidSuback = c.pidSuback
  pidUnsuback : c'.pidUnsuback = c.pidUnsuback
  qos2PublishProcessing : c'.qos2PublishProcessing = c.qos2PublishProcessing
  topicAliasSend : SameMapping c.topicAliasSend c'.topicAliasSend
  publishSendCount : c'.publishSendCount = c.publishSendCount
  publishRecv : c'.publishRecv = c.publishRecv
  status : c'.status = c.status
  pidMan : c'.pidMan = c.pidMan ∨ c'.pidMan = c.pidMan.releaseId packetId

/-- A call of `send` that reports an error and sends nothing leaves the state as it was. -/
def SendAtomic (c : Connection role pb) (pv : PacketVariant pb) : Prop :=
  (∃ ec, Event.error ec ∈ (c.send pv).events) →
  (∀ p release, Event.send p release ∉ (c.send pv).events) →
  c.Unchanged pv.packetId (c.send pv).conn

/-- The identifier of a PUBLISH waits for its response already. -/
def alreadyWaits (c : Connection role pb) (pv : PacketVariant pb) : Prop :=
  if Pub.getQos pv.view.opts = Qos.exactlyOnce then
    pv.packetId ∈ c.qos2PublishProcessing ∧ pv.packetId ∈ c.pidPubrec
  else pv.packetId ∈ c.pidPuback

/-- A PUBLISH passes the check of the receive maximum and is counted. -/
def isCounted (c : Connection role pb) : PacketVariant pb → Bool
  | .v5Publish p => ! c.aliasRejected p && ! c.sendMaximumReached && c.publishSendMax.isSome
  | _ => false

/-- A PUBLISH with QoS 1 or 2 is stopped after it has entered the session, and something
    that it has recorded is new. -/
def LeavesTrace (c : Connection role pb) (pv : PacketVariant pb) : Prop :=
  (c.sendAllowed pv ∧ c.validateMaximumPacketSize pv.size ∧ c.publishFailsLate pv) ∧
  ¬ (c.alreadyWaits pv ∧
    (¬ c.storesPublish ∨ c.store.Waits (publishResponse pv) pv.packetId) ∧
    ¬ c.registersAlias pv ∧ ¬ c.isCounted pv)

/-- An insertion changes nothing exactly when the element is there. -/
theorem insert_eq_self_iff {s : OrdSet Nat} {a : Nat} : s.insert a = s ↔ a ∈ s :=
  ⟨fun h => h ▸ OrdSet.mem_insert.mpr (.inl rfl), OrdSet.insert_of_mem⟩

/-- The count stays the same exactly when the PUBLISH is not counted. -/
theorem countAfter_eq_iff (c : Connection role pb) (pv : PacketVariant pb) :
    c.countAfter pv = c.publishSendCount ↔ ¬ c.isCounted pv := by
  cases pv with
  | v5Publish p =>
    simp only [countAfter, isCounted, sentCount]
    by_cases hrej : c.aliasRejected p = true
    · simp [hrej]
    · by_cases hmax : c.sendMaximumReached = true
      · simp [hmax]
      · by_cases hsome : c.publishSendMax.isSome = true
        · simp only [hrej, hmax, hsome, Bool.or_self, Bool.false_eq_true, if_false, if_true,
            Bool.not_false, Bool.and_self, not_true_eq_false, iff_false]
          omega
        · simp [hrej, hmax, hsome]
  | _ => exact iff_of_true rfl Bool.false_ne_true

/-- Entering the session changes no set exactly if the identifier is in it. -/
theorem entered_sets_iff (c : Connection role pb) (pv : PacketVariant pb) :
    ((c.publishEntered pv).qos2PublishProcessing = c.qos2PublishProcessing ∧
      (c.publishEntered pv).pidPubrec = c.pidPubrec ∧
      (c.publishEntered pv).pidPuback = c.pidPuback) ↔ c.alreadyWaits pv := by
  rw [publishEntered_eq, alreadyWaits]
  dsimp only
  split
  · rw [insert_eq_self_iff, insert_eq_self_iff]
    exact ⟨fun h => ⟨h.1, h.2.1⟩, fun h => ⟨h.1, h.2, rfl⟩⟩
  · rw [insert_eq_self_iff]
    exact ⟨fun h => h.2.2, fun h => ⟨rfl, rfl, h⟩⟩

/-- What a PUBLISH that is stopped late has changed. -/
theorem unchanged_failed_iff {c : Connection role pb} (h : c.AliasesValid)
    {pv : PacketVariant pb} (henters : c.publishEnters pv) (ec : ErrorCode)
    {c₁ : Connection role pb}
    (hc₁ : c₁ = { c.publishEntered pv with
      topicAliasSend := c.aliasesAfter pv, publishSendCount := c.countAfter pv }) :
    c.Unchanged pv.packetId (Sent.failRelease c₁ ec pv.packetId).step.conn ↔
    c.alreadyWaits pv ∧ (¬ c.storesPublish ∨ c.store.Waits (publishResponse pv) pv.packetId) ∧
      ¬ c.registersAlias pv ∧ ¬ c.isCounted pv := by
  rw [← storeEntered_eq_iff henters, ← aliasesAfter_same_iff h, ← countAfter_eq_iff,
    ← entered_sets_iff]
  obtain ⟨m, hconn, hm⟩ := failRelease_conn c₁ ec pv.packetId
  rw [hconn, hc₁]
  rw [hc₁, publishEntered_eq] at hm
  constructor
  · intro hu
    refine ⟨⟨hu.qos2PublishProcessing, hu.pidPubrec, hu.pidPuback⟩, ?_, hu.topicAliasSend,
      hu.publishSendCount⟩
    have hstore := hu.store
    rw [publishEntered_eq] at hstore
    exact hstore
  · rintro ⟨⟨hproc, hpubrec, hpuback⟩, hstore, halias, hcount⟩
    rw [publishEntered_eq] at hproc hpubrec hpuback ⊢
    exact ⟨hstore, hpuback, hpubrec, rfl, rfl, rfl, hproc, halias, hcount, rfl, rfl, hm⟩

/-- A refusal is an error, and sends nothing. -/
theorem failRelease_events (c : Connection role pb) (ec : ErrorCode) (packetId : Nat) :
    Event.error ec ∈ (Sent.failRelease c ec packetId).step.events ∧
      ∀ p release, Event.send p release ∉ (Sent.failRelease c ec packetId).step.events := by
  unfold Sent.failRelease
  split <;> simp [Step.andThen, releaseId, Sent.fail]

/-- A PUBLISH that is stopped early leaves the state as it was. -/
theorem Stopped.unchanged {c : Connection role pb} (hc : c.AliasesValid) {packetId : Nat}
    {r : Sent role pb} (h : Stopped c packetId r) : c.Unchanged packetId r.step.conn := by
  obtain ⟨tas, m, hconn, htas, hm⟩ := h.conn
  have hsame : SameMapping c.topicAliasSend tas := by
    rcases htas with rfl | ⟨taOpt, rfl⟩
    · exact fun _ => rfl
    · exact hc.touched_same taOpt
  rw [hconn]
  exact ⟨rfl, rfl, rfl, rfl, rfl, rfl, rfl, hsame, rfl, rfl, rfl, hm.imp id And.right⟩

/-- Only a PUBLISH is stopped after the checks of its class and size. -/
theorem processSendActual_ok {pv : PacketVariant pb} (h : pv.type ≠ .publish)
    (c : Connection role pb) : (c.processSendActual pv).ok = true ∧
      ∃ p release, Event.send p release ∈ (c.processSendActual pv).step.events := by
  have hping : ∀ pv' : PacketVariant pb, (c.sendPingreq pv').ok = true ∧
      ∃ p release, Event.send p release ∈ (c.sendPingreq pv').step.events := by
    intro pv'
    unfold sendPingreq
    split <;> exact ⟨rfl, pv', none, List.mem_cons_self ..⟩
  have hlast : ∀ (s : Step role pb) (pv' : PacketVariant pb), ∃ p release,
      Event.send p release ∈ (s.emit (.send pv' none)).events := fun s pv' =>
    ⟨pv', none, List.mem_append_right _ (List.mem_singleton_self _)⟩
  cases pv with
  | v311Publish p | v5Publish p => exact absurd rfl h
  | v311Connack p | v5Connack p => exact ⟨rfl, hlast _ _⟩
  | v311Pingreq p | v5Pingreq p => exact hping _
  | v311Disconnect p | v5Disconnect p =>
    obtain ⟨p', release, hmem⟩ := hlast _ _
    exact ⟨rfl, p', release, List.mem_append_left _ hmem⟩
  | _ => exact ⟨rfl, _, _, List.mem_singleton_self _⟩

/-- Setting the timer for the PINGREQ is no error. -/
theorem resetPingreqSend_events {c : Connection role pb} {ec : ErrorCode} :
    Event.error ec ∉ c.resetPingreqSend.events := by
  unfold resetPingreqSend
  split
  · split <;> simp
  · simp

/-- A PUBLISH that is not stopped reports no error. -/
theorem send_publish_no_error {c : Connection role pb} {pv : PacketVariant pb}
    (hallowed : c.sendAllowed pv) (hsize : c.validateMaximumPacketSize pv.size)
    (htype : pv.type = .publish) (hok : (c.processSendActual pv).ok = true)
    {e : List (Event pb)} (he : (c.processSendActual pv).step.events = e)
    (hnone : ∀ ec, Event.error ec ∉ e) : ∀ ec, Event.error ec ∉ (c.send pv).events := by
  intro ec hmem
  rw [send_of_allowed hallowed hsize, if_pos hok, if_neg (by rw [htype]; exact nofun),
    Step.events_andThen, List.mem_append, he] at hmem
  exact hmem.elim (hnone ec) resetPingreqSend_events

/-- Processing a PUBLISH has one of its outcomes. -/
theorem processSendActual_publish {pv : PacketVariant pb} (h : pv.type = .publish)
    (c : Connection role pb) : PublishOutcome c pv (c.processSendActual pv) := by
  cases pv with
  | v311Publish p => exact c.sendPublishV311_outcome p
  | v5Publish p => exact c.sendPublishV5_outcome p
  | _ => exact nomatch h

/-- The case of a PUBLISH that passes the checks of its class and size. -/
theorem send_atomic_publish {c : Connection role pb} (hvalid : c.AliasesValid)
    {pv : PacketVariant pb} (hallowed : c.sendAllowed pv)
    (hsize : c.validateMaximumPacketSize pv.size) (htype : pv.type = .publish) :
    c.SendAtomic pv ↔ ¬ c.LeavesTrace pv := by
  have hsend := send_of_allowed hallowed hsize
  -- of the outcomes of a PUBLISH only the late failure leaves something behind
  cases processSendActual_publish htype c with
  | stopped henters hstopped =>
    rw [if_neg (by rw [hstopped.ok]; exact nofun)] at hsend
    refine iff_of_true (fun _ _ => ?_) fun ht => henters (publishFailsLate_enters ht.1.2.2)
    rw [hsend]
    exact hstopped.unchanged hvalid
  | plain hqos pv' _ _ _ hok hconn hevents =>
    have hno := send_publish_no_error hallowed hsize htype hok hevents
      (fun ec => by split <;> simp)
    exact iff_of_true (fun ⟨ec, hec⟩ => absurd hec (hno ec)) fun ht =>
      hqos (publishEnters_qos (publishFailsLate_enters ht.1.2.2)).2
  | @failed hlate ec c₁ hc₁ hr =>
    rw [hr, if_neg (by rw [failRelease_ok]; exact nofun)] at hsend
    have hevents := failRelease_events c₁ ec pv.packetId
    have hiff := unchanged_failed_iff hvalid (publishFailsLate_enters hlate) ec hc₁
    rw [SendAtomic, hsend, LeavesTrace, ← hiff]
    constructor
    · exact fun hatomic ht => ht.2 (hatomic ⟨ec, hevents.1⟩ hevents.2)
    · exact fun hno _ _ => not_not.mp fun hchanged => hno ⟨⟨hallowed, hsize, hlate⟩, hchanged⟩
  | entered henters hlate pv' _ _ _ hok hconn hevents =>
    have hno := send_publish_no_error hallowed hsize htype hok hevents
      (fun ec => by split <;> simp)
    exact iff_of_true (fun ⟨ec, hec⟩ => absurd hec (hno ec)) fun ht => hlate ht.1.2.2

/-- A failed send leaves the state as it was exactly if no PUBLISH with QoS 1 or 2 was
    stopped after it had recorded something new. -/
theorem send_atomic_iff (c : Connection role pb) (hc : c.Reachable) (pv : PacketVariant pb) :
    c.SendAtomic pv ↔ ¬ c.LeavesTrace pv := by
  have hvalid := hc.aliasesValid
  have hrefl : c.Unchanged pv.packetId c :=
    ⟨rfl, rfl, rfl, rfl, rfl, rfl, rfl, fun _ => rfl, rfl, rfl, rfl, .inl rfl⟩
  by_cases hallowed : c.sendAllowed pv = true
  · by_cases hsize : c.validateMaximumPacketSize pv.size = true
    · by_cases htype : pv.type = .publish
      · exact send_atomic_publish hvalid hallowed hsize htype
      · -- every other class is sent
        obtain ⟨hok, p, release, hmem⟩ := processSendActual_ok htype c
        refine iff_of_true (fun _ hno => absurd ?_ (hno p release)) fun ht =>
          htype (publishEnters_qos (publishFailsLate_enters ht.1.2.2)).1
        rw [send_of_allowed hallowed hsize, if_pos hok, Step.events_andThen]
        refine List.mem_append_left _ ?_
        split
        · exact List.mem_append_left _ hmem
        · exact hmem
    -- too large: the packet identifier is given back
    · refine iff_of_true (fun _ _ => ?_) fun ht => hsize ht.1.2.1
      rw [send_of_too_large hallowed hsize]
      split
      · obtain ⟨m, hconn, hm⟩ := failRelease_conn c MqttError.packetNotAllowedToSend pv.packetId
        rw [hconn]
        exact ⟨rfl, rfl, rfl, rfl, rfl, rfl, rfl, fun _ => rfl, rfl, rfl, rfl, hm⟩
      · exact hrefl
  -- not allowed in this state: nothing is touched
  · refine iff_of_true (fun _ _ => ?_) fun ht => hallowed ht.1.1
    rw [send_of_not_allowed hallowed]
    exact hrefl

/-- A QoS 1 PUBLISH whose identifier was not registered changes nothing. -/
theorem publish_unregistered_atomic :
    ∃ p, V311.publishPacket .two 1 [0x61] [] 0x02 = .ok p ∧
      SendAtomic (make .client .two .v311) (.v311Publish p) := by
  refine ⟨_, rfl, (send_atomic_iff _ ⟨.v311, [], rfl⟩ _).mpr fun ht => ?_⟩
  exact absurd ht.1.2.2 (by decide)

/-- A QoS 1 PUBLISH without a connection is refused and its identifier is given back,
    but the identifier still waits for a PUBACK. -/
theorem publish_offline_not_atomic :
    ∃ p, V311.publishPacket .two 1 [0x61] [] 0x02 = .ok p ∧
      ¬ SendAtomic ((make .client .two .v311).run [.acquireUniquePacketId]) (.v311Publish p) := by
  refine ⟨_, rfl, fun hatomic => ?_⟩
  have hunchanged := hatomic ⟨MqttError.packetNotAllowedToSend, by decide⟩ fun p release hmem =>
    have hsend : ∀ e ∈ [Event.error MqttError.packetNotAllowedToSend, .packetIdRelease 1],
        e ≠ .send p release := by simp
    hsend _ hmem rfl
  exact absurd hunchanged.pidPuback (by decide)

end Connection

end AsyncMqtt
