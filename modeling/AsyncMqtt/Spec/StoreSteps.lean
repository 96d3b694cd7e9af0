import AsyncMqtt.Spec.PacketIdAccounting
import AsyncMqtt.Spec.SendAtomic

/-!
# What a step does to the store

A packet comes into the store when it is sent, or when the application restores it. Its
identifier then is in the set of the identifiers that wait for its response. It leaves the
store with the response, or when the session ends.

## Key results

- `Connection.send_store`, `Connection.recv_store`: where a stored packet comes from
- `Connection.restorePackets_store`: the packets that are restored
-/

namespace AsyncMqtt

/-- The protocol version of a stored packet. -/
def StorePacketVariant.version {pb : PacketIdBytes} (e : StorePacketVariant pb) :
    ProtocolVersion := e.packet.toPacketVariant.version

theorem StorePacket.packetId_toPacketVariant {pb : PacketIdBytes} (p : StorePacket pb) :
    p.toPacketVariant.packetId = p.packetId := by
  cases p <;> rfl

/-- An element that was added is new or was there before. -/
theorem Store.mem_add {pb : PacketIdBytes} {s : Store pb} {p : StorePacket pb}
    {e : StorePacketVariant pb} (h : e ∈ (s.add p).elems) : e ∈ s.elems ∨ e.packet = p := by
  unfold Store.add at h
  split at h
  · next e' he' =>
    rcases Store.mem_emplaceBack.mp h with hmem | ⟨rfl, -⟩
    · exact .inl hmem
    · right
      unfold StorePacketVariant.ofPacket? at he'
      split at he'
      · next res hres => exact (congrArg StorePacketVariant.packet (Option.some.inj he')).symm
      · exact nomatch he'
  · exact .inl h

/-- The response type of a stored packet, by what it waits for and its version. -/
theorem StorePacketVariant.response_eq {pb : PacketIdBytes} (e : StorePacketVariant pb) :
    e.responsePacketType = match Connection.storedAck e with
      | .puback => if e.version = .v5 then .v5Puback else .v311Puback
      | .pubrec => if e.version = .v5 then .v5Pubrec else .v311Pubrec
      | _ => if e.version = .v5 then .v5Pubcomp else .v311Pubcomp := by
  obtain ⟨packet, res, hres⟩ := e
  cases packet with
  | v311Publish p | v5Publish p =>
    simp only [StorePacket.response?] at hres
    split at hres
    · obtain rfl := Option.some.inj hres
      rfl
    · obtain rfl := Option.some.inj hres
      rfl
    · cases hres
  | v311Pubrel p | v5Pubrel p =>
    obtain rfl := Option.some.inj hres
    rfl

namespace Connection

variable {role : Role} {pb : PacketIdBytes} {c c' : Connection role pb}
  {e : StorePacketVariant pb}

/-- The connection waits for the response to a stored packet. -/
def Awaits (c : Connection role pb) (e : StorePacketVariant pb) : Prop :=
  e.packetId ∈ c.waiting (storedAck e)

/-- A packet that was in the store before a step, which goes on to wait if it did. -/
def Keeps (c c' : Connection role pb) (e : StorePacketVariant pb) : Prop :=
  e ∈ c.store.elems ∧ (c.Awaits e → c'.Awaits e)

/-- A packet that a step has stored. -/
def Stores (c c' : Connection role pb) (e : StorePacketVariant pb) : Prop :=
  c'.Awaits e ∧ e.version = c.protocolVersion

theorem Keeps.ofEq (h : e ∈ c.store.elems) (hw : c'.waiting = c.waiting) : Keeps c c' e :=
  ⟨h, fun ha => by rw [Awaits, hw]; exact ha⟩

/-- A stored packet waits for the response to a PUBLISH or to a PUBREL. -/
theorem storedAck_ne (e : StorePacketVariant pb) :
    storedAck e ≠ .suback ∧ storedAck e ≠ .unsuback := by
  unfold storedAck
  split <;> exact ⟨nofun, nofun⟩

/-- The identifiers that wait for SUBACK and UNSUBACK do not matter for the store. -/
theorem Keeps.ofAcks (h : e ∈ c.store.elems)
    (hw : ∀ k, k ≠ .suback → k ≠ .unsuback → c'.waiting k = c.waiting k) : Keeps c c' e := by
  refine ⟨h, fun ha => ?_⟩
  obtain ⟨hsuback, hunsuback⟩ := storedAck_ne e
  rw [Awaits, hw _ hsuback hunsuback]
  exact ha

theorem Quiet.store (h : Quiet c c') : c'.store = c.store := by
  obtain ⟨_, _, _, _, _, -, rfl⟩ := h
  rfl

/-! ### Sending -/

/-- The state of a PUBLISH that has entered the session: it may be stored. -/
theorem publishEntered_store {pv : PacketVariant pb} (henters : c.publishEnters pv)
    (hversion : c.protocolVersion = pv.version) {tas : Option TopicAliasSend} {count : Nat}
    {m : PacketIdManager pb}
    (hc' : c' = { c.publishEntered pv with
      topicAliasSend := tas, publishSendCount := count, pidMan := m })
    (h : e ∈ c'.store.elems) : Keeps c c' e ∨ Stores c c' e ∧ e.packetId = pv.packetId := by
  have hstore : c'.store = c.storeEntered pv := by
    rw [hc', publishEntered_eq]
  have hwaiting : ∀ k, c'.waiting k =
      if k = publishAck pv.view.opts then (c.waiting k).insert pv.packetId else c.waiting k := by
    intro k
    rw [hc']
    exact waiting_publishEntered pv k
  -- the set only grows, so that what waited goes on to wait
  have hkeeps : e ∈ c.store.elems → Keeps c c' e := by
    intro hmem
    refine ⟨hmem, fun ha => ?_⟩
    rw [Awaits, hwaiting]
    split
    · exact OrdSet.mem_insert.mpr (.inr ha)
    · exact ha
  -- what is new in the store waits for the response to the PUBLISH
  have hnew : ∀ p : StorePacket pb, e.packet = p → p.packetId = pv.packetId →
      p.toPacketVariant.version = pv.version →
      p.response? = some (publishResponse pv) → Stores c c' e ∧ e.packetId = pv.packetId := by
    intro p hp hid hver hres
    have hack : storedAck e = publishAck pv.view.opts := by
      have hresponse : e.responsePacketType = publishResponse pv :=
        Option.some.inj (e.isResponse.symm.trans (hp ▸ hres))
      rw [storedAck, hresponse, publishAck, publishResponse]
      by_cases hqos : Pub.getQos pv.view.opts = Qos.exactlyOnce <;>
        by_cases hv5 : pv.version = .v5 <;> simp [hqos, hv5]
    have heid : e.packetId = pv.packetId := (congrArg StorePacket.packetId hp).trans hid
    refine ⟨⟨?_, ?_⟩, heid⟩
    · rw [Awaits, hwaiting, if_pos hack, heid]
      exact OrdSet.mem_insert.mpr (.inl rfl)
    · rw [StorePacketVariant.version, hp, hver, hversion]
  rw [hstore] at h
  cases pv with
  | v311Publish p =>
    have hqos : isQos12 p.opts := (Bool.and_eq_true_iff.mp henters).1
    -- the copy in the store has DUP set, which does not change its QoS
    have hdup : Pub.getQos p.setDup.opts = Pub.getQos p.opts := getQos_setDup p.fixedHeader
    have hres := @v311Publish_response pb p.setDup
      (isQos12_iff.mpr (hdup.symm ▸ isQos12_iff.mp hqos))
    rw [@publishResponse_congr pb (.v311Publish p) (.v311Publish p.setDup) rfl hdup] at hres
    simp only [storeEntered] at h
    split at h
    · rcases Store.mem_add h with hmem | hp
      · exact .inl (hkeeps hmem)
      · exact .inr (hnew _ hp rfl rfl hres)
    · exact .inl (hkeeps h)
  | v5Publish p =>
    simp only [publishEnters, Bool.and_eq_true] at henters
    have hqos := henters.1.1.2
    simp only [storeEntered] at h
    split at h
    · split at h
      · next sp hsp =>
        obtain ⟨hid, hopts⟩ := storedPublishV5_eq hsp hqos
        have hdup : Pub.getQos sp.setDup.opts = Pub.getQos p.opts :=
          (getQos_setDup sp.fixedHeader).trans hopts
        have hres := @v5Publish_response pb sp.setDup
          (isQos12_iff.mpr (hdup.symm ▸ isQos12_iff.mp hqos))
        rw [@publishResponse_congr pb (.v5Publish p) (.v5Publish sp.setDup) rfl hdup] at hres
        rcases Store.mem_add h with hmem | hp
        · exact .inl (hkeeps hmem)
        · exact .inr (hnew _ hp hid rfl hres)
      · exact .inl (hkeeps h)
    · exact .inl (hkeeps h)
  | _ => cases henters

theorem sendAllowed_version {pv : PacketVariant pb} (h : c.sendAllowed pv) :
    c.protocolVersion = pv.version := by
  simp only [sendAllowed, versionCheck, Bool.and_eq_true, decide_eq_true_eq] at h
  exact h.2

theorem Keeps.quiet {c₁ : Connection role pb} (h : Keeps c c₁ e) (hq : Quiet c₁ c') :
    Keeps c c' e :=
  ⟨h.1, fun ha => by rw [Awaits, hq.waiting]; exact h.2 ha⟩

theorem Stores.quiet {c₁ : Connection role pb} (h : Stores c c₁ e) (hq : Quiet c₁ c') :
    Stores c c' e :=
  ⟨by rw [Awaits, hq.waiting]; exact h.1, h.2⟩

/-- After a call of `send`, a stored packet was stored before or is the one that is sent. -/
theorem send_store (pv : PacketVariant pb) (h : e ∈ (c.send pv).conn.store.elems) :
    Keeps c (c.send pv).conn e ∨ Stores c (c.send pv).conn e ∧ e.packetId = pv.packetId := by
  cases send_cases pv c with
  | quiet hq =>
    rw [hq.1.store] at h
    exact .inl (.ofEq h hq.1.waiting)
  | tooLarge hallowed hsize hown hid hconn hevents =>
    rw [hconn] at h ⊢
    exact .inl (.ofEq h rfl)
  | connect hallowed htype hstatus clean hc₁ hconn hevents =>
    rw [hconn.store, hc₁] at h
    cases clean with
    | true => exact absurd h List.not_mem_nil
    -- a CONNECT that goes on with the session clears only the identifiers of SUBACK and UNSUBACK
    | false =>
      left
      refine .quiet (.ofAcks h fun k hsuback hunsuback => ?_) hconn
      rw [hc₁]
      cases k with
      | suback => exact absurd rfl hsuback
      | unsuback => exact absurd rfl hunsuback
      | _ => rfl
  | connack hallowed htype hstatus hst hc₁ hconn hevents =>
    rw [hconn.store, sendStored_conn] at h
    left
    refine .quiet (.ofEq ?_ ?_) hconn
    · have hmem := (List.mem_filter.mp h).1
      rw [hc₁] at hmem
      exact hmem
    · rw [sendStored_conn, hc₁]
      rfl
  | pubrecRefused hpv hcode hconn hevents =>
    rw [hconn.store] at h
    exact .inl (.ofEq h (hconn.waiting.trans rfl))
  | pubrel hallowed htype hstatus p hp hconn hevents =>
    rw [hconn.store] at h
    -- a PUBREL adds its identifier to those that wait for PUBCOMP
    have hkeeps : e ∈ c.store.elems → Keeps c (c.send pv).conn e := by
      intro hmem
      refine .quiet ⟨hmem, fun ha => ?_⟩ hconn
      unfold Awaits at ha ⊢
      cases hack : storedAck e with
      | pubcomp => rw [hack] at ha; exact OrdSet.mem_insert.mpr (.inr ha)
      | _ => rw [hack] at ha; exact ha
    dsimp only at h
    split at h
    · rcases Store.mem_add h with hmem | hpacket
      · exact .inl (hkeeps hmem)
      -- the new element is the PUBREL itself
      · right
        have hid : e.packetId = pv.packetId := by
          rw [StorePacketVariant.packetId, hpacket, ← hp]
          cases p <;> rfl
        refine ⟨.quiet ⟨?_, ?_⟩ hconn, hid⟩
        · have hpubrel : e.packet.toPacketVariant.type = .pubrel := by rw [hpacket, hp, htype]
          have hack : storedAck e = .pubcomp := by
            obtain ⟨packet, res, hres⟩ := e
            cases packet with
            | v311Publish p | v5Publish p => exact nomatch hpubrel
            | v311Pubrel p | v5Pubrel p =>
              obtain rfl := Option.some.inj hres
              rfl
          rw [Awaits, hack, hid]
          exact OrdSet.mem_insert.mpr (.inl rfl)
        · rw [StorePacketVariant.version, hpacket, hp, sendAllowed_version hallowed]
    · exact .inl (hkeeps h)
  | subscribe hallowed htype hconn hevents | unsubscribe hallowed htype hconn hevents =>
    rw [hconn.store] at h
    left
    refine .quiet (.ofAcks h fun k hsuback hunsuback => ?_) hconn
    cases k with
    -- the sets of SUBSCRIBE and UNSUBSCRIBE do not matter for what is stored
    | suback => exact absurd rfl hsuback
    | unsuback => exact absurd rfl hunsuback
    | _ => rfl
  | publish hallowed htype hr hconn hevents =>
    rw [hconn.store] at h
    have hversion := sendAllowed_version hallowed
    cases hr with
    | stopped henters hstopped =>
      obtain ⟨tas, m, heq, -⟩ := hstopped.conn
      rw [heq] at h
      left
      exact .quiet (.ofEq h (by rw [heq]; rfl)) hconn
    | plain hqos pv' htype' hid hopts hok heq hev =>
      rw [heq] at h
      left
      exact .quiet (.ofEq h (by rw [heq]; rfl)) hconn
    | @failed hlate ec c₁ hc₁ heq =>
      -- what fails late has entered the session, so that it may have been stored
      have henters := publishFailsLate_enters hlate
      obtain ⟨m, hm, -⟩ := failRelease_conn c₁ ec pv.packetId
      rw [heq, hm, hc₁] at h hconn
      rcases publishEntered_store henters hversion rfl h with hk | hs
      · exact .inl (hk.quiet hconn)
      · exact .inr ⟨hs.1.quiet hconn, hs.2⟩
    | entered henters hlate pv' htype' hid hopts hok heq hev =>
      rw [heq] at h hconn
      rcases publishEntered_store henters hversion rfl h with hk | hs
      · exact .inl (hk.quiet hconn)
      · exact .inr ⟨hs.1.quiet hconn, hs.2⟩

/-! ### Receiving -/

/-- The response to a stored packet removes it from the store and ends the wait for the
    response. -/
theorem keeps_erase {pv : PacketVariant pb} (v5 v311 : ResponsePacket) (k : AckKind)
    (hk : ∀ e : StorePacketVariant pb, storedAck e = k →
      e.responsePacketType = if e.version = .v5 then v5 else v311)
    (hversion : e ∈ c.store.elems → e.version = pv.version) {packetId : Nat}
    (hstore : c'.store = c.store.erase (ackResponse v5 v311 pv) packetId)
    (hwaiting : ∀ k', c'.waiting k' = if k' = k then (c.waiting k').erase packetId
      else c.waiting k')
    (h : e ∈ c'.store.elems) : Keeps c c' e := by
  rw [hstore] at h
  obtain ⟨hmem, hne⟩ := Store.mem_erase.mp h
  refine ⟨hmem, fun ha => ?_⟩
  rw [Awaits, hwaiting]
  split
  · next hack =>
    apply OrdSet.mem_erase.mpr
    refine ⟨ha, fun hid => hne ⟨?_, hid⟩⟩
    rw [hk e hack, hversion hmem]
    rfl
  · exact ha

/-- After a packet was received, a stored packet was stored before or is the PUBREL that
    answers it. -/
theorem RecvOutcome.store {pv : PacketVariant pb} {s : Step role pb} (hout : RecvOutcome c pv s)
    (hversion : c.status = .connected → e ∈ c.store.elems → e.version = pv.version)
    (hclean : pv.type = .connect → c.status = .disconnected → pv.view.cleanStart →
      c.store.elems = [])
    (h : e ∈ s.conn.store.elems) : Keeps c s.conn e ∨ Stores c s.conn e := by
  cases hout with
  | quiet hq =>
    rw [hq.1.store] at h
    exact .inl (.ofEq h hq.1.waiting)
  | connect htype hstatus clean htas hconn hevents hcleanStart =>
    rw [hconn] at h ⊢
    left
    cases clean with
    | true =>
      have hnil := hclean htype hstatus hcleanStart.symm
      rw [hnil] at h
      exact absurd h List.not_mem_nil
    | false =>
      refine .ofAcks h fun k hsuback hunsuback => ?_
      cases k with
      | suback => exact absurd rfl hsuback
      | unsuback => exact absurd rfl hunsuback
      | _ => rfl
  | @connack haccepts hstatus _ _ _ c₁ htas hc₁ hconn hevents =>
    rw [hconn] at h ⊢
    have hwaiting : c₁.waiting = c.waiting := by
      rw [hc₁]
      rfl
    unfold resumeSession at h ⊢
    split at h
    · next hpresent =>
      rw [if_pos hpresent]
      rw [sendStored_conn] at h ⊢
      left
      refine .ofEq ?_ hwaiting
      have hmem := (List.mem_filter.mp h).1
      rw [hc₁] at hmem
      exact hmem
    · exact absurd h List.not_mem_nil
  | publish htype hconn hevents | publishDelivered htype hqos hnew hconn _ _ _ _ hevents
  | publishRejected hpv hstatus hqos hmax hnew halias hconn hevents
  | pubrel htype hconn hevents =>
    rw [hconn.store] at h
    exact .inl (.ofEq h (hconn.waiting.trans rfl))
  | puback htype hstatus hmem hconn hevents =>
    left
    refine keeps_erase .v5Puback .v311Puback .puback ?_ (hversion hstatus) (by rw [hconn]) ?_ h
    · intro e hack
      rw [e.response_eq, hack]
    · intro k
      rw [hconn]
      cases k <;> rfl
  | @pubrecFailed p hpv hcode hstatus hmem hconn hevents =>
    left
    refine keeps_erase .v5Pubrec .v311Pubrec .pubrec ?_ (hversion hstatus)
      (by rw [hconn, hpv]; rfl) ?_ h
    · intro e hack
      rw [e.response_eq, hack]
    · intro k
      rw [hconn]
      cases k <;> rfl
  | @pubrec htype hcode hstatus hmem c₁ r hc₁ hr hconn hevents =>
    have hkeeps : e ∈ c₁.store.elems → Keeps c c₁ e := by
      intro hmem₁
      refine keeps_erase .v5Pubrec .v311Pubrec .pubrec ?_ (hversion hstatus) (by rw [hc₁]) ?_ hmem₁
      · intro e hack
        rw [e.response_eq, hack]
      · intro k
        rw [hc₁]
        cases k <;> rfl
    rw [hconn] at h ⊢
    -- the PUBREL that answers may be stored
    have hr' : Keeps c₁ r.conn e ∨ Stores c₁ r.conn e := by
      rw [hr] at h ⊢
      unfold respondIf at h ⊢
      split at h
      · next hcond =>
        rw [if_pos hcond]
        exact (send_store _ h).imp_right And.left
      · next hcond =>
        rw [if_neg hcond]
        exact .inl (.ofEq h rfl)
    rcases hr' with hk | hs
    · have hfirst := hkeeps hk.1
      exact .inl ⟨hfirst.1, fun ha => hk.2 (hfirst.2 ha)⟩
    · have hsame : c₁.protocolVersion = c.protocolVersion := by rw [hc₁]
      exact .inr ⟨hs.1, hs.2.trans hsame⟩
  | pubcomp htype hstatus hmem hconn hevents =>
    left
    refine keeps_erase .v5Pubcomp .v311Pubcomp .pubcomp ?_ (hversion hstatus) (by rw [hconn]) ?_ h
    · intro e hack
      rw [e.response_eq, hack]
    · intro k
      rw [hconn]
      cases k <;> rfl
  | suback htype hmem hconn hevents | unsuback htype hmem hconn hevents =>
    rw [hconn] at h ⊢
    refine .inl (.ofAcks h fun k hsuback hunsuback => ?_)
    cases k with
    | suback => exact absurd rfl hsuback
    | unsuback => exact absurd rfl hunsuback
    | _ => rfl

/-- After a call of `recv`, a stored packet was stored before or is the PUBREL that
    answers. -/
theorem recv_store {is : List UInt8}
    (hversion : ∀ pv, c.received is = some pv → c.status = .connected → e ∈ c.store.elems →
      e.version = pv.version)
    (hclean : ∀ pv, c.received is = some pv → pv.type = .connect → c.status = .disconnected →
      pv.view.cleanStart → c.store.elems = [])
    (h : e ∈ (c.recv is).1.conn.store.elems) :
    Keeps c (c.recv is).1.conn e ∨ Stores c (c.recv is).1.conn e := by
  rcases recv_cases is (c := c) rfl with hq | ⟨pv, hpv, hout⟩ | ⟨value, c₁, -, -, hc₁, hs⟩
  · rw [hq.1.store] at h
    exact .inl (.ofEq h hq.1.waiting)
  · exact hout.store (hversion pv hpv) (hclean pv hpv) h
  · have hsame : c₁.store = c.store ∧ c₁.waiting = c.waiting ∧
        c₁.protocolVersion = c.protocolVersion := by
      rw [hc₁]
      exact ⟨rfl, rfl, rfl⟩
    obtain ⟨hstore, hwaiting, hver⟩ := hsame
    rw [hs, Step.conn_emit] at h ⊢
    rcases send_store _ h with hk | ⟨hs, -⟩
    · refine .inl ⟨hstore ▸ hk.1, fun ha => hk.2 ?_⟩
      rw [Awaits, hwaiting]
      exact ha
    · exact .inr ⟨hs.1, hs.2.trans hver⟩

/-! ### Restoring -/

theorem restorePacket_store {pv : StorePacketVariant pb}
    (h : e ∈ (c.restorePacket pv).store.elems) :
    Keeps c (c.restorePacket pv) e ∨ (c.restorePacket pv).Awaits e ∧ e.packet = pv.packet := by
  have hwaiting := waiting_restorePacket pv c
  have hstore : ∀ c₁ : Connection role pb, e ∈ (c₁.restoreStore pv.packet).store.elems →
      e ∈ c₁.store.elems ∨ e.packet = pv.packet := by
    intro c₁ h
    unfold restoreStore at h
    dsimp only at h
    split at h
    · exact Store.mem_add h
    · exact .inl h
  have hpublish : ∀ (qos : UInt8) (packetId : Nat),
      (c.restorePublish qos packetId).store = c.store := by
    intro qos packetId
    obtain ⟨a, b, heq⟩ := c.restorePublish_eq qos packetId
    rw [heq]
  have hmem : e ∈ c.store.elems ∨ e.packet = pv.packet := by
    unfold restorePacket at h
    split at h
    · exact hpublish _ _ ▸ hstore _ h
    · exact hpublish _ _ ▸ hstore _ h
    · have hmem := hstore _ h
      exact hmem
    · have hmem := hstore _ h
      exact hmem
  -- the element was there, or it is the restored one
  rcases hmem with hmem | hpacket
  · left
    refine ⟨hmem, fun ha => ?_⟩
    rw [Awaits, hwaiting]
    split
    · exact OrdSet.mem_insert.mpr (.inr ha)
    · exact ha
  · right
    refine ⟨?_, hpacket⟩
    -- the element and the restored packet answer to the same acknowledgement
    have hack : storedAck e = storedAck pv := by
      obtain ⟨packet, res, hres⟩ := e
      obtain ⟨packet', res', hres'⟩ := pv
      obtain rfl : packet = packet' := hpacket
      obtain rfl : res = res' := Option.some.inj (hres.symm.trans hres')
      rfl
    have hid : e.packetId = pv.packetId := congrArg StorePacket.packetId hpacket
    rw [Awaits, hwaiting, if_pos hack, hid]
    exact OrdSet.mem_insert.mpr (.inl rfl)

/-- After `restore_packets`, a stored packet was stored before or is one of those
    packets. -/
theorem restorePackets_store {pvs : List (StorePacketVariant pb)}
    (h : e ∈ (c.restorePackets pvs).store.elems) :
    Keeps c (c.restorePackets pvs) e ∨
      (c.restorePackets pvs).Awaits e ∧ ∃ pv ∈ pvs, e.packet = pv.packet := by
  induction pvs generalizing c with
  | nil => exact .inl ⟨h, fun ha => ha⟩
  | cons pv pvs ih =>
    rcases ih h with ⟨hmem, ha⟩ | ⟨ha, pv', hpv', hpacket⟩
    · rcases restorePacket_store hmem with ⟨hmem', ha'⟩ | ⟨ha', hpacket⟩
      · exact .inl ⟨hmem', fun h => ha (ha' h)⟩
      · exact .inr ⟨ha ha', pv, List.mem_cons_self, hpacket⟩
    · exact .inr ⟨ha, pv', List.mem_cons_of_mem _ hpv', hpacket⟩

end Connection

end AsyncMqtt
