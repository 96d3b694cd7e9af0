import AsyncMqtt.Spec.RecvSignals
import AsyncMqtt.Spec.StoreSteps

/-!
# Stored packets can be acknowledged

A packet in the store is sent again when the session is resumed, and its acknowledgement
has to be expected then: its identifier is in `pid_puback_`, `pid_pubrec_` or
`pid_pubcomp_`, and it is in use. `Connection.Ackable` is the invariant behind this. Besides
that, the identifier of a stored packet waits for no other acknowledgement, as its arrival
would free it, and the packet is of the version of the connection, as an acknowledgement
removes only packets of its own version from the store.

The sets are cleared without the store by a clean CONNECT that is received and by
`notify_closed`, and a PUBLISH is stored before it fails. `Connection.KeepsStored` says which
calls do so.

## Key results

- `Connection.send_ackable`, `Connection.recv_ackable`: what keeps the invariant
- `Connection.recv_acked`: the acknowledgement of a stored packet is accepted
- `Connection.stored_ackable`: in a run of calls that keep it, every stored packet can be
  acknowledged
- `Connection.stored_not_awaited`: a run with one that does not
-/

namespace AsyncMqtt

/-- The class of the packets that acknowledge. -/
def AckKind.type : AckKind → ControlPacketType
  | .suback => .suback
  | .unsuback => .unsuback
  | .puback => .puback
  | .pubrec => .pubrec
  | .pubcomp => .pubcomp

/-- The acknowledgement that a stored packet waits for, by its version. -/
theorem StorePacketVariant.response_of_ack {pb : PacketIdBytes}
    (e : StorePacketVariant pb) :
    (Connection.storedAck e = .puback →
      e.responsePacketType = if e.version = .v5 then .v5Puback else .v311Puback) ∧
    (Connection.storedAck e = .pubrec →
      e.responsePacketType = if e.version = .v5 then .v5Pubrec else .v311Pubrec) ∧
    (Connection.storedAck e = .pubcomp →
      e.responsePacketType = if e.version = .v5 then .v5Pubcomp else .v311Pubcomp) := by
  refine ⟨fun hack => ?_, fun hack => ?_, fun hack => ?_⟩ <;> rw [e.response_eq, hack]

namespace Connection

variable {role : Role} {pb : PacketIdBytes}

/-- There is a stored packet with this identifier. -/
def HasStored (c : Connection role pb) (packetId : Nat) : Prop :=
  ∃ e ∈ c.store.elems, e.packetId = packetId

/-- Whether the store has the identifier can be decided. -/
instance (c : Connection role pb) (packetId : Nat) : Decidable (c.HasStored packetId) :=
  inferInstanceAs (Decidable (∃ e ∈ _, _))

/-- Every stored packet waits for its acknowledgement and for no other, its identifier is in
    use, and it is of the version of the connection. -/
structure Ackable (c : Connection role pb) : Prop where
  awaited : ∀ e ∈ c.store.elems, c.Awaits e
  alone : ∀ e ∈ c.store.elems, c.OnlyWaits (storedAck e) e.packetId
  used : ∀ e ∈ c.store.elems, e.packetId ∉ c.pidMan.pool
  version : c.protocolVersion ≠ .undetermined → ∀ e ∈ c.store.elems, e.version = c.protocolVersion
  bounded : ∀ k, ∀ packetId ∈ c.waiting k, packetId < pb.limit
  range : ∀ packetId ∈ c.pidMan.pool, packetId < pb.limit
  highest : c.pidMan.highest < pb.limit

/-! ### Calls that keep the invariant -/

/-- A packet that `send` lets pass the checks of class, status, version and size. -/
def AcceptKeeps (c : Connection role pb) (pv : PacketVariant pb) : Prop :=
  match pv.type with
  | .publish =>
    if c.publishEnters pv then
      c.storesPublish ∨ c.HasStored pv.packetId →
        ¬ c.publishFailsLate pv ∧ c.OnlyWaits (publishAck pv.view.opts) pv.packetId
    else pv.packetId = 0 ∨ ¬ c.HasStored pv.packetId
  | .pubrel => c.needStore ∨ c.HasStored pv.packetId → c.Enters .pubcomp pv.packetId
  | .subscribe | .unsubscribe => ¬ c.HasStored pv.packetId
  | _ => True

/-- A call of `send` that stores nothing which cannot be acknowledged, and that leaves the
    identifiers of the stored packets alone. -/
def SendKeeps (c : Connection role pb) (pv : PacketVariant pb) : Prop :=
  c.sendAllowed pv →
    if c.validateMaximumPacketSize pv.size then c.AcceptKeeps pv
    else pv.ownPacketId → pv.packetId ≠ 0 → ¬ c.HasStored pv.packetId

/-- A call of `recv` that keeps the sets and the store together. -/
structure RecvKeeps (c : Connection role pb) (is : List UInt8) : Prop where
  connect : ∀ pv, c.received is = some pv → pv.type = .connect → c.status = .disconnected →
    (pv.view.cleanStart → c.store.elems = []) ∧ ∀ e ∈ c.store.elems, e.version = pv.version
  pubrec : ∀ pv, c.received is = some pv → pv.type = .pubrec → pv.packetId ∈ c.pidPubrec →
    c.autoPubResponse → c.needStore →
    c.pidMan.isUsedId pv.packetId ∧
      ∀ k, pv.packetId ∈ c.waiting k → k = .pubrec ∨ k = .pubcomp

/-- Stored packets can be restored. -/
def RestoreKeeps : List (StorePacketVariant pb) → Connection role pb → Prop
  | [], _ => True
  | pv :: pvs, c =>
    c.OnlyWaits (storedAck pv) pv.packetId ∧
      (c.protocolVersion ≠ .undetermined → pv.version = c.protocolVersion) ∧
      (c.pidMan.Wraps → c.pidMan.isUsedId pv.packetId) ∧
      RestoreKeeps pvs (c.restorePacket pv)

/-- A call that keeps the invariant. -/
def KeepsStored (c : Connection role pb) : Op pb → Prop
  | .acquireUniquePacketId => ¬ c.pidMan.Wraps
  | .registerPacketId packetId => c.pidMan.Wraps → c.pidMan.isUsedId packetId
  | .releasePacketId packetId => ¬ c.HasStored packetId
  | .send pv => c.SendKeeps pv
  | .recv is => c.RecvKeeps is
  | .notifyClosed => ¬ c.needStore → c.store.elems = []
  | .restorePackets pvs => RestoreKeeps pvs c
  | _ => True

/-! ### What a step does to the identifiers -/

/-- A step gives back only identifiers in `frees`, and only those in `enters` begin to wait. -/
structure Touches (c c' : Connection role pb) (frees : Nat → Prop)
    (enters : AckKind → Nat → Prop) : Prop where
  pool : ∀ packetId ∈ c'.pidMan.pool, packetId ∈ c.pidMan.pool ∨
    frees packetId ∧ packetId < pb.limit
  waiting : ∀ k, ∀ packetId ∈ c'.waiting k, packetId ∈ c.waiting k ∨
    enters k packetId ∧ packetId < pb.limit
  highest : c'.pidMan.highest = c.pidMan.highest

section

variable {c c' : Connection role pb} {frees : Nat → Prop} {enters : AckKind → Nat → Prop}

/-- The packets that are stored after a step were stored before, and their identifiers are
    not touched; or their identifiers are in use and wait for one acknowledgement. -/
theorem Ackable.step (h : c.Ackable) (ht : Touches c c' frees enters)
    (hstore : ∀ e ∈ c'.store.elems, c'.Awaits e ∧ ¬ frees e.packetId ∧
      (e ∈ c.store.elems ∧ (∀ k, ¬ enters k e.packetId) ∨
        c.pidMan.isUsedId e.packetId ∧
          ∃ k₀, c.OnlyWaits k₀ e.packetId ∧ ∀ k, enters k e.packetId → k = k₀))
    (hversion : c'.protocolVersion ≠ .undetermined →
      ∀ e ∈ c'.store.elems, e.version = c'.protocolVersion) : c'.Ackable where
  awaited e he := (hstore e he).1
  alone e he k hk := by
    obtain ⟨hawaits, -, ⟨hold, hno⟩ | ⟨-, k₀, honly, hone⟩⟩ := hstore e he
    · rcases ht.waiting k _ hk with hk | ⟨hk, -⟩
      · exact h.alone e hold k hk
      · exact absurd hk (hno k)
    · have hall : ∀ k, e.packetId ∈ c'.waiting k → k = k₀ := fun k hk =>
        (ht.waiting k _ hk).elim (honly k) fun hk => hone k hk.1
      rw [hall k hk, hall _ hawaits]
  used e he hp := by
    obtain ⟨-, hfrees, hid⟩ := hstore e he
    rcases ht.pool _ hp with hp | ⟨hp, -⟩
    · rcases hid with ⟨hold, -⟩ | ⟨hused, -⟩
      · exact h.used e hold hp
      · exact ValueAllocator.isUsed_iff.mp hused hp
    · exact hfrees hp
  version := hversion
  bounded k packetId hk := (ht.waiting k _ hk).elim (h.bounded k packetId) And.right
  range packetId hp := (ht.pool _ hp).elim (h.range packetId) And.right
  highest := ht.highest ▸ h.highest

/-- What is stored has the version of the connection, also when the version is determined. -/
theorem Ackable.sameVersion (h : c.Ackable) (hv : c'.protocolVersion = c.protocolVersion)
    (hdetermined : c'.protocolVersion ≠ .undetermined) :
    ∀ e ∈ c.store.elems, e.version = c'.protocolVersion := by
  rw [hv] at hdetermined ⊢
  exact h.version hdetermined

/-- A step that stores nothing new. -/
theorem Ackable.keep (h : c.Ackable) (ht : Touches c c' frees enters)
    (hstore : ∀ e ∈ c'.store.elems, Keeps c c' e ∧ ¬ frees e.packetId ∧
      ∀ k, enters k e.packetId → k = storedAck e)
    (hversion : c'.protocolVersion ≠ .undetermined →
      ∀ e ∈ c.store.elems, e.version = c'.protocolVersion) : c'.Ackable := by
  refine h.step ht (fun e he => ?_) fun hdetermined e he => ?_
  · obtain ⟨hkeeps, hfrees, henters⟩ := hstore e he
    have hold := hkeeps.1
    exact ⟨hkeeps.2 (h.awaited e hold), hfrees,
      .inr ⟨ValueAllocator.isUsed_iff.mpr (h.used e hold), _, h.alone e hold, henters⟩⟩
  · exact hversion hdetermined e (hstore e he).1.1

/-- A quiet step leaves the version. -/
theorem Quiet.version (h : Quiet c c') : c'.protocolVersion = c.protocolVersion := by
  obtain ⟨_, _, _, _, _, -, rfl⟩ := h
  rfl

/-- Nothing awaited changes. -/
theorem touches_same (hw : c'.waiting = c.waiting) (hm : c'.pidMan = c.pidMan) :
    Touches c c' (fun _ => False) (fun _ _ => False) where
  pool packetId hp := .inl (hm ▸ hp)
  waiting k packetId hk := .inl (hw ▸ hk)
  highest := by rw [hm]

/-- Only the awaited responses, the manager, the store and the version count. -/
theorem Ackable.congr (h : c.Ackable) (hw : c'.waiting = c.waiting) (hm : c'.pidMan = c.pidMan)
    (hs : ∀ e ∈ c'.store.elems, e ∈ c.store.elems)
    (hv : c'.protocolVersion = c.protocolVersion) : c'.Ackable :=
  h.keep (touches_same hw hm) (fun e he => ⟨.ofEq (hs e he) hw, nofun, nofun⟩) (h.sameVersion hv)

/-- A quiet step keeps the stored packets ackable. -/
theorem Ackable.quiet (h : c.Ackable) (hq : Quiet c c') : c'.Ackable :=
  h.congr hq.waiting hq.pidMan (fun _ he => hq.store ▸ he) hq.version

/-- Without stored packets only the identifiers have to be in range. -/
theorem Ackable.empty (h : c.Ackable) (ht : Touches c c' frees enters)
    (hs : c'.store.elems = []) : c'.Ackable :=
  h.step ht (fun e he => by rw [hs] at he; exact nomatch he)
    fun _ e he => by rw [hs] at he; exact nomatch he

/-- There is only one stored packet with an identifier. -/
theorem Ackable.eq_of_id (h : c.Ackable) (hdetermined : c.protocolVersion ≠ .undetermined)
    {e e' : StorePacketVariant pb} (he : e ∈ c.store.elems) (he' : e' ∈ c.store.elems)
    (hid : e.packetId = e'.packetId) : e = e' := by
  have hack : storedAck e' = storedAck e := by
    apply h.alone e he
    rw [hid]
    exact h.awaited e' he'
  have hversion : e'.version = e.version :=
    (h.version hdetermined e' he').trans (h.version hdetermined e he).symm
  have hresponse : e.responsePacketType = e'.responsePacketType := by
    rw [e.response_eq, e'.response_eq, hack, hversion]
  by_contra hne
  have : Std.Symm fun a b : StorePacketVariant pb =>
      ¬ (a.responsePacketType = b.responsePacketType ∧ a.packetId = b.packetId) :=
    ⟨fun a b hab hba => hab ⟨hba.1.symm, hba.2.symm⟩⟩
  exact c.store.unique.forall he he' hne ⟨hresponse, hid⟩

/-- Stored packets that have become too large leave the store with their identifiers. -/
theorem sendStored_ackable (h : c.Ackable) (hdetermined : c.protocolVersion ≠ .undetermined) :
    c.sendStored.conn.Ackable := by
  have ht : Touches c c.sendStored.conn
      (fun packetId => ∃ e ∈ c.store.elems, c.maximumPacketSizeSend < e.size ∧
        e.packetId = packetId) (fun _ _ => False) := by
    rw [sendStored_conn]
    constructor
    · intro packetId hp
      rcases mem_pool_releaseTooLarge hp with hp | ⟨e, he, hlarge, rfl⟩
      · exact .inl hp
      · exact .inr ⟨⟨e, he, hlarge, rfl⟩, e.packet.packetId_lt⟩
    · exact fun k packetId hk => .inl hk
    · exact highest_releaseTooLarge _ _ _
  refine h.keep ht (fun e he => ?_) (h.sameVersion (by rw [sendStored_conn]))
  rw [sendStored_conn] at he
  obtain ⟨hmem, hfits⟩ := List.mem_filter.mp he
  refine ⟨.ofEq hmem (by rw [sendStored_conn]; rfl), ?_, nofun⟩
  rintro ⟨e', he', hlarge, hid⟩
  obtain rfl := h.eq_of_id hdetermined he' hmem hid
  exact absurd hlarge (by simpa using hfits)

/-! ### Sending -/

/-- An identifier that begins to wait for one acknowledgement. -/
theorem touches_enter {k : AckKind} {packetId : Nat} (hlt : packetId < pb.limit)
    (hw : ∀ k', c'.waiting k' = if k' = k then (c.waiting k').insert packetId else c.waiting k')
    (hm : c'.pidMan = c.pidMan) :
    Touches c c' (fun _ => False) (fun k' p => k' = k ∧ p = packetId) where
  pool p hp := .inl (hm ▸ hp)
  waiting k' p hk := by
    rw [hw] at hk
    split at hk
    · next hk' =>
      rcases OrdSet.mem_insert.mp hk with rfl | hk
      · exact .inr ⟨⟨hk', rfl⟩, hlt⟩
      · exact .inl hk
    · exact .inl hk
  highest := by rw [hm]

/-- A packet enters the session: it may be stored, and its identifier waits for one
    acknowledgement. -/
theorem Ackable.enter (h : c.Ackable) {k : AckKind} {packetId : Nat} (hlt : packetId < pb.limit)
    (hw : ∀ k', c'.waiting k' = if k' = k then (c.waiting k').insert packetId else c.waiting k')
    (hm : c'.pidMan = c.pidMan)
    (hstore : ∀ e ∈ c'.store.elems, Keeps c c' e ∨ c'.Awaits e ∧ e.packetId = packetId)
    (hok : ∀ e ∈ c'.store.elems, e.packetId = packetId → c.Enters k packetId)
    (hversion : c'.protocolVersion ≠ .undetermined →
      ∀ e ∈ c'.store.elems, e.version = c'.protocolVersion) : c'.Ackable := by
  refine h.step (touches_enter hlt hw hm) (fun e he => ?_) hversion
  have hawaits : c'.Awaits e := by
    rcases hstore e he with hk | ⟨hs, -⟩
    · exact hk.2 (h.awaited e hk.1)
    · exact hs
  refine ⟨hawaits, not_false, ?_⟩
  by_cases hid : e.packetId = packetId
  · right
    rw [hid]
    exact ⟨(hok e he hid).1, k, (hok e he hid).2, fun k' hk' => hk'.1⟩
  · left
    refine ⟨?_, fun k' hk' => hid hk'.2⟩
    rcases hstore e he with hk | ⟨-, hs⟩
    · exact hk.1
    · exact absurd hs hid

/-- A packet that is sent enters the session. -/
theorem Ackable.sent (h : c.Ackable) {k : AckKind} {packetId : Nat} (hlt : packetId < pb.limit)
    (hw : ∀ k', c'.waiting k' = if k' = k then (c.waiting k').insert packetId else c.waiting k')
    (hm : c'.pidMan = c.pidMan) (hv : c'.protocolVersion = c.protocolVersion)
    (hstore : ∀ e ∈ c'.store.elems, Keeps c c' e ∨ Stores c c' e ∧ e.packetId = packetId)
    (hok : ∀ e ∈ c'.store.elems, e.packetId = packetId → c.Enters k packetId) : c'.Ackable := by
  refine h.enter hlt hw hm (fun e he => ?_) hok fun hdetermined e he => ?_
  · exact (hstore e he).imp_right fun hs => ⟨hs.1.1, hs.2⟩
  · rw [hv] at hdetermined ⊢
    rcases hstore e he with hk | ⟨hs, -⟩
    · exact h.version hdetermined e hk.1
    · exact hs.2

/-- An identifier that no stored packet has is given back. -/
theorem Ackable.release (h : c.Ackable) {packetId : Nat} (hlt : packetId < pb.limit)
    (hw : c'.waiting = c.waiting) (hm : c'.pidMan = c.pidMan.releaseId packetId)
    (hs : c'.store = c.store) (hv : c'.protocolVersion = c.protocolVersion)
    (hid : ¬ c.HasStored packetId) : c'.Ackable := by
  have ht : Touches c c' (fun p => p = packetId) (fun _ _ => False) := by
    constructor
    · intro p hp
      rw [hm] at hp
      rcases mem_pool_releaseId hp with hp | rfl
      · exact .inl hp
      · exact .inr ⟨rfl, hlt⟩
    · exact fun k p hk => .inl (hw ▸ hk)
    · rw [hm]
      rfl
  refine h.keep ht (fun e he => ⟨.ofEq (hs ▸ he) hw, fun heq => ?_, nofun⟩) (h.sameVersion hv)
  exact hid ⟨e, hs ▸ he, heq⟩

/-- A new network connection that goes on with the session. -/
theorem Ackable.reconnect (h : c.Ackable)
    (hw : ∀ k, c'.waiting k = if k = .suback ∨ k = .unsuback then ∅ else c.waiting k)
    (hm : c'.pidMan = c.pidMan) (hs : c'.store = c.store)
    (hv : c'.protocolVersion ≠ .undetermined →
      ∀ e ∈ c.store.elems, e.version = c'.protocolVersion) : c'.Ackable := by
  have ht : Touches c c' (fun _ => False) (fun _ _ => False) := by
    constructor
    · exact fun packetId hp => .inl (hm ▸ hp)
    · intro k packetId hk
      rw [hw] at hk
      split at hk
      · exact absurd hk (OrdSet.notMem_empty _)
      · exact .inl hk
    · rw [hm]
  refine h.keep ht (fun e he => ⟨.ofAcks (hs ▸ he) fun k hne hne' => ?_, nofun, nofun⟩) hv
  rw [hw, if_neg (not_or.mpr ⟨hne, hne'⟩)]

/-- The session is cleared. -/
theorem Ackable.clear (h : c.Ackable)
    (hw : ∀ k, ∀ packetId ∈ c'.waiting k, packetId ∈ c.waiting k)
    (hm : c'.pidMan = c.pidMan.clear) (hs : c'.store.elems = []) : c'.Ackable := by
  have ht : Touches c c' (fun _ => True) (fun _ _ => False) := by
    constructor
    · intro packetId hp
      rw [hm] at hp
      obtain ⟨iv, hiv, -, hhigh⟩ := hp
      obtain rfl := List.mem_singleton.mp hiv
      exact .inr ⟨trivial, Nat.lt_of_le_of_lt hhigh h.highest⟩
    · exact fun k packetId hk => .inl (hw k packetId hk)
    · rw [hm]
      rfl
  exact h.empty ht hs

/-- Without `need_store_` a PUBLISH is not stored. -/
theorem storeEntered_of_not_stores (h : ¬ c.storesPublish) (pv : PacketVariant pb) :
    c.storeEntered pv = c.store := by
  unfold storeEntered
  split
  · exact if_neg h
  · exact if_neg h
  · rfl

/-- A PUBLISH that fails after it has entered the session: it is not stored, and its
    identifier is given back. -/
theorem Ackable.failed (h : c.Ackable) {pv : PacketVariant pb} {tas : Option TopicAliasSend}
    {count : Nat} {c₁ : Connection role pb}
    (hc₁ : c₁ = { c.publishEntered pv with topicAliasSend := tas, publishSendCount := count })
    (hstores : ¬ c.storesPublish) (hid : ¬ c.HasStored pv.packetId) (ec : ErrorCode) :
    (Sent.failRelease c₁ ec pv.packetId).step.conn.Ackable := by
  have hstore : c₁.store = c.store := by
    rw [hc₁, publishEntered_eq]
    exact storeEntered_of_not_stores hstores pv
  have hentered : c₁.Ackable := by
    have hw : ∀ k, c₁.waiting k = if k = publishAck pv.view.opts then
        (c.waiting k).insert pv.packetId else c.waiting k := by
      intro k
      rw [hc₁]
      exact waiting_publishEntered pv k
    refine h.sent pv.packetId_lt hw (by rw [hc₁, publishEntered_eq]) (by rw [hc₁, publishEntered_eq])
      (fun e he => .inl ⟨hstore ▸ he, fun ha => ?_⟩) fun e he heq => ?_
    · rw [Awaits, hw]
      split
      · exact OrdSet.mem_insert.mpr (.inr ha)
      · exact ha
    · exact absurd ⟨e, hstore ▸ he, heq⟩ hid
  unfold Sent.failRelease
  split
  · refine hentered.release pv.packetId_lt rfl rfl rfl rfl ?_
    rw [HasStored, hstore]
    exact hid
  · exact hentered

/-- A PUBLISH keeps the stored packets ackable, if its identifier is used in one exchange only. -/
theorem PublishOutcome.ackable {pv : PacketVariant pb} {r : Sent role pb}
    (hout : PublishOutcome c pv r) (h : c.Ackable) (hversion : c.protocolVersion = pv.version)
    (hok : if c.publishEnters pv then
        c.storesPublish ∨ c.HasStored pv.packetId →
          ¬ c.publishFailsLate pv ∧ c.OnlyWaits (publishAck pv.view.opts) pv.packetId
      else pv.packetId = 0 ∨ ¬ c.HasStored pv.packetId) : r.step.conn.Ackable := by
  cases hout with
  | stopped henters hs =>
    obtain ⟨tas, m, hconn, -, hm⟩ := hs.conn
    rw [if_neg henters] at hok
    rw [hconn]
    rcases hm with rfl | ⟨hne, rfl⟩
    · exact h.congr rfl rfl (fun _ he => he) rfl
    · exact h.release pv.packetId_lt rfl rfl rfl rfl (hok.resolve_left hne)
  | plain _ _ _ _ _ _ hconn =>
    exact h.congr (by rw [hconn]; rfl) (by rw [hconn]) (fun e he => by rw [hconn] at he; exact he)
      (by rw [hconn])
  | @failed hlate ec c₁ hc₁ heq =>
    rw [if_pos (publishFailsLate_enters hlate)] at hok
    have hstores : ¬ c.storesPublish := fun hs => (hok (.inl hs)).1 hlate
    have hid : ¬ c.HasStored pv.packetId := fun hs => (hok (.inr hs)).1 hlate
    rw [heq]
    exact h.failed hc₁ hstores hid ec
  | entered henters hlate _ _ _ _ _ hconn =>
    rw [if_pos henters] at hok
    have hstore : ∀ e ∈ r.step.conn.store.elems, Keeps c r.step.conn e ∨
        Stores c r.step.conn e ∧ e.packetId = pv.packetId := by
      intro e he
      rw [hconn] at he ⊢
      exact publishEntered_store henters hversion rfl he
    have hw : ∀ k, r.step.conn.waiting k = if k = publishAck pv.view.opts then
        (c.waiting k).insert pv.packetId else c.waiting k := by
      intro k
      rw [hconn]
      exact waiting_publishEntered pv k
    refine h.sent pv.packetId_lt hw (by rw [hconn, publishEntered_eq])
      (by rw [hconn, publishEntered_eq]) hstore fun e he hid => ?_
    refine ⟨publishEnters_isUsedId henters, (hok ?_).2⟩
    -- a packet with this identifier is there, so that it was stored now or before
    by_cases hstores : c.storesPublish = true
    · exact .inl hstores
    · right
      rw [hconn, publishEntered_eq] at he
      have hmem : e ∈ (c.storeEntered pv).elems := he
      rw [storeEntered_of_not_stores hstores] at hmem
      exact ⟨e, hmem, hid⟩

/-- A call of `send` keeps the invariant unless it is one of the calls that break it. -/
theorem send_ackable {pv : PacketVariant pb} (h : c.Ackable) (hok : c.SendKeeps pv) :
    (c.send pv).conn.Ackable := by
  by_cases hallowed : c.sendAllowed pv
  case neg =>
    rw [send_of_not_allowed hallowed]
    exact h
  have hok := hok hallowed
  by_cases hsize : c.validateMaximumPacketSize pv.size
  case neg =>
    rw [if_neg hsize] at hok
    rw [send_of_too_large hallowed hsize]
    -- a packet that is too large gives its own identifier back
    by_cases hown : pv.ownPacketId
    · rw [if_pos hown]
      unfold Sent.failRelease
      split
      · next hid => exact h.release pv.packetId_lt rfl rfl rfl rfl (hok hown hid)
      · exact h
    · rw [if_neg hown]
      exact h
  rw [if_pos hsize] at hok
  unfold AcceptKeeps at hok
  have hversion := sendAllowed_version hallowed
  have hdetermined : c.protocolVersion ≠ .undetermined := by
    rw [hversion]
    cases pv <;> exact nofun
  -- what is stored after the call was stored before, or is the packet itself
  have hstore := fun e he => @send_store role pb c e pv he
  cases send_cases pv c with
  | quiet hq => exact h.quiet hq.1
  | tooLarge _ hlarge => exact absurd hsize hlarge
  | connect _ _ _ clean hc₁ hconn =>
    refine Ackable.quiet ?_ hconn
    cases clean with
    | true =>
      apply h.clear
      · intro k packetId hk
        rw [hc₁] at hk
        cases k <;> exact absurd hk (OrdSet.notMem_empty _)
      · rw [hc₁]
        rfl
      · rw [hc₁]
        rfl
    | false =>
      apply h.reconnect
      · intro k
        rw [hc₁]
        cases k <;> rfl
      · rw [hc₁]
        rfl
      · rw [hc₁]
        rfl
      · exact h.sameVersion (by rw [hc₁])
  | connack _ htype _ _ hc₁ hconn =>
    refine Ackable.quiet (sendStored_ackable ?_ ?_) hconn
    · exact h.congr (by rw [hc₁]; rfl) (by rw [hc₁]) (fun e he => by rw [hc₁] at he; exact he)
        (by rw [hc₁])
    · rw [hc₁]
      exact hdetermined
  | pubrecRefused _ _ hconn =>
    exact h.congr hconn.waiting hconn.pidMan (fun _ he => hconn.store ▸ he) hconn.version
  | pubrel _ htype _ p _ hconn =>
    rw [htype] at hok
    have hw : ∀ k, (c.send pv).conn.waiting k =
        if k = .pubcomp then (c.waiting k).insert pv.packetId else c.waiting k := by
      intro k
      rw [hconn.waiting]
      cases k <;> rfl
    refine h.sent pv.packetId_lt hw hconn.pidMan hconn.version hstore fun e he hid => hok ?_
    -- a PUBREL that is not stored may still find a packet with its identifier
    by_cases hneed : c.needStore = true
    · exact .inl hneed
    · right
      rw [hconn.store] at he
      dsimp only at he
      rw [if_neg hneed] at he
      exact ⟨e, he, hid⟩
  | subscribe _ htype hconn =>
    rw [htype] at hok
    have hw : ∀ k, (c.send pv).conn.waiting k =
        if k = .suback then (c.waiting k).insert pv.packetId else c.waiting k := by
      intro k
      rw [hconn.waiting]
      cases k <;> rfl
    refine h.sent pv.packetId_lt hw hconn.pidMan hconn.version hstore fun e he hid => ?_
    rw [hconn.store] at he
    exact absurd ⟨e, he, hid⟩ hok
  | unsubscribe _ htype hconn =>
    rw [htype] at hok
    have hw : ∀ k, (c.send pv).conn.waiting k =
        if k = .unsuback then (c.waiting k).insert pv.packetId else c.waiting k := by
      intro k
      rw [hconn.waiting]
      cases k <;> rfl
    refine h.sent pv.packetId_lt hw hconn.pidMan hconn.version hstore fun e he hid => ?_
    rw [hconn.store] at he
    exact absurd ⟨e, he, hid⟩ hok
  | publish _ htype hout hconn =>
    rw [htype] at hok
    exact (hout.ackable h hversion hok).quiet hconn

/-! ### Receiving -/

/-- An identifier leaves its set, and may be given back. No packet that stays in the store
    has it. -/
theorem Ackable.leave (h : c.Ackable) {k : AckKind} {packetId : Nat} (hlt : packetId < pb.limit)
    (hstore : ∀ e ∈ c'.store.elems, e ∈ c.store.elems ∧ e.packetId ≠ packetId)
    (hw : ∀ k', c'.waiting k' = if k' = k then (c.waiting k').erase packetId else c.waiting k')
    (hm : c'.pidMan = c.pidMan ∨ c'.pidMan = c.pidMan.releaseId packetId)
    (hv : c'.protocolVersion = c.protocolVersion) : c'.Ackable := by
  have ht : Touches c c' (fun p => p = packetId) (fun _ _ => False) := by
    -- only the identifier itself may be given back, and no wait begins
    constructor
    · intro p hp
      rcases hm with hm | hm
      · exact .inl (hm ▸ hp)
      · rw [hm] at hp
        rcases mem_pool_releaseId hp with hp | rfl
        · exact .inl hp
        · exact .inr ⟨rfl, hlt⟩
    · intro k' p hk
      rw [hw] at hk
      split at hk
      · exact .inl (OrdSet.mem_erase.mp hk).1
      · exact .inl hk
    · rcases hm with hm | hm <;> rw [hm]
      rfl
  refine h.keep ht (fun e he => ?_) (h.sameVersion hv)
  -- what is left in the store has another identifier
  obtain ⟨hmem, hne⟩ := hstore e he
  refine ⟨⟨hmem, fun ha => ?_⟩, hne, nofun⟩
  rw [Awaits, hw]
  split
  · exact OrdSet.mem_erase.mpr ⟨ha, hne⟩
  · exact ha

/-- The acknowledgement of a stored packet takes all packets with its identifier out of the
    store. -/
theorem Ackable.erased (h : c.Ackable) (hdetermined : c.protocolVersion ≠ .undetermined)
    {k : AckKind} {v5 v311 : ResponsePacket}
    (hk : ∀ e : StorePacketVariant pb, storedAck e = k →
      e.responsePacketType = if e.version = .v5 then v5 else v311)
    {pv : PacketVariant pb} (hversion : pv.version = c.protocolVersion) {packetId : Nat}
    (hmem : packetId ∈ c.waiting k) :
    ∀ e ∈ (c.store.erase (ackResponse v5 v311 pv) packetId).elems,
      e ∈ c.store.elems ∧ e.packetId ≠ packetId := by
  intro e he
  obtain ⟨hold, hne⟩ := Store.mem_erase.mp he
  refine ⟨hold, fun hid => hne ⟨?_, hid⟩⟩
  have hack : storedAck e = k := (h.alone e hold k (hid ▸ hmem)).symm
  rw [hk e hack, h.version hdetermined e hold, ackResponse, hversion]

/-- No stored packet has an identifier that waits for SUBACK or UNSUBACK. -/
theorem Ackable.not_stored (h : c.Ackable) {k : AckKind} (hk : k = .suback ∨ k = .unsuback)
    {packetId : Nat} (hmem : packetId ∈ c.waiting k) :
    ∀ e ∈ c.store.elems, e ∈ c.store.elems ∧ e.packetId ≠ packetId := by
  intro e he
  refine ⟨he, fun hid => ?_⟩
  have hack : storedAck e = k := (h.alone e he k (hid ▸ hmem)).symm
  obtain ⟨hsuback, hunsuback⟩ := storedAck_ne e
  rcases hk with rfl | rfl
  · exact hsuback hack
  · exact hunsuback hack

/-- A session that is resumed or cleared -/
theorem resumeSession_ackable (h : c.Ackable) (hdetermined : c.protocolVersion ≠ .undetermined)
    (sessionPresent : Bool) : (c.resumeSession sessionPresent).conn.Ackable := by
  unfold resumeSession
  split
  · exact sendStored_ackable h hdetermined
  · apply h.clear
    · intro k packetId hk
      cases k with
      | suback | unsuback => exact hk
      | _ => exact absurd hk (OrdSet.notMem_empty _)
    · rfl
    · rfl

/-- The answer to a PUBREC: the PUBLISH is no longer stored, and the PUBREL may be. -/
theorem pubrec_ackable (h : c.Ackable) {packetId : Nat} (hlt : packetId < pb.limit)
    (hid : ¬ c.HasStored packetId)
    (hok : c.autoPubResponse → c.needStore → c.Enters .pubcomp packetId) (ver : ProtocolVersion) :
    (c.respondIf c.autoPubResponse (pubrelOf ver pb packetId)).conn.Ackable := by
  unfold respondIf
  split
  · next hcond =>
    refine send_ackable h fun _ => ?_
    split
    · rw [AcceptKeeps, pubrelOf_type, pubrelOf_packetId ver hlt]
      rintro (hneed | hstored)
      · exact hok (by simpa using hcond.1) hneed
      · exact absurd hstored hid
    · rw [pubrelOf_packetId ver hlt]
      exact fun _ _ => hid
  · exact h

/-- A CONNECT is taken: nothing waits any more, or only what goes on with the session. -/
theorem Ackable.connectTaken (h : c.Ackable) (clean : Bool)
    (hw : ∀ k, c'.waiting k =
      if k = .suback ∨ k = .unsuback ∨ clean then ∅ else c.waiting k)
    (hm : c'.pidMan = c.pidMan) (hs : c'.store = c.store) (hempty : clean → c.store.elems = [])
    (hv : ∀ e ∈ c.store.elems, e.version = c'.protocolVersion) : c'.Ackable := by
  cases clean with
  -- a clean start is refused unless nothing is stored
  | true =>
    have ht : Touches c c' (fun _ => False) (fun _ _ => False) := by
      refine ⟨fun _ hp => .inl (hm ▸ hp), fun k packetId hk => ?_, by rw [hm]⟩
      rw [hw, if_pos (.inr (.inr rfl))] at hk
      exact absurd hk (OrdSet.notMem_empty _)
    exact h.empty ht (by rw [hs]; exact hempty rfl)
  | false =>
    refine h.reconnect (fun k => ?_) hm hs fun _ => hv
    rw [hw]
    simp

/-- The acknowledgement of a stored packet is taken: its identifier leaves the set, and with it the
    packet leaves the store. -/
theorem Ackable.ackTaken (h : c.Ackable) {k : AckKind} {v5 v311 : ResponsePacket}
    {pv : PacketVariant pb}
    (hversion : c.protocolVersion ≠ .undetermined ∧ pv.version = c.protocolVersion)
    (hk : ∀ e : StorePacketVariant pb, storedAck e = k →
      e.responsePacketType = if e.version = .v5 then v5 else v311)
    (hmem : pv.packetId ∈ c.waiting k)
    (hw : ∀ k', c'.waiting k' = if k' = k then (c.waiting k').erase pv.packetId else c.waiting k')
    (hs : c'.store = c.store.erase (ackResponse v5 v311 pv) pv.packetId)
    (hm : c'.pidMan = c.pidMan.releaseId pv.packetId)
    (hv : c'.protocolVersion = c.protocolVersion) : c'.Ackable := by
  refine h.leave pv.packetId_lt (fun e he => ?_) hw (.inr hm) hv
  rw [hs] at he
  exact h.erased hversion.1 hk hversion.2 hmem e he

/-- A SUBACK or an UNSUBACK is taken. What waits for one is never stored. -/
theorem Ackable.subackTaken (h : c.Ackable) {k : AckKind} (hk : k = .suback ∨ k = .unsuback)
    {pv : PacketVariant pb} (hmem : pv.packetId ∈ c.waiting k)
    (hw : ∀ k', c'.waiting k' = if k' = k then (c.waiting k').erase pv.packetId else c.waiting k')
    (hs : c'.store = c.store) (hm : c'.pidMan = c.pidMan.releaseId pv.packetId)
    (hv : c'.protocolVersion = c.protocolVersion) : c'.Ackable := by
  refine h.leave pv.packetId_lt (fun e he => ?_) hw (.inr hm) hv
  rw [hs] at he
  exact h.not_stored hk hmem e he

/-- A PUBREC without an error is taken: the PUBLISH is no longer stored when the PUBREL is answered
    with, and its identifier waits at most for the PUBCOMP. -/
theorem Ackable.pubrecTaken (h : c.Ackable) {pv : PacketVariant pb}
    (hversion : c.protocolVersion ≠ .undetermined ∧ pv.version = c.protocolVersion)
    (hmem : pv.packetId ∈ c.pidPubrec)
    (hwaits : c.autoPubResponse → c.needStore → c.pidMan.isUsedId pv.packetId ∧
      ∀ k, pv.packetId ∈ c.waiting k → k = .pubrec ∨ k = .pubcomp)
    (hc' : c' = { c with
      pidPubrec := c.pidPubrec.erase pv.packetId
      store := c.store.erase (ackResponse .v5Pubrec .v311Pubrec pv) pv.packetId }) :
    (c'.respondIf c'.autoPubResponse (pubrelOf pv.version pb pv.packetId)).conn.Ackable := by
  have hw : ∀ k, c'.waiting k =
      if k = .pubrec then (c.waiting k).erase pv.packetId else c.waiting k := by
    intro k
    rw [hc']
    cases k <;> rfl
  have hstore : ∀ e ∈ c'.store.elems, e ∈ c.store.elems ∧ e.packetId ≠ pv.packetId := by
    intro e he
    rw [hc'] at he
    exact h.erased hversion.1 (fun e => e.response_of_ack.2.1) hversion.2 hmem e he
  have hleft : c'.Ackable :=
    h.leave pv.packetId_lt hstore hw (.inl (by rw [hc'])) (by rw [hc'])
  refine pubrec_ackable hleft pv.packetId_lt ?_ (fun hauto hneed => ?_) pv.version
  -- the PUBREL is stored under an identifier that nothing else has
  · rintro ⟨e, he, hid⟩
    exact (hstore e he).2 hid
  · rw [hc'] at hauto hneed
    -- the identifier is in use, and waits for the PUBCOMP alone
    obtain ⟨hused, hkinds⟩ := hwaits hauto hneed
    refine ⟨by rw [hc']; exact hused, fun k hk => ?_⟩
    rw [hw] at hk
    split at hk
    · exact absurd rfl (OrdSet.mem_erase.mp hk).2
    · next hne => exact (hkinds k hk).resolve_left hne

/-- What a received packet does to a connection keeps the invariant: one case for each outcome. -/
theorem RecvOutcome.ackable {pv : PacketVariant pb} {s : Step role pb} (hout : RecvOutcome c pv s)
    (h : c.Ackable)
    (hversion : pv.type ≠ .connect →
      c.protocolVersion ≠ .undetermined ∧ pv.version = c.protocolVersion)
    (hconnect : pv.type = .connect → c.status = .disconnected →
      (pv.view.cleanStart → c.store.elems = []) ∧ ∀ e ∈ c.store.elems, e.version = pv.version)
    (hpubrec : pv.type = .pubrec → pv.packetId ∈ c.pidPubrec → c.autoPubResponse → c.needStore →
      c.pidMan.isUsedId pv.packetId ∧
        ∀ k, pv.packetId ∈ c.waiting k → k = .pubrec ∨ k = .pubcomp) : s.conn.Ackable := by
  cases hout with
  | quiet hq => exact h.quiet hq.1
  | connect htype hstatus clean htas hconn hevents hclean =>
    obtain ⟨hempty, hstored⟩ := hconnect htype hstatus
    refine h.connectTaken clean (fun k => ?_) (by rw [hconn]) (by rw [hconn])
      (fun hc => hempty (hclean ▸ hc)) (by rw [hconn]; exact hstored)
    rw [hconn]
    cases k <;> cases clean <;> rfl
  | @connack haccepts hstatus _ _ _ c₁ htas hc₁ hconn hevents =>
    -- a CONNACK does not decide the version, so it has the one of the connection
    have hne : pv.type ≠ .connect := by
      intro htype
      simp [PacketVariant.acceptsConnection, htype] at haccepts
    rw [hconn]
    apply resumeSession_ackable
    · exact h.congr (by rw [hc₁]; rfl) (by rw [hc₁]) (fun e he => by rw [hc₁] at he; exact he)
        (by rw [hc₁])
    · rw [hc₁]
      exact (hversion hne).1
  | publish htype hconn hevents | publishDelivered htype hqos hnew hconn _ _ _ _ hevents
  | publishRejected hpv hstatus hqos hmax hnew halias hconn hevents
  | pubrel htype hconn hevents =>
    exact h.congr hconn.waiting hconn.pidMan (fun _ he => hconn.store ▸ he) hconn.version
  | puback htype hstatus hmem hconn hevents =>
    refine h.ackTaken (k := .puback) (hversion (by rw [htype]; rintro ⟨⟩))
      (fun e => e.response_of_ack.1) hmem (fun k => ?_) (by rw [hconn]) (by rw [hconn]) (by rw [hconn])
    rw [hconn]
    cases k <;> rfl
  | @pubrecFailed p hpv hcode hstatus hmem hconn hevents =>
    subst hpv
    refine h.ackTaken (k := .pubrec) (hversion (by rintro ⟨⟩)) (fun e => e.response_of_ack.2.1) hmem
      (fun k => ?_) (by rw [hconn]; rfl) (by rw [hconn]; rfl) (by rw [hconn])
    rw [hconn]
    cases k <;> rfl
  | @pubrec htype hcode hstatus hmem c₁ r hc₁ hr hconn hevents =>
    have hr' : r.conn.Ackable := by
      rw [hr]
      exact h.pubrecTaken (hversion (by rw [htype]; rintro ⟨⟩)) hmem (hpubrec htype hmem) hc₁
    rw [hconn]
    exact hr'.congr rfl rfl (fun _ he => he) rfl
  | pubcomp htype hstatus hmem hconn hevents =>
    refine h.ackTaken (k := .pubcomp) (hversion (by rw [htype]; rintro ⟨⟩))
      (fun e => e.response_of_ack.2.2) hmem (fun k => ?_) (by rw [hconn]) (by rw [hconn]) (by rw [hconn])
    rw [hconn]
    cases k <;> rfl
  | suback htype hmem hconn hevents =>
    refine h.subackTaken (.inl rfl) hmem (fun k => ?_) (by rw [hconn]) (by rw [hconn]) (by rw [hconn])
    rw [hconn]
    cases k <;> rfl
  | unsuback htype hmem hconn hevents =>
    refine h.subackTaken (.inr rfl) hmem (fun k => ?_) (by rw [hconn]) (by rw [hconn]) (by rw [hconn])
    rw [hconn]
    cases k <;> rfl

/-- A call of `recv` keeps the invariant unless it is one of the calls that break it. -/
theorem recv_ackable {is : List UInt8} (h : c.Ackable) (hok : c.RecvKeeps is) :
    (c.recv is).1.conn.Ackable := by
  have hcongr : ∀ {c₁ : Connection role pb}, c₁.waiting = c.waiting → c₁.pidMan = c.pidMan →
      c₁.store = c.store → c₁.protocolVersion = c.protocolVersion → c₁.Ackable :=
    fun hw hm hs hv => h.congr hw hm (fun _ he => hs ▸ he) hv
  rcases recv_cases is (c := c) rfl with hq | ⟨pv, hpv, hout⟩ | ⟨value, c₁, -, -, hc₁, hs⟩
  · exact hcongr hq.1.waiting hq.1.pidMan hq.1.store hq.1.version
  · refine hout.ackable (hcongr rfl rfl rfl rfl) (fun hne => ?_) (hok.connect pv hpv)
      (hok.pubrec pv hpv)
    have hdetermined : c.protocolVersion ≠ .undetermined :=
      fun hundetermined => hne (received_undetermined hpv hundetermined)
    have hversion : pv.version = c.protocolVersion := received_version hpv hdetermined
    exact ⟨hdetermined, hversion⟩
  · have hc₁' : c₁.Ackable := by
      rw [hc₁]
      exact hcongr rfl rfl rfl rfl
    rw [hs, Step.conn_emit]
    refine send_ackable hc₁' fun _ => ?_
    have htype := c.refusal_type value
    split
    · rw [AcceptKeeps, htype]
      trivial
    · rw [PacketVariant.ownPacketId, htype]
      rintro ⟨⟩

/-! ### The other calls -/

/-- An identifier that is acquired is in no exchange. -/
theorem acquireUniquePacketId_ackable (h : c.Ackable) (hwrap : ¬ c.pidMan.Wraps) :
    c.acquireUniquePacketId.2.Ackable := by
  have hhighest := c.pidMan.highest_allocate
  unfold acquireUniquePacketId PacketIdManager.acquireUniqueId
  rcases hallocate : c.pidMan.allocate with ⟨id?, m⟩
  rw [hallocate] at hhighest
  have hpool : ∀ p ∈ m.pool, p ∈ c.pidMan.pool := by
    cases id? with
    | none =>
      obtain rfl := ValueAllocator.allocate_none hallocate
      exact fun _ hp => hp
    | some packetId =>
      exact fun p hp => ((ValueAllocator.mem_allocate hallocate h.range hwrap).2 p hp).1
  have ht : Touches c { c with pidMan := m } (fun _ => False) (fun _ _ => False) :=
    ⟨fun p hp => .inl (hpool p hp), fun _ _ hk => .inl hk, hhighest⟩
  exact h.keep ht (fun e he => ⟨.ofEq he rfl, nofun, nofun⟩) (h.sameVersion rfl)

/-- An identifier is declared as used. -/
theorem registerId_ackable (h : c.Ackable) {packetId : Nat} (hlt : packetId < pb.limit)
    (hwrap : c.pidMan.Wraps → c.pidMan.isUsedId packetId)
    (hc' : c' = { c with pidMan := (c.pidMan.registerId packetId).2 }) :
    c'.Ackable ∧ c'.pidMan.isUsedId packetId := by
  subst hc'
  have hhighest := c.pidMan.highest_use packetId
  unfold PacketIdManager.registerId at *
  rcases huse : c.pidMan.use packetId with ⟨ok, m⟩
  rw [huse] at hhighest
  have hpool : (∀ p ∈ m.pool, p ∈ c.pidMan.pool) ∧ packetId ∉ m.pool := by
    cases ok with
    | false =>
      obtain ⟨rfl, hused⟩ := ValueAllocator.use_false huse
      exact ⟨fun _ hp => hp, hused⟩
    | true =>
      have hvacant : ¬ c.pidMan.isUsedId packetId := by
        intro hused
        have hnot := ValueAllocator.isUsed_iff.mp hused
        rw [← IntervalPool.find_isSome, Option.not_isSome_iff_eq_none] at hnot
        simp [ValueAllocator.use, hnot] at huse
      obtain ⟨-, hpool⟩ := ValueAllocator.mem_use huse (fun _ => hlt) fun hw => hvacant (hwrap hw)
      exact ⟨fun p hp => (hpool p hp).1, fun hp => (hpool packetId hp).2 rfl⟩
  have ht : Touches c { c with pidMan := m } (fun _ => False) (fun _ _ => False) :=
    ⟨fun p hp => .inl (hpool.1 p hp), fun _ _ hk => .inl hk, hhighest⟩
  exact ⟨h.keep ht (fun e he => ⟨.ofEq he rfl, by rintro ⟨⟩, by rintro _ ⟨⟩⟩) (h.sameVersion rfl),
    ValueAllocator.isUsed_iff.mpr hpool.2⟩

/-- The end of the connection keeps what is stored, if the session is kept. -/
theorem notifyClosed_ackable (h : c.Ackable) (hok : ¬ c.needStore → c.store.elems = []) :
    c.notifyClosed.conn.Ackable := by
  have hw : ∀ k, c.notifyClosed.conn.waiting k =
      if k = .suback ∨ k = .unsuback ∨ ¬ c.needStore then ∅ else c.waiting k := by
    intro k
    rw [notifyClosed_conn]
    by_cases hstore : c.needStore <;> cases k <;> simp [waiting, hstore]
  have hsub : ∀ k, ∀ p ∈ c.notifyClosed.conn.waiting k, p ∈ c.waiting k := by
    intro k p hk
    rw [hw] at hk
    split at hk
    · exact absurd hk (OrdSet.notMem_empty p)
    · exact hk
  -- the identifiers that are freed are those of the sets that are cleared
  have ht : Touches c c.notifyClosed.conn
      (fun p => ∃ k, p ∈ c.waiting k ∧ (k = .suback ∨ k = .unsuback ∨ ¬ c.needStore))
      (fun _ _ => False) := by
    refine ⟨fun p hp => ?_, fun k p hk => .inl (hsub k p hk), ?_⟩
    · have hfreed : ∀ k, p ∈ c.waiting k → (k = .suback ∨ k = .unsuback ∨ ¬ c.needStore) →
          (∃ k, p ∈ c.waiting k ∧ (k = .suback ∨ k = .unsuback ∨ ¬ c.needStore)) ∧ p < pb.limit :=
        fun k hk hcond => ⟨⟨k, hk, hcond⟩, h.bounded k p hk⟩
      rw [notifyClosed_conn] at hp
      rcases mem_pool_releaseUsed hp with hp | hp
      · exact .inl hp
      · right
        simp only [List.mem_append] at hp
        rcases hp with (hp | hp) | hp
        · exact hfreed .suback hp (.inl rfl)
        · exact hfreed .unsuback hp (.inr (.inl rfl))
        · split at hp
          · cases hp
          · next hneed =>
            simp only [List.mem_append] at hp
            rcases hp with (hp | hp) | hp
            · exact hfreed .puback hp (.inr (.inr hneed))
            · exact hfreed .pubrec hp (.inr (.inr hneed))
            · exact hfreed .pubcomp hp (.inr (.inr hneed))
    · rw [notifyClosed_conn]
      exact highest_releaseUsed _ _
  have hstore : c.notifyClosed.conn.store = c.store := by
    rw [notifyClosed_conn]
  -- with `need_store_` the sets of the stored packets are kept
  by_cases hneed : c.needStore = true
  · refine h.keep ht (fun e he => ?_) (h.sameVersion (by rw [notifyClosed_conn]))
    rw [hstore] at he
    refine ⟨.ofAcks he fun k hsuback hunsuback => ?_, ?_, by rintro _ ⟨⟩⟩
    · rw [hw, if_neg]
      rintro (hk | hk | hk)
      · exact hsuback hk
      · exact hunsuback hk
      · exact hk hneed
    · rintro ⟨k, hk, rfl | rfl | hnot⟩
      · exact (h.not_stored (.inl rfl) hk e he).2 rfl
      · exact (h.not_stored (.inr rfl) hk e he).2 rfl
      · exact hnot hneed
  · exact h.empty ht (hstore ▸ hok hneed)

/-- A packet is restored under an identifier that is not in another exchange. -/
theorem restorePacket_ackable {pv : StorePacketVariant pb} (h : c.Ackable)
    (honly : c.OnlyWaits (storedAck pv) pv.packetId)
    (hversion : c.protocolVersion ≠ .undetermined → pv.version = c.protocolVersion)
    (hwrap : c.pidMan.Wraps → c.pidMan.isUsedId pv.packetId) :
    (c.restorePacket pv).Ackable := by
  have hlt : pv.packetId < pb.limit := pv.packet.packetId_lt
  have hv : (c.restorePacket pv).protocolVersion = c.protocolVersion := by
    obtain ⟨m, st, a, b, d, heq⟩ := c.restorePackets_eq [pv]
    change (c.restorePackets [pv]).protocolVersion = c.protocolVersion
    rw [heq]
  obtain ⟨hregister, hused⟩ := registerId_ackable h hlt hwrap rfl
  refine hregister.enter hlt (waiting_restorePacket pv c) (pidMan_restorePacket pv c)
    (fun e he => ?_) (fun _ _ _ => ⟨hused, honly⟩) fun hdetermined e he => ?_
  · rcases restorePacket_store he with hk | ⟨hawaits, hpacket⟩
    · exact .inl hk
    · exact .inr ⟨hawaits, congrArg StorePacket.packetId hpacket⟩
  · rw [hv] at hdetermined ⊢
    rcases restorePacket_store he with hk | ⟨-, hpacket⟩
    · exact h.version hdetermined e hk.1
    · exact (congrArg (·.toPacketVariant.version) hpacket).trans (hversion hdetermined)

/-- Packets are restored one after another. -/
theorem restorePackets_ackable {pvs : List (StorePacketVariant pb)} (h : c.Ackable)
    (hok : RestoreKeeps pvs c) : (c.restorePackets pvs).Ackable := by
  induction pvs generalizing c with
  | nil => exact h
  | cons pv pvs ih =>
    obtain ⟨honly, hversion, hwrap, hrest⟩ := hok
    exact ih (restorePacket_ackable h honly hversion hwrap) hrest

/-- One call. -/
theorem next_ackable {op : Op pb} (h : c.Ackable) (hok : c.KeepsStored op) :
    (c.next op).Ackable := by
  cases op with
  | acquireUniquePacketId => exact acquireUniquePacketId_ackable h hok
  | registerPacketId packetId => exact (registerId_ackable h packetId.isLt hok rfl).1
  | releasePacketId packetId =>
    unfold next call
    rw [releasePacketId_conn]
    unfold releaseUsed
    split
    · exact h.release packetId.isLt rfl rfl rfl rfl hok
    · exact h
  | send pv => exact send_ackable h hok
  | recv is => exact recv_ackable h hok
  | notifyTimerFired kind => exact h.quiet (notifyTimerFired_quiet kind c).1
  | notifyClosed => exact notifyClosed_ackable h hok
  | restorePackets pvs => exact restorePackets_ackable h hok
  | setPingreqSendInterval duration =>
    change (c.setPingreqSendInterval duration).conn.Ackable
    unfold setPingreqSendInterval
    split <;> exact h.congr rfl rfl (fun _ he => he) rfl
  | restoreQos2PublishHandledPids _ | setPingrespRecvTimeout _ | setOfflinePublish _
  | setAutoPubResponse _ | setAutoPingResponse _ | setAutoMapTopicAliasSend _
  | setAutoReplaceTopicAliasSend _ | clock _ =>
    exact h.congr rfl rfl (fun _ he => he) rfl

/-! ### The acknowledgement of a stored packet -/

/-- An acknowledgement was accepted: the owner is told of the packet and of no error, the
    packet that it acknowledges is no longer stored, and its identifier is free, unless a
    PUBREC asks for the second half of the exchange. -/
structure Acked (e : StorePacketVariant pb) (pv : PacketVariant pb) (s : Step role pb) : Prop where
  received : signals s.events = [.receive pv]
  removed : e ∉ s.conn.store.elems
  freed : (pv.type = .pubrec → reasonCodeFailed pv.view.code) → ¬ s.conn.pidMan.isUsedId e.packetId

/-- An acknowledgement that is expected is given to the application. -/
theorem signals_awaited {pv : PacketVariant pb} {k : AckKind} (htype : pv.type = k.type)
    (hmem : pv.packetId ∈ c.waiting k) :
    signals (c.processRecvActual pv).events = [.receive pv] := by
  have hreleased : ∀ {c' c'' : Connection role pb} (packetId : Nat),
      signals ((c'.releaseId packetId).andThen fun _ => c''.receive pv).events = [.receive pv] := by
    intro c' c'' packetId
    rw [Step.events_andThen, signals_append, signals_receive]
    rfl
  have hpubrec : ∀ {ver : ProtocolVersion} {failed : Bool}, pv.packetId ∈ c.pidPubrec →
      signals (c.recvPubrec ver failed pv).events = [.receive pv] := by
    intro ver failed hmem
    rw [recvPubrec, if_pos hmem, Step.events_andThen, signals_append, signals_receive]
    split
    · rfl
    · rw [signals_respondIf _ (pubrelOf_isAnswer _ _) (by rw [pubrelOf_type]; rintro ⟨⟩)]
      rfl
  -- each kind of acknowledgement is of one class in each version
  cases k with
  | suback =>
    cases pv with
    | v311Suback p | v5Suback p =>
      rw [processRecvActual, recvSuback, if_pos (by exact hmem)]
      exact hreleased _
    | _ => cases htype
  | unsuback =>
    cases pv with
    | v311Unsuback p | v5Unsuback p =>
      rw [processRecvActual, recvUnsuback, if_pos (by exact hmem)]
      exact hreleased _
    | _ => cases htype
  | puback =>
    cases pv with
    | v311Puback p | v5Puback p =>
      rw [processRecvActual, recvPuback, if_pos (by exact hmem)]
      exact hreleased _
    | _ => cases htype
  | pubrec =>
    cases pv with
    | v311Pubrec p | v5Pubrec p => exact hpubrec hmem
    | _ => cases htype
  | pubcomp =>
    cases pv with
    | v311Pubcomp p | v5Pubcomp p =>
      rw [processRecvActual, recvPubcomp, if_pos (by exact hmem)]
      exact hreleased _
    | _ => cases htype

/-- Sending a PUBREL adds to `pid_pubcomp_` only. -/
theorem waiting_send_pubrel {pv : PacketVariant pb} (htype : pv.type = .pubrel) {k : AckKind}
    (hk : k ≠ .pubcomp) : (c.send pv).conn.waiting k = c.waiting k := by
  cases send_cases pv c with
  | quiet hq => rw [hq.1.waiting]
  | tooLarge _ _ _ _ hconn =>
    rw [hconn]
    rfl
  | pubrel _ _ _ _ _ hconn =>
    rw [hconn.waiting]
    cases k with
    | pubcomp => exact absurd rfl hk
    | _ => rfl
  | pubrecRefused hpv =>
    rw [hpv] at htype
    exact nomatch htype
  | connect _ h | connack _ h | subscribe _ h | unsubscribe _ h | publish _ h =>
    rw [htype] at h
    exact nomatch h

/-- A PUBLISH whose PUBREC has arrived is not stored again by the PUBREL. -/
theorem pubrec_removed {e : StorePacketVariant pb} {packetId : Nat} {ver : ProtocolVersion}
    {cond : Bool} (hack : storedAck e = .pubrec) (hlt : packetId < pb.limit)
    (hold : e ∉ c.store.elems) (hmem : packetId ∉ c.waiting .pubrec) :
    e ∉ (c.respondIf cond (pubrelOf ver pb packetId)).conn.store.elems := by
  unfold respondIf
  split
  · intro he
    rcases send_store _ he with hk | ⟨hs, hid⟩
    · exact hold hk.1
    · rw [pubrelOf_packetId ver hlt] at hid
      have hawaits := hs.1
      rw [Awaits, hack, waiting_send_pubrel (pubrelOf_type ver packetId) (by decide), hid] at hawaits
      exact hmem hawaits
  · exact hold

/-- The response to a stored packet removes it and gives its identifier back. -/
theorem RecvOutcome.acked {e : StorePacketVariant pb} {pv : PacketVariant pb} {s : Step role pb}
    (hout : RecvOutcome c pv s) (h : c.Ackable) (he : e ∈ c.store.elems)
    (htype : pv.type = (storedAck e).type) (hid : pv.packetId = e.packetId)
    (hdetermined : c.protocolVersion ≠ .undetermined) (hver : pv.version = c.protocolVersion)
    (hsignals : signals s.events = [.receive pv]) : Acked e pv s := by
  have hfreed : s.conn.pidMan = c.pidMan.releaseId pv.packetId →
      ¬ s.conn.pidMan.isUsedId e.packetId := by
    intro hpidMan hused
    rw [hpidMan, hid] at hused
    exact ValueAllocator.isUsed_iff.mp hused (ValueAllocator.mem_deallocate_self (h.used e he))
  obtain ⟨hsuback, hunsuback⟩ := storedAck_ne e
  cases hout with
  | quiet hq =>
    -- a response that is not awaited is not delivered
    have hexchange : Event.receive pv ∈ exchanges s.events := by
      refine List.mem_filter.mpr ⟨?_, ?_⟩
      · apply (mem_signals.mp _).1
        rw [hsignals]
        exact List.mem_singleton.mpr rfl
      · cases hack : storedAck e with
        | suback => exact absurd hack hsuback
        | unsuback => exact absurd hack hunsuback
        | puback | pubrec | pubcomp => simp [Event.isExchange, htype, hack, AckKind.type]
    rw [hq.2] at hexchange
    cases hexchange
  | puback _ _ hmem hconn hevents =>
    refine ⟨hsignals, fun hold => ?_, fun _ => hfreed (by rw [hconn])⟩
    rw [hconn] at hold
    exact (h.erased hdetermined (fun e => e.response_of_ack.1) hver hmem e hold).2 hid.symm
  | @pubrecFailed p hpv hcode hstatus hmem hconn hevents =>
    subst hpv
    refine ⟨hsignals, fun hold => ?_, fun _ => hfreed (by rw [hconn]; rfl)⟩
    rw [hconn] at hold
    exact (h.erased hdetermined (fun e => e.response_of_ack.2.1) hver hmem e hold).2 hid.symm
  | @pubrec hpubrec hcode _ hmem c₁ r hc₁ hr hconn hevents =>
    refine ⟨hsignals, ?_, fun hfailed => absurd (hfailed hpubrec) hcode⟩
    have hack : storedAck e = .pubrec := (h.alone e he .pubrec (hid ▸ hmem)).symm
    have hold : e ∉ c₁.store.elems := by
      intro hold
      rw [hc₁] at hold
      exact (h.erased hdetermined (fun e => e.response_of_ack.2.1) hver hmem e hold).2 hid.symm
    -- the PUBREL of the answer does not bring the PUBLISH back
    have hleft : pv.packetId ∉ c₁.waiting .pubrec := by
      rw [hc₁]
      exact fun hleft => (OrdSet.mem_erase.mp hleft).2 rfl
    rw [hconn, hr]
    exact pubrec_removed hack pv.packetId_lt hold hleft
  | pubcomp _ _ hmem hconn hevents =>
    refine ⟨hsignals, fun hold => ?_, fun _ => hfreed (by rw [hconn])⟩
    rw [hconn] at hold
    exact (h.erased hdetermined (fun e => e.response_of_ack.2.2) hver hmem e hold).2 hid.symm
  | connack haccepts =>
    -- the other packets are of another type than the response
    have hconnack : pv.type = .connack := by
      rw [PacketVariant.acceptsConnection, Bool.and_eq_true] at haccepts
      exact of_decide_eq_true haccepts.1
    rw [htype] at hconnack
    cases hack : storedAck e <;> rw [hack] at hconnack <;> cases hconnack
  | publishRejected hpv =>
    rw [hpv] at htype
    cases hack : storedAck e <;> rw [hack] at htype <;> cases htype
  | suback h' =>
    rw [htype] at h'
    cases hack : storedAck e with
    | suback => exact absurd hack hsuback
    | _ => rw [hack] at h'; cases h'
  | unsuback h' =>
    rw [htype] at h'
    cases hack : storedAck e with
    | unsuback => exact absurd hack hunsuback
    | _ => rw [hack] at h'; cases h'
  | connect h' | publish h' | publishDelivered h' | pubrel h' =>
    rw [htype] at h'
    cases hack : storedAck e <;> rw [hack] at h' <;> cases h'

/-- The acknowledgement of a stored packet is accepted. -/
theorem recv_acked {e : StorePacketVariant pb} {is : List UInt8} {pv : PacketVariant pb}
    (h : c.Ackable) (he : e ∈ c.store.elems) (hstatus : c.status = .connected)
    (hpv : c.received is = some pv) (htype : pv.type = (storedAck e).type)
    (hid : pv.packetId = e.packetId) : Acked e pv (c.recv is).1 := by
  have hne : pv.type ≠ .connect := by
    rw [htype]
    cases storedAck e <;> exact nofun
  have hdetermined : c.protocolVersion ≠ .undetermined :=
    fun hundetermined => hne (received_undetermined hpv hundetermined)
  have hversion : pv.version = c.protocolVersion := received_version hpv hdetermined
  have hallowed : ({ c with rpb := (c.rpb.recv is).1 } : Connection role pb).recvAllowed pv := by
    rw [recvAllowed, htype]
    cases storedAck e <;> exact decide_eq_true hstatus
  have h₀ : ({ c with rpb := (c.rpb.recv is).1 } : Connection role pb).Ackable :=
    h.congr rfl rfl (fun _ he => he) rfl
  have hmem : pv.packetId ∈ c.waiting (storedAck e) := by
    rw [hid]
    exact h.awaited e he
  rw [recv_of_received hpv, processRecvDecoded, if_pos hallowed]
  exact (processRecvActual_cases pv hallowed).acked h₀ he htype hid hdetermined hversion
    (signals_awaited htype hmem)

/-- Nothing is stored at the beginning. -/
theorem make_ackable (role : Role) (pb : PacketIdBytes) (ver : ProtocolVersion) :
    (make role pb ver).Ackable where
  awaited _ he := nomatch he
  alone _ he := nomatch he
  used _ he := nomatch he
  version _ _ he := nomatch he
  bounded k _ hk := by cases k <;> exact absurd hk (OrdSet.notMem_empty _)
  range p hp := by
    obtain ⟨iv, hiv, -, hhigh⟩ := hp
    obtain rfl := List.mem_singleton.mp hiv
    exact Nat.lt_of_le_of_lt hhigh (Nat.sub_lt pb.limit_pos (by decide))
  highest := Nat.sub_lt pb.limit_pos (by decide)

end

/-! ### Runs -/

/-- In every run of calls that keep the sets and the store together, a stored packet waits
    for its acknowledgement with an identifier that is in use, and the acknowledgement is
    accepted when it comes. -/
theorem stored_ackable (ver : ProtocolVersion) (ops : List (Op pb))
    (hok : Run.All next KeepsStored (make role pb ver) ops) :
    let c := (make role pb ver).run ops
    ∀ e ∈ c.store.elems,
      e.packetId ∈ c.waiting (storedAck e) ∧ c.pidMan.isUsedId e.packetId ∧
      ∀ is pv, c.status = .connected → c.received is = some pv →
        pv.type = (storedAck e).type → pv.packetId = e.packetId → Acked e pv (c.recv is).1 := by
  intro c e he
  have h : c.Ackable :=
    Run.final_invariant (fun _ _ hop h => next_ackable h hop) (make_ackable role pb ver) hok
  refine ⟨h.awaited e he, ValueAllocator.isUsed_iff.mpr (h.used e he), ?_⟩
  intro is pv hstatus hpv htype hid
  exact recv_acked h he hstatus hpv htype hid

/-- Bytes that hold no CONNECT of another session, and no CONNACK that clears this one -/
theorem keepsStored_recv {c : Connection role pb} {is : List UInt8}
    (hclean : (c.received is).all fun pv => ! pv.view.cleanStart)
    (hversion : (c.received is).all fun pv => c.store.elems.all fun e => e.version = pv.version)
    (hpubrec : c.pidPubrec.elems = []) : c.KeepsStored (.recv is) := by
  constructor
  · intro pv hpv _ _
    rw [hpv] at hclean hversion
    refine ⟨fun hstart => ?_, fun e he => ?_⟩
    · simp [hstart] at hclean
    · exact of_decide_eq_true (List.all_eq_true.mp hversion e he)
  · intro pv _ _ hmem
    have hmem : pv.packetId ∈ c.pidPubrec.elems := hmem
    rw [hpubrec] at hmem
    exact nomatch hmem

/-- A packet that is not too large keeps what is stored. -/
theorem keepsStored_send {c : Connection role pb} {pv : PacketVariant pb}
    (hsize : c.validateMaximumPacketSize pv.size)
    (hpv : pv.type = .connack ∨ pv.type = .publish ∧ c.publishEnters pv ∧
      ¬ c.publishFailsLate pv ∧ c.OnlyWaits (publishAck pv.view.opts) pv.packetId) :
    c.KeepsStored (.send pv) := by
  intro _
  rw [if_pos hsize, AcceptKeeps]
  rcases hpv with htype | ⟨htype, henters, hlate, honly⟩
  · rw [htype]
    trivial
  · rw [htype]
    dsimp only
    rw [if_pos henters]
    exact fun _ => ⟨hlate, honly⟩

/-- A client acknowledges the PUBLISH that is stored for its session. -/
theorem stored_ackable_publish :
    ∃ p, V311.publishPacket .two 1 [0x61] [[0x62]] 2 = .ok p ∧
      let ops : List (Op .two) :=
        [.recv [0x10, 0x0D, 0, 4, 0x4D, 0x51, 0x54, 0x54, 4, 0, 0, 10, 0, 1, 0x63],
          .send (.v311Connack (V311.connackPacket false 0)), .acquireUniquePacketId,
          .send (.v311Publish p)]
      let c := (make .server .two .v311).run ops
      ∃ e ∈ c.store.elems, e.packetId = 1 ∧ 1 ∈ c.pidPuback ∧ c.pidMan.isUsedId 1 ∧
        ∃ pv, c.received [0x40, 2, 0, 1] = some pv ∧ Acked e pv (c.recv [0x40, 2, 0, 1]).1 := by
  refine ⟨_, rfl, ?_⟩
  intro ops c
  have hok : Run.All next KeepsStored (make .server .two .v311) ops := by
    simp only [ops, Run.all_cons, Run.all_nil, and_true]
    refine ⟨keepsStored_recv ?_ ?_ ?_, keepsStored_send ?_ (.inl rfl),
      fun hwrap => absurd hwrap.1 nofun, keepsStored_send ?_ (.inr ⟨rfl, ?_, ?_, ?_⟩)⟩ <;> decide
  have hstored : c.store.elems ≠ [] ∧
      ∀ e ∈ c.store.elems, e.packetId = 1 ∧ storedAck e = .puback := by decide
  obtain ⟨e, he⟩ := List.exists_mem_of_ne_nil _ hstored.1
  obtain ⟨hid, hack⟩ := hstored.2 e he
  obtain ⟨hawaits, hused, hacked⟩ := stored_ackable .v311 ops hok e he
  rw [hid, hack] at hawaits
  rw [hid] at hused
  refine ⟨e, he, hid, hawaits, hused, _, rfl, hacked _ _ (by decide) rfl ?_ ?_⟩
  · rw [hack]
    rfl
  · rw [hid]
    rfl

/-- The client comes back with a clean session. A PUBLISH is stored that does not wait for
    its PUBACK: when it is sent again and acknowledged, the connection is closed. -/
theorem stored_not_awaited :
    ∃ p, V311.publishPacket .two 1 [0x61] [[0x62]] 2 = .ok p ∧
      let connack : PacketVariant .two := .v311Connack (V311.connackPacket false 0)
      let c := (make .server .two .v311).run
        [.recv [0x10, 0x0D, 0, 4, 0x4D, 0x51, 0x54, 0x54, 4, 0, 0, 10, 0, 1, 0x63], .send connack,
          .acquireUniquePacketId, .send (.v311Publish p), .notifyClosed,
          .recv [0x10, 0x0D, 0, 4, 0x4D, 0x51, 0x54, 0x54, 4, 2, 0, 10, 0, 1, 0x63], .send connack]
      c.store.elems.map (fun e => (storedAck e, e.packetId)) = [(.puback, 1)] ∧
      1 ∉ c.pidPuback ∧
      signals (c.recv [0x40, 2, 0, 1]).1.events = [.close, .error protocolError] := by
  refine ⟨_, rfl, ?_⟩
  decide

end Connection

end AsyncMqtt
