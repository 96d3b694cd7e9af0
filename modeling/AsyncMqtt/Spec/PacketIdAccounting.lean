import AsyncMqtt.Spec.PacketIdCorrect
import AsyncMqtt.Spec.RecvCases
import AsyncMqtt.Spec.SendCases
import AsyncMqtt.Spec.WireCorrect

/-!
# Packet identifiers that wait for an acknowledgement

An identifier in one of the five sets `pid_suback_`, `pid_unsuback_`, `pid_puback_`,
`pid_pubrec_` and `pid_pubcomp_` should be in use, or the application gets it for another
packet while the acknowledgement is still on its way. `Connection.Accounted` is the
invariant behind this: an identifier waits in one set only, it is in use, and the
application does not hold it.

Some calls break it: a PUBLISH gives its identifier back after it has entered a set, a
stored packet that has become too large gives back an identifier that waits, and PUBREL,
SUBSCRIBE and UNSUBSCRIBE do not look whether their identifier is in use.
`Connection.Accounts` says which calls these are.

## Key results

- `Connection.send_accounted`, `Connection.recv_accounted`: what keeps the invariant
- `Connection.waiting_in_use`: in a run of calls that keep it, what waits is in use
- `Connection.puback_not_in_use`: a run with one that does not
-/

namespace AsyncMqtt

/-- The acknowledgements that packets wait for. -/
inductive AckKind where
  | suback
  | unsuback
  | puback
  | pubrec
  | pubcomp
  deriving DecidableEq

/-- There are five kinds of responses, so that all of them can be tried. -/
instance (P : AckKind → Prop) [DecidablePred P] : Decidable (∀ k, P k) :=
  decidable_of_iff (P .suback ∧ P .unsuback ∧ P .puback ∧ P .pubrec ∧ P .pubcomp)
    ⟨fun h k => by cases k <;> simp [h], fun h => ⟨h _, h _, h _, h _, h _⟩⟩

namespace Connection

variable {role : Role} {pb : PacketIdBytes}

/-- The identifiers that wait for an acknowledgement. -/
def waiting (c : Connection role pb) : AckKind → OrdSet Nat
  | .suback => c.pidSuback
  | .unsuback => c.pidUnsuback
  | .puback => c.pidPuback
  | .pubrec => c.pidPubrec
  | .pubcomp => c.pidPubcomp

/-- No packet with this identifier waits. -/
def Unwaited (c : Connection role pb) (packetId : Nat) : Prop := ∀ k, packetId ∉ c.waiting k

/-- A packet with this identifier waits for no other acknowledgement. -/
def OnlyWaits (c : Connection role pb) (k : AckKind) (packetId : Nat) : Prop :=
  ∀ k', packetId ∈ c.waiting k' → k' = k

/-- Whether no response is awaited under the identifier can be decided. -/
instance (c : Connection role pb) (packetId : Nat) : Decidable (c.Unwaited packetId) :=
  inferInstanceAs (Decidable (∀ _, _))

/-- Whether one kind of response is awaited can be decided. -/
instance (c : Connection role pb) (k : AckKind) (packetId : Nat) :
    Decidable (c.OnlyWaits k packetId) := inferInstanceAs (Decidable (∀ _, _))

/-- What waits is in use, waits in one set, and is not held by the application. -/
structure Accounted (c : Connection role pb) (held : OrdSet Nat) : Prop where
  used : ∀ k, ∀ packetId ∈ c.waiting k, packetId ∉ c.pidMan.pool
  alone : ∀ k, ∀ packetId ∈ c.waiting k, c.OnlyWaits k packetId
  notHeld : ∀ k, ∀ packetId ∈ c.waiting k, packetId ∉ held
  bounded : ∀ k, ∀ packetId ∈ c.waiting k, packetId < pb.limit
  range : ∀ packetId ∈ c.pidMan.pool, packetId < pb.limit
  highest : c.pidMan.highest < pb.limit

/-! ### Calls that keep the invariant -/

/-- The stored packets above this size have identifiers that do not wait. -/
def StoredFit (c : Connection role pb) (limit : Nat) : Prop :=
  ∀ e ∈ c.store.elems, limit < e.size → c.Unwaited e.packetId

/-- Whether the store fits can be decided. -/
instance (c : Connection role pb) (limit : Nat) : Decidable (c.StoredFit limit) :=
  inferInstanceAs (Decidable (∀ e ∈ _, _))

/-- The acknowledgement that a PUBLISH waits for. -/
def publishAck (opts : UInt8) : AckKind :=
  if Pub.getQos opts = Qos.exactlyOnce then .pubrec else .puback

/-- The acknowledgement that a stored packet waits for. -/
def storedAck (e : StorePacketVariant pb) : AckKind :=
  match e.responsePacketType with
  | .v311Puback | .v5Puback => .puback
  | .v311Pubrec | .v5Pubrec => .pubrec
  | .v311Pubcomp | .v5Pubcomp => .pubcomp

/-- The identifier is in use, and a packet with it waits for no other acknowledgement. -/
def Enters (c : Connection role pb) (k : AckKind) (packetId : Nat) : Prop :=
  c.pidMan.isUsedId packetId ∧ c.OnlyWaits k packetId

/-- Whether the identifier enters an exchange can be decided. -/
instance (c : Connection role pb) (k : AckKind) (packetId : Nat) :
    Decidable (c.Enters k packetId) := inferInstanceAs (Decidable (_ ∧ _))

/-- A packet that `send` lets pass the checks of class, status, version and size. -/
def Accepts (c : Connection role pb) (pv : PacketVariant pb) : Prop :=
  match pv.type with
  | .connack => c.StoredFit c.maximumPacketSizeSend
  | .publish =>
    if c.publishEnters pv then
      ¬ c.publishFailsLate pv ∧ c.OnlyWaits (publishAck pv.view.opts) pv.packetId
    else pv.packetId = 0 ∨ c.Unwaited pv.packetId
  | .pubrel => c.Enters .pubcomp pv.packetId
  | .subscribe => c.Enters .suback pv.packetId
  | .unsubscribe => c.Enters .unsuback pv.packetId
  | _ => True

/-- A call of `send` that gives back no identifier that waits, and that lets none wait
    which is not in use or waits already. -/
def SendAccounts (c : Connection role pb) (pv : PacketVariant pb) : Prop :=
  c.sendAllowed pv →
    if c.validateMaximumPacketSize pv.size then c.Accepts pv
    else pv.ownPacketId → pv.packetId ≠ 0 → c.Unwaited pv.packetId

/-- A call of `recv` that gives back no identifier that waits. -/
structure RecvAccounts (c : Connection role pb) (is : List UInt8) : Prop where
  resumed : ∀ pv, c.received is = some pv → pv.acceptsConnection → c.status = .connecting →
    if pv.view.sessionPresent then c.StoredFit (pv.maximumPacketSize c.maximumPacketSizeSend)
    else c.pidSuback = ∅ ∧ c.pidUnsuback = ∅
  refused : ∀ value, c.refusedConnect is = some value →
    sendAllowed ({ c with status := .connecting } : Connection role pb) (c.refusal value) →
    c.StoredFit c.maximumPacketSizeSend

/-- A stored packet can be restored. -/
def RestoreAccounts (held : OrdSet Nat) : List (StorePacketVariant pb) → Connection role pb → Prop
  | [], _ => True
  | pv :: pvs, c =>
    pv.packetId ∉ held ∧ c.OnlyWaits (storedAck pv) pv.packetId ∧
      (c.pidMan.Wraps → c.pidMan.isUsedId pv.packetId) ∧
      RestoreAccounts held pvs (c.restorePacket pv)

/-! ### The invariant -/

section

variable {c c' : Connection role pb} {held held' : OrdSet Nat} {packetId : Nat} {k : AckKind}

/-- Only the awaited responses and the manager count. -/
theorem Accounted.congr (h : c.Accounted held) (hw : c'.waiting = c.waiting)
    (hm : c'.pidMan = c.pidMan) : c'.Accounted held := by
  obtain ⟨used, alone, notHeld, bounded, range, highest⟩ := h
  simp only [OnlyWaits, ← hw, ← hm] at *
  exact ⟨used, alone, notHeld, bounded, range, highest⟩

/-- Identifiers may leave the sets, and those that do not wait may be given back or be
    given to the application. -/
theorem Accounted.leave (h : c.Accounted held)
    (hw : ∀ k, ∀ packetId ∈ c'.waiting k, packetId ∈ c.waiting k)
    (hpool : ∀ packetId ∈ c'.pidMan.pool,
      packetId ∈ c.pidMan.pool ∨ c'.Unwaited packetId ∧ packetId < pb.limit)
    (hheld : ∀ packetId ∈ held', packetId ∈ held ∨ c'.Unwaited packetId)
    (hhighest : c'.pidMan.highest = c.pidMan.highest) : c'.Accounted held' where
  used k packetId hk hp := by
    rcases hpool packetId hp with hp | hp
    · exact h.used k packetId (hw k packetId hk) hp
    · exact hp.1 k hk
  alone k packetId hk k' hk' := h.alone k packetId (hw k packetId hk) k' (hw k' packetId hk')
  notHeld k packetId hk hh := by
    rcases hheld packetId hh with hh | hh
    · exact h.notHeld k packetId (hw k packetId hk) hh
    · exact hh k hk
  bounded k packetId hk := h.bounded k packetId (hw k packetId hk)
  range packetId hp := by
    rcases hpool packetId hp with hp | hp
    · exact h.range packetId hp
    · exact hp.2
  highest := hhighest ▸ h.highest

/-- An identifier that is in use begins to wait. -/
theorem Accounted.enter (h : c.Accounted held) (henters : c.Enters k packetId)
    (hheld : packetId ∉ held) (hlt : packetId < pb.limit)
    (hw : ∀ k', c'.waiting k' = if k' = k then (c.waiting k').insert packetId else c.waiting k')
    (hm : c'.pidMan = c.pidMan) : c'.Accounted held := by
  -- only the new identifier is awaited in addition
  have hmem : ∀ k', ∀ p ∈ c'.waiting k', p ∈ c.waiting k' ∨ k' = k ∧ p = packetId := by
    intro k' p hp
    rw [hw] at hp
    split at hp
    · next hk => exact (OrdSet.mem_insert.mp hp).symm.imp_right fun hp => ⟨hk, hp⟩
    · exact .inl hp
  refine ⟨fun k' p hk hp => ?_, fun k' p hk k'' hk' => ?_, fun k' p hk hh => ?_,
    fun k' p hk => ?_, fun p hp => h.range p (hm ▸ hp), hm ▸ h.highest⟩
  -- an awaited identifier is in use
  · rw [hm] at hp
    rcases hmem k' p hk with hk | ⟨-, rfl⟩
    · exact h.used k' p hk hp
    · exact ValueAllocator.isUsed_iff.mp henters.1 hp
  -- an identifier is awaited once
  · rcases hmem k' p hk with hk | ⟨rfl, rfl⟩
    · rcases hmem k'' p hk' with hk' | ⟨rfl, rfl⟩
      · exact h.alone k' p hk k'' hk'
      · exact (henters.2 k' hk).symm
    · rcases hmem k'' p hk' with hk' | ⟨rfl, -⟩
      · exact henters.2 k'' hk'
      · rfl
  -- an awaited identifier is not held by the application
  · rcases hmem k' p hk with hk | ⟨-, rfl⟩
    · exact h.notHeld k' p hk hh
    · exact hheld hh
  · rcases hmem k' p hk with hk | ⟨-, rfl⟩
    · exact h.bounded k' p hk
    · exact hlt

/-- The application may forget what it holds. -/
theorem Accounted.hold (h : c.Accounted held) (hheld : ∀ p ∈ held', p ∈ held) :
    c.Accounted held' :=
  h.leave (fun _ _ hk => hk) (fun _ hp => .inl hp) (fun p hp => .inl (hheld p hp)) rfl

end

/-! ### Packet identifiers of packets -/

end Connection

/-- The identifier of a packet is below the limit of its width. -/
theorem PacketVariant.packetId_lt {pb : PacketIdBytes} (pv : PacketVariant pb) :
    pv.packetId < pb.limit := by
  cases pv <;> first | exact endianLoad_lt _ _ | exact pb.limit_pos

/-- The identifier of a stored packet is below the limit of its width. -/
theorem StorePacket.packetId_lt {pb : PacketIdBytes} (p : StorePacket pb) :
    p.packetId < pb.limit := by
  cases p <;> exact endianLoad_lt _ _

namespace Connection

variable {role : Role} {pb : PacketIdBytes}

/-- The identifier of a PUBREL that answers -/
theorem pubrelOf_packetId (ver : ProtocolVersion) {packetId : Nat} (h : packetId < pb.limit) :
    (pubrelOf ver pb packetId).packetId = packetId := by
  unfold pubrelOf
  split <;> exact endianLoad_endianStore h

/-- Only the released identifier enters the pool. -/
theorem mem_pool_releaseId {m : PacketIdManager pb} {packetId p : Nat}
    (h : p ∈ (m.releaseId packetId).pool) : p ∈ m.pool ∨ p = packetId :=
  ValueAllocator.mem_deallocate h

/-! ### Sending -/

/-- A quiet step leaves what is awaited. -/
theorem Quiet.waiting {c c' : Connection role pb} (h : Quiet c c') : c'.waiting = c.waiting := by
  obtain ⟨_, _, _, _, _, -, rfl⟩ := h
  rfl

/-- A quiet step leaves the manager. -/
theorem Quiet.pidMan {c c' : Connection role pb} (h : Quiet c c') : c'.pidMan = c.pidMan := by
  obtain ⟨_, _, _, _, _, -, rfl⟩ := h
  rfl

section

variable {c c' : Connection role pb} {held : OrdSet Nat}

/-- A quiet step keeps the account. -/
theorem Accounted.quiet (h : c.Accounted held) (hq : Quiet c c') : c'.Accounted held :=
  h.congr hq.waiting hq.pidMan

/-- An identifier that does not wait is given back. -/
theorem Accounted.release (h : c.Accounted held) {packetId : Nat} (hlt : packetId < pb.limit)
    (hw : ∀ k, ∀ p ∈ c'.waiting k, p ∈ c.waiting k) (hun : c'.Unwaited packetId)
    (hm : c'.pidMan = c.pidMan.releaseId packetId) : c'.Accounted held := by
  refine h.leave hw (fun p hp => ?_) (fun _ hp => .inl hp) (by rw [hm]; rfl)
  rw [hm] at hp
  rcases mem_pool_releaseId hp with hp | rfl
  · exact .inl hp
  · exact .inr ⟨hun, hlt⟩

/-- All identifiers are vacant and none waits. -/
theorem Accounted.clear (h : c.Accounted held) (hw : ∀ k, c'.waiting k = ∅)
    (hm : c'.pidMan = c.pidMan.clear) : c'.Accounted held := by
  have hun : ∀ p, c'.Unwaited p := fun p k hk => OrdSet.notMem_empty p (hw k ▸ hk)
  refine h.leave (fun k p hk => absurd hk (hun p k)) (fun p hp => .inr ⟨hun p, ?_⟩)
    (fun p _ => .inr (hun p)) (by rw [hm]; rfl)
  rw [hm] at hp
  obtain ⟨iv, hiv, -, hhigh⟩ := hp
  obtain rfl := List.mem_singleton.mp hiv
  exact Nat.lt_of_le_of_lt hhigh h.highest

/-- Of the stored packets only those that are too large put their identifier into the pool. -/
theorem mem_pool_releaseTooLarge {limit : Nat} {pvs : List (StorePacketVariant pb)}
    {m : PacketIdManager pb} {p : Nat} (h : p ∈ (pvs.foldl (releaseTooLarge limit) m).pool) :
    p ∈ m.pool ∨ ∃ e ∈ pvs, limit < e.size ∧ e.packetId = p := by
  induction pvs generalizing m with
  | nil => exact .inl h
  | cons pv pvs ih =>
    rcases ih h with hp | ⟨e, he, hlarge, rfl⟩
    · unfold releaseTooLarge at hp
      split at hp
      · next hlarge =>
        rcases mem_pool_releaseId hp with hp | rfl
        · exact .inl hp
        · exact .inr ⟨pv, List.mem_cons_self, hlarge, rfl⟩
      · exact .inl hp
    · exact .inr ⟨e, List.mem_cons_of_mem _ he, hlarge, rfl⟩

/-- Giving identifiers back does not lower the highest one. -/
theorem highest_releaseTooLarge (limit : Nat) (pvs : List (StorePacketVariant pb))
    (m : PacketIdManager pb) : (pvs.foldl (releaseTooLarge limit) m).highest = m.highest := by
  induction pvs generalizing m with
  | nil => rfl
  | cons pv pvs ih =>
    rw [List.foldl_cons, ih, releaseTooLarge]
    split <;> rfl

/-- The store is sent again without loss, if it fits. -/
theorem sendStored_accounted (h : c.Accounted held)
    (hfit : c.StoredFit c.maximumPacketSizeSend) : c.sendStored.conn.Accounted held := by
  have hw : c.sendStored.conn.waiting = c.waiting := by
    rw [sendStored_conn]
    rfl
  refine h.leave (fun k p hk => hw ▸ hk) (fun p hp => ?_) (fun _ hp => .inl hp) ?_
  · rw [sendStored_conn] at hp
    rcases mem_pool_releaseTooLarge hp with hp | ⟨e, he, hlarge, rfl⟩
    · exact .inl hp
    · refine .inr ⟨fun k hk => ?_, e.packet.packetId_lt⟩
      exact hfit e he hlarge k (hw ▸ hk)
  · rw [sendStored_conn]
    exact highest_releaseTooLarge _ _ _

/-- A PUBLISH that is entered waits for the response to its QoS. -/
theorem waiting_publishEntered (pv : PacketVariant pb) (k : AckKind) :
    (c.publishEntered pv).waiting k =
      if k = publishAck pv.view.opts then (c.waiting k).insert pv.packetId else c.waiting k := by
  rw [publishEntered_eq, publishAck]
  by_cases hqos : Pub.getQos pv.view.opts = Qos.exactlyOnce <;> cases k <;> simp [waiting, hqos]

/-- A PUBLISH leaves the account right, if its identifier is used in one exchange only. -/
theorem PublishOutcome.accounted {pv : PacketVariant pb} {r : Sent role pb}
    (hout : PublishOutcome c pv r) (h : c.Accounted held) (hheld : pv.packetId ∉ held)
    (hok : if c.publishEnters pv then
        ¬ c.publishFailsLate pv ∧ c.OnlyWaits (publishAck pv.view.opts) pv.packetId
      else pv.packetId = 0 ∨ c.Unwaited pv.packetId) : r.step.conn.Accounted held := by
  cases hout with
  | stopped henters hs =>
    obtain ⟨tas, m, hconn, -, hm⟩ := hs.conn
    rw [if_neg henters] at hok
    rw [hconn]
    rcases hm with rfl | ⟨hne, rfl⟩
    · exact h.congr rfl rfl
    · exact h.release pv.packetId_lt (fun _ _ hk => hk) (hok.resolve_left hne) rfl
  | plain _ _ _ _ _ _ hconn => exact h.congr (by rw [hconn]; rfl) (by rw [hconn])
  | failed hlate =>
    rw [if_pos (publishFailsLate_enters hlate)] at hok
    exact absurd hlate hok.1
  | entered henters _ _ _ _ _ _ hconn =>
    rw [if_pos henters] at hok
    refine h.enter ⟨publishEnters_isUsedId henters, hok.2⟩ hheld pv.packetId_lt ?_ ?_
    · intro k
      rw [hconn]
      exact waiting_publishEntered pv k
    · rw [hconn, publishEntered_eq]

/-- A call of `send` keeps the invariant unless it is one of the calls that break it. -/
theorem send_accounted {pv : PacketVariant pb} (h : c.Accounted held) (hok : c.SendAccounts pv)
    (hheld : pv.ownPacketId → pv.packetId ∉ held) : (c.send pv).conn.Accounted held := by
  by_cases hallowed : c.sendAllowed pv
  case neg =>
    rw [send_of_not_allowed hallowed]
    exact h
  have hok := hok hallowed
  by_cases hsize : c.validateMaximumPacketSize pv.size
  case neg =>
    rw [if_neg hsize] at hok
    rw [send_of_too_large hallowed hsize]
    -- a packet that is too large gives its own identifier back
    by_cases hown : pv.ownPacketId
    · rw [if_pos hown]
      unfold Sent.failRelease
      split
      · next hid => exact h.release pv.packetId_lt (fun _ _ hk => hk) (hok hown hid) rfl
      · exact h
    · rw [if_neg hown]
      exact h
  rw [if_pos hsize] at hok
  unfold Accepts at hok
  cases send_cases pv c with
  | quiet hq => exact h.quiet hq.1
  | tooLarge _ hlarge => exact absurd hsize hlarge
  | connect _ _ _ clean hc₁ hconn =>
    refine Accounted.quiet ?_ hconn
    cases clean with
    | true => exact h.clear (fun k => by rw [hc₁]; cases k <;> rfl) (by rw [hc₁]; rfl)
    -- going on with the session drops only what waits for SUBACK and UNSUBACK
    | false =>
      refine h.leave (fun k p hk => ?_) (fun p hp => .inl ?_) (fun _ hp => .inl hp) ?_
      · rw [hc₁] at hk
        cases k with
        | suback | unsuback => exact absurd hk (OrdSet.notMem_empty p)
        | puback | pubrec | pubcomp => exact hk
      · rwa [hc₁] at hp
      · rw [hc₁]
        rfl
  | connack _ htype _ _ hc₁ hconn =>
    rw [htype] at hok
    refine Accounted.quiet (sendStored_accounted ?_ ?_) hconn
    · exact h.congr (by rw [hc₁]; rfl) (by rw [hc₁])
    · rw [hc₁]
      exact hok
  | pubrecRefused _ _ hconn => exact h.congr hconn.waiting hconn.pidMan
  -- from here on the packet enters the session with its identifier
  | pubrel _ htype _ _ _ hconn =>
    rw [htype] at hok
    have hheld := hheld (by simp [PacketVariant.ownPacketId, htype])
    refine Accounted.quiet ?_ hconn
    exact h.enter hok hheld pv.packetId_lt (fun k => by cases k <;> rfl) rfl
  | subscribe _ htype hconn =>
    rw [htype] at hok
    have hheld := hheld (by simp [PacketVariant.ownPacketId, htype])
    refine Accounted.quiet ?_ hconn
    exact h.enter hok hheld pv.packetId_lt (fun k => by cases k <;> rfl) rfl
  | unsubscribe _ htype hconn =>
    rw [htype] at hok
    have hheld := hheld (by simp [PacketVariant.ownPacketId, htype])
    refine Accounted.quiet ?_ hconn
    exact h.enter hok hheld pv.packetId_lt (fun k => by cases k <;> rfl) rfl
  | publish _ htype hout hconn =>
    rw [htype] at hok
    exact (hout.accounted h (hheld (by simp [PacketVariant.ownPacketId, htype])) hok).quiet hconn

/-! ### Receiving -/

/-- The acknowledgement has come: the identifier leaves its set and is given back. -/
theorem Accounted.ended (h : c.Accounted held) {k : AckKind} {packetId : Nat}
    (hmem : packetId ∈ c.waiting k)
    (hw : ∀ k', c'.waiting k' = if k' = k then (c.waiting k').erase packetId else c.waiting k')
    (hm : c'.pidMan = c.pidMan.releaseId packetId) : c'.Accounted held := by
  refine h.release (h.bounded k packetId hmem) (fun k' p hp => ?_) (fun k' hk' => ?_) hm
  · rw [hw] at hp
    split at hp
    · exact (OrdSet.mem_erase.mp hp).1
    · exact hp
  · rw [hw] at hk'
    split at hk'
    · exact (OrdSet.mem_erase.mp hk').2 rfl
    · next hne => exact hne (h.alone k packetId hmem k' hk')

/-- A session is resumed with a store that fits, or cleared when no other response is awaited. -/
theorem resumeSession_accounted (h : c.Accounted held) {sessionPresent : Bool}
    (hok : if sessionPresent then c.StoredFit c.maximumPacketSizeSend
      else c.pidSuback = ∅ ∧ c.pidUnsuback = ∅) :
    (c.resumeSession sessionPresent).conn.Accounted held := by
  cases sessionPresent with
  | true => exact sendStored_accounted h hok
  | false =>
    have hok : c.pidSuback = ∅ ∧ c.pidUnsuback = ∅ := hok
    refine h.clear (fun k => ?_) rfl
    cases k with
    | suback => exact hok.1
    | unsuback => exact hok.2
    | puback | pubrec | pubcomp => rfl

/-- PUBREC moves an identifier from one set to another. -/
theorem pubrec_accounted {pv : PacketVariant pb} (h : c.Accounted held)
    (hmem : pv.packetId ∈ c.pidPubrec) {c₁ : Connection role pb} {st : Store pb}
    (hc₁ : c₁ = { c with pidPubrec := c.pidPubrec.erase pv.packetId, store := st }) :
    (c₁.respondIf c₁.autoPubResponse (pubrelOf pv.version pb pv.packetId)).conn.Accounted held := by
  have hw : ∀ k, c₁.waiting k =
      if k = .pubrec then (c.waiting k).erase pv.packetId else c.waiting k := by
    intro k
    rw [hc₁]
    cases k <;> rfl
  -- the identifier has left the exchange of the PUBREC
  have hun : c₁.Unwaited pv.packetId := by
    intro k hk
    rw [hw] at hk
    split at hk
    · exact (OrdSet.mem_erase.mp hk).2 rfl
    · next hne => exact hne (h.alone .pubrec pv.packetId hmem k hk)
  have hc : c₁.Accounted held := by
    refine h.leave (fun k p hp => ?_) (fun p hp => .inl ?_) (fun _ hp => .inl hp) (by rw [hc₁])
    · rw [hw] at hp
      split at hp
      · exact (OrdSet.mem_erase.mp hp).1
      · exact hp
    · rwa [hc₁] at hp
  have hid : (pubrelOf pv.version pb pv.packetId).packetId = pv.packetId :=
    pubrelOf_packetId _ pv.packetId_lt
  unfold respondIf
  split
  -- the PUBREL enters the next one
  · refine send_accounted hc (fun _ => ?_) fun _ => ?_
    · split
      · rw [Accepts, pubrelOf_type, hid]
        refine ⟨?_, fun k hk => absurd hk (hun k)⟩
        rw [hc₁]
        exact ValueAllocator.isUsed_iff.mpr (h.used .pubrec pv.packetId hmem)
      · rw [hid]
        exact fun _ _ => hun
    · rw [hid]
      exact h.notHeld .pubrec pv.packetId hmem
  · exact hc

/-- A packet that is received ends the exchange that it answers, and the others stay. -/
theorem RecvOutcome.accounted {pv : PacketVariant pb} {s : Step role pb}
    (hout : RecvOutcome c pv s) (h : c.Accounted held)
    (hok : pv.acceptsConnection → c.status = .connecting →
      if pv.view.sessionPresent then c.StoredFit (pv.maximumPacketSize c.maximumPacketSizeSend)
      else c.pidSuback = ∅ ∧ c.pidUnsuback = ∅) : s.conn.Accounted held := by
  cases hout with
  | quiet hq => exact h.quiet hq.1
  | connect _ _ clean _ hconn =>
    rw [hconn]
    refine h.leave (fun k p hk => ?_) (fun p hp => .inl hp) (fun _ hp => .inl hp) rfl
    cases k with
    | suback | unsuback => exact absurd hk (OrdSet.notMem_empty p)
    -- a CONNECT with a clean session forgets the exchanges, whose identifiers are given back
    | puback | pubrec | pubcomp =>
      cases clean with
      | true => exact absurd hk (OrdSet.notMem_empty p)
      | false => exact hk
  | connack haccepts hstatus _ hc₁ hconn =>
    rw [hconn]
    refine resumeSession_accounted (h.congr ?_ ?_) ?_
    · rw [hc₁]
      rfl
    · rw [hc₁]
    · rw [hc₁]
      exact hok haccepts hstatus
  | publish _ hconn => exact h.congr hconn.waiting hconn.pidMan
  | publishDelivered _ _ _ hconn => exact h.congr hconn.waiting hconn.pidMan
  | publishRejected _ _ _ _ _ _ hconn => exact h.congr hconn.waiting hconn.pidMan
  | puback _ _ hmem hconn =>
    rw [hconn]
    exact h.ended (k := .puback) hmem (fun k => by cases k <;> rfl) rfl
  | pubrecFailed _ _ _ hmem hconn =>
    rw [hconn]
    exact h.ended (k := .pubrec) hmem (fun k => by cases k <;> rfl) rfl
  | pubrec _ _ _ hmem hc₁ hr hconn =>
    rw [hconn]
    have hr' := pubrec_accounted h hmem hc₁
    rw [← hr] at hr'
    exact hr'.congr rfl rfl
  | pubrel _ hconn => exact h.congr hconn.waiting hconn.pidMan
  | pubcomp _ _ hmem hconn =>
    rw [hconn]
    exact h.ended (k := .pubcomp) hmem (fun k => by cases k <;> rfl) rfl
  | suback _ hmem hconn =>
    rw [hconn]
    exact h.ended (k := .suback) hmem (fun k => by cases k <;> rfl) rfl
  | unsuback _ hmem hconn =>
    rw [hconn]
    exact h.ended (k := .unsuback) hmem (fun k => by cases k <;> rfl) rfl

/-- Bytes that are received -/
theorem recv_accounted {is : List UInt8} (h : c.Accounted held) (hok : c.RecvAccounts is) :
    (c.recv is).1.conn.Accounted held := by
  rcases recv_cases is (c := c) rfl with hq | ⟨pv, hpv, hout⟩ | ⟨value, c₁, hvalue, -, hc₁, hs⟩
  · exact h.congr hq.1.waiting hq.1.pidMan
  · exact hout.accounted (h.congr rfl rfl) (hok.resumed pv hpv)
  · have hown : (c.refusal value).ownPacketId = false := by
      simp [PacketVariant.ownPacketId, refusal_type]
    rw [hs, Step.conn_emit]
    refine send_accounted (h.congr (by rw [hc₁]; rfl) (by rw [hc₁])) (fun hallowed => ?_)
      fun hpv => absurd hpv (by rw [hown]; rintro ⟨⟩)
    split
    · rw [Accepts, refusal_type]
      rw [hc₁] at hallowed ⊢
      exact hok.refused value hvalue hallowed
    · rw [hown]
      rintro ⟨⟩

/-! ### The other calls -/

/-- An identifier that is acquired is in no exchange. -/
theorem acquireUniquePacketId_accounted (h : c.Accounted held) (hwrap : ¬ c.pidMan.Wraps) :
    c.acquireUniquePacketId.2.Accounted held ∧
      ∀ packetId, c.acquireUniquePacketId.1 = some packetId →
        c.acquireUniquePacketId.2.Unwaited packetId := by
  have hhighest := c.pidMan.highest_allocate
  unfold acquireUniquePacketId PacketIdManager.acquireUniqueId
  rcases hallocate : c.pidMan.allocate with ⟨id?, m⟩
  cases id? with
  | none =>
    obtain rfl := ValueAllocator.allocate_none hallocate
    exact ⟨h.congr rfl rfl, nofun⟩
  | some packetId =>
    obtain ⟨hvacant, hpool⟩ := ValueAllocator.mem_allocate hallocate h.range hwrap
    rw [hallocate] at hhighest
    refine ⟨h.leave (fun _ _ hk => hk) (fun p hp => .inl (hpool p hp).1) (fun _ hp => .inl hp)
      hhighest, ?_⟩
    rintro _ ⟨⟩ k hk
    exact h.used k packetId hk hvacant

/-- Declaring an identifier as used leaves it, and everything that waits, in use. -/
theorem use_accounted (h : c.Accounted held) {packetId : Nat} (hlt : packetId < pb.limit)
    (hwrap : c.pidMan.Wraps → c.pidMan.isUsedId packetId)
    (hc' : c' = { c with pidMan := (c.pidMan.registerId packetId).2 }) :
    c'.Accounted held ∧ c'.pidMan.isUsedId packetId ∧
      ((c.pidMan.registerId packetId).1 → c'.Unwaited packetId) := by
  subst hc'
  have hhighest := c.pidMan.highest_use packetId
  unfold PacketIdManager.registerId at *
  rcases huse : c.pidMan.use packetId with ⟨ok, m⟩
  rw [huse] at hhighest
  cases ok with
  | false =>
    obtain ⟨rfl, hused⟩ := ValueAllocator.use_false huse
    exact ⟨h.congr rfl rfl, ValueAllocator.isUsed_iff.mpr hused, nofun⟩
  | true =>
    have hvacant : ¬ c.pidMan.isUsedId packetId := by
      intro hused
      have hnot := ValueAllocator.isUsed_iff.mp hused
      rw [← IntervalPool.find_isSome, Option.not_isSome_iff_eq_none] at hnot
      simp [ValueAllocator.use, hnot] at huse
    obtain ⟨hmem, hpool⟩ := ValueAllocator.mem_use huse (fun _ => hlt) fun hw => hvacant (hwrap hw)
    refine ⟨h.leave (fun _ _ hk => hk) (fun p hp => .inl (hpool p hp).1) (fun _ hp => .inl hp)
      hhighest, ?_, fun _ k hk => h.used k packetId hk hmem⟩
    exact ValueAllocator.isUsed_iff.mpr fun hp => (hpool packetId hp).2 rfl

/-- Giving identifiers back puts them into the pool. -/
theorem mem_pool_releaseUsed {ids : List Nat} {m : PacketIdManager pb} {p : Nat}
    (h : p ∈ (ids.foldl releaseUsed m).pool) : p ∈ m.pool ∨ p ∈ ids := by
  induction ids generalizing m with
  | nil => exact .inl h
  | cons id ids ih =>
    rcases ih h with hp | hp
    · unfold releaseUsed at hp
      split at hp
      · rcases mem_pool_releaseId hp with hp | rfl
        · exact .inl hp
        · exact .inr List.mem_cons_self
      · exact .inl hp
    · exact .inr (List.mem_cons_of_mem _ hp)

/-- Giving identifiers back does not lower the highest one. -/
theorem highest_releaseUsed (ids : List Nat) (m : PacketIdManager pb) :
    (ids.foldl releaseUsed m).highest = m.highest := by
  induction ids generalizing m with
  | nil => rfl
  | cons id ids ih =>
    rw [List.foldl_cons, ih, releaseUsed]
    split <;> rfl

/-- The sets that `notify_closed` clears are those whose identifiers it gives back. -/
theorem notifyClosed_accounted (h : c.Accounted held) : c.notifyClosed.conn.Accounted held := by
  have hw : ∀ k, c.notifyClosed.conn.waiting k =
      if k = .suback ∨ k = .unsuback ∨ ¬ c.needStore then ∅ else c.waiting k := by
    intro k
    rw [notifyClosed_conn]
    by_cases hstore : c.needStore <;> cases k <;> simp [waiting, hstore]
  -- what is still awaited belongs to a session that is kept
  have hleft : ∀ k, ∀ p ∈ c.notifyClosed.conn.waiting k,
      p ∈ c.waiting k ∧ ¬ (k = .suback ∨ k = .unsuback ∨ ¬ c.needStore) := by
    intro k p hk
    rw [hw] at hk
    split at hk
    · exact absurd hk (OrdSet.notMem_empty p)
    · next hcond => exact ⟨hk, hcond⟩
  -- an identifier that is given back is awaited nowhere
  have hreleased : ∀ p, (∃ k, p ∈ c.waiting k ∧ (k = .suback ∨ k = .unsuback ∨ ¬ c.needStore)) →
      c.notifyClosed.conn.Unwaited p ∧ p < pb.limit := by
    rintro p ⟨k, hk, hcond⟩
    refine ⟨fun k' hk' => ?_, h.bounded k p hk⟩
    obtain ⟨hk', hcond'⟩ := hleft k' p hk'
    exact hcond' (h.alone k p hk k' hk' ▸ hcond)
  refine h.leave (fun k p hk => (hleft k p hk).1) (fun p hp => ?_) (fun _ hp => .inl hp) ?_
  · rw [notifyClosed_conn] at hp
    -- an identifier in the pool was there before or is given back
    rcases mem_pool_releaseUsed hp with hp | hp
    · exact .inl hp
    · refine .inr (hreleased p ?_)
      simp only [List.mem_append] at hp
      rcases hp with (hp | hp) | hp
      · exact ⟨.suback, hp, .inl rfl⟩
      · exact ⟨.unsuback, hp, .inr (.inl rfl)⟩
      · split at hp
        · exact nomatch hp
        · next hstore =>
          simp only [List.mem_append] at hp
          rcases hp with (hp | hp) | hp
          · exact ⟨.puback, hp, .inr (.inr hstore)⟩
          · exact ⟨.pubrec, hp, .inr (.inr hstore)⟩
          · exact ⟨.pubcomp, hp, .inr (.inr hstore)⟩
  · rw [notifyClosed_conn]
    exact highest_releaseUsed _ _

/-- The store does not count as awaited. -/
theorem waiting_restoreStore (p : StorePacket pb) (c : Connection role pb) :
    (c.restoreStore p).waiting = c.waiting := by
  obtain ⟨m, st, heq⟩ := restoreStore_eq p c
  rw [heq]
  rfl

/-- Restoring a packet registers its identifier. -/
theorem pidMan_restoreStore (p : StorePacket pb) (c : Connection role pb) :
    (c.restoreStore p).pidMan = (c.pidMan.registerId p.packetId).2 := by
  unfold restoreStore
  dsimp only
  split <;> rfl

/-- A restored packet waits for its response. -/
theorem waiting_restorePacket (pv : StorePacketVariant pb) (c : Connection role pb)
    (k : AckKind) :
    (c.restorePacket pv).waiting k =
      if k = storedAck pv then (c.waiting k).insert pv.packetId else c.waiting k := by
  obtain ⟨packet, res, hres⟩ := pv
  cases packet with
  | v311Publish p | v5Publish p =>
    simp only [StorePacket.response?] at hres
    split at hres
    · next hqos =>
      obtain rfl := Option.some.inj hres
      have hqos : Pub.getQos p.opts = Qos.atLeastOnce := UInt8.toNat_inj.mp hqos
      simp only [restorePacket, waiting_restoreStore, restorePublish, hqos]
      cases k <;> rfl
    · next hqos =>
      obtain rfl := Option.some.inj hres
      have hqos : Pub.getQos p.opts = Qos.exactlyOnce := UInt8.toNat_inj.mp hqos
      simp only [restorePacket, waiting_restoreStore, restorePublish, hqos]
      cases k <;> rfl
    · exact nomatch hres
  | v311Pubrel p | v5Pubrel p =>
    obtain rfl := Option.some.inj hres
    simp only [restorePacket, waiting_restoreStore]
    cases k <;> rfl

/-- Restoring a packet registers its identifier, with the sets of identifiers as well. -/
theorem pidMan_restorePacket (pv : StorePacketVariant pb) (c : Connection role pb) :
    (c.restorePacket pv).pidMan = (c.pidMan.registerId pv.packetId).2 := by
  have hpublish : ∀ qos packetId, (c.restorePublish qos packetId).pidMan = c.pidMan := by
    intro qos packetId
    obtain ⟨a, b, heq⟩ := c.restorePublish_eq qos packetId
    rw [heq]
  unfold restorePacket
  split <;> rw [pidMan_restoreStore] <;> first | rw [hpublish]; rfl | rfl

/-- A packet is restored under an identifier that is not in another exchange. -/
theorem restorePacket_accounted {pv : StorePacketVariant pb} (h : c.Accounted held)
    (hheld : pv.packetId ∉ held) (honly : c.OnlyWaits (storedAck pv) pv.packetId)
    (hwrap : c.pidMan.Wraps → c.pidMan.isUsedId pv.packetId) :
    (c.restorePacket pv).Accounted held := by
  have hlt : pv.packetId < pb.limit := pv.packet.packetId_lt
  obtain ⟨huse, hused, -⟩ := use_accounted h hlt hwrap rfl
  refine huse.enter ⟨hused, honly⟩ hheld hlt ?_ (pidMan_restorePacket pv c)
  exact waiting_restorePacket pv c

/-- Packets are restored one after another. -/
theorem restorePackets_accounted {pvs : List (StorePacketVariant pb)} (h : c.Accounted held)
    (hok : RestoreAccounts held pvs c) : (c.restorePackets pvs).Accounted held := by
  induction pvs generalizing c with
  | nil => exact h
  | cons pv pvs ih =>
    obtain ⟨hheld, honly, hwrap, hrest⟩ := hok
    exact ih (restorePacket_accounted h hheld honly hwrap) hrest

end

/-! ### Runs -/

/-- A connection, and the identifiers that the application has acquired or registered and
    has not given to `send`. -/
structure Owned (role : Role) (pb : PacketIdBytes) where
  conn : Connection role pb
  held : OrdSet Nat

namespace Owned

/-- The identifiers that the application holds after a call. -/
def heldAfter (s : Owned role pb) : Op pb → OrdSet Nat
  | .acquireUniquePacketId =>
    match s.conn.acquireUniquePacketId.1 with
    | some packetId => s.held.insert packetId
    | none => s.held
  | .registerPacketId packetId =>
    if (s.conn.registerPacketId packetId).1 then s.held.insert packetId else s.held
  | .releasePacketId packetId => s.held.erase packetId
  | .send pv => if pv.ownPacketId then s.held.erase pv.packetId else s.held
  | _ => s.held

/-- The state after a call. -/
def next (s : Owned role pb) (op : Op pb) : Owned role pb := ⟨s.conn.next op, s.heldAfter op⟩

/-- The application gives back only what it holds. -/
def GivesBack (s : Owned role pb) (op : Op pb) : Prop :=
  ∀ packetId, op = .releasePacketId packetId → packetId.val ∈ s.held

/-- A call that keeps what waits in use. -/
def Accounts (s : Owned role pb) : Op pb → Prop
  | .acquireUniquePacketId => ¬ s.conn.pidMan.Wraps
  | .registerPacketId packetId => s.conn.pidMan.Wraps → s.conn.pidMan.isUsedId packetId
  | .send pv => s.conn.SendAccounts pv
  | .recv is => s.conn.RecvAccounts is
  | .restorePackets pvs => RestoreAccounts s.held pvs s.conn
  | _ => True

/-- Every call of the application leaves the account right. -/
theorem next_accounted {s : Owned role pb} {op : Op pb} (h : s.conn.Accounted s.held)
    (hgives : s.GivesBack op) (hok : s.Accounts op) :
    (s.next op).conn.Accounted (s.next op).held := by
  have hinsert : ∀ {c : Connection role pb} {p : Nat}, c.Accounted s.held → c.Unwaited p →
      c.Accounted (s.held.insert p) := fun {c p} h hun =>
    h.leave (fun _ _ hk => hk) (fun _ hp => .inl hp)
      (fun q hq => (OrdSet.mem_insert.mp hq).symm.imp_right fun e : q = p => e ▸ hun) rfl
  have herase : ∀ {c : Connection role pb} {p : Nat}, c.Accounted s.held →
      c.Accounted (s.held.erase p) := fun h => h.hold fun _ hp => (OrdSet.mem_erase.mp hp).1
  -- the calls that neither take an identifier nor give one back are closed at the end
  cases op with
  | acquireUniquePacketId =>
    obtain ⟨hc, hun⟩ := acquireUniquePacketId_accounted h hok
    simp only [next, heldAfter, Connection.next, call]
    split
    · next packetId hid => exact hinsert hc (hun packetId hid)
    · exact hc
  | registerPacketId packetId =>
    obtain ⟨hc, -, hun⟩ := use_accounted h packetId.isLt hok rfl
    simp only [next, heldAfter, Connection.next, call]
    split
    · next hid => exact hinsert hc (hun hid)
    · exact hc
  | releasePacketId packetId =>
    have hun : s.conn.Unwaited packetId := fun k hk =>
      h.notHeld k packetId hk (hgives packetId rfl)
    simp only [next, heldAfter, Connection.next, call, releasePacketId_conn, releaseUsed]
    split
    · exact (herase h).release packetId.isLt (fun _ _ hk => hk) hun rfl
    · exact (herase h).congr rfl rfl
  | send pv =>
    simp only [next, heldAfter, Connection.next, call]
    split
    · exact send_accounted (herase h) hok fun _ hp => (OrdSet.mem_erase.mp hp).2 rfl
    · next hown => exact send_accounted h hok fun hpv => absurd hpv hown
  | recv is => exact recv_accounted h hok
  | notifyTimerFired kind => exact h.quiet (notifyTimerFired_quiet kind s.conn).1
  | notifyClosed => exact notifyClosed_accounted h
  | restorePackets pvs => exact restorePackets_accounted h hok
  | setPingreqSendInterval duration =>
    simp only [next, heldAfter, Connection.next, call, setPingreqSendInterval]
    split <;> exact h.congr rfl rfl
  | _ => exact h.congr rfl rfl

/-- A new connection has no identifiers in use. -/
theorem make_accounted (ver : ProtocolVersion) : (make role pb ver).Accounted ∅ where
  used k _ hk := by cases k <;> exact absurd hk (OrdSet.notMem_empty _)
  alone k _ hk := by cases k <;> exact absurd hk (OrdSet.notMem_empty _)
  notHeld k _ hk := by cases k <;> exact absurd hk (OrdSet.notMem_empty _)
  bounded k _ hk := by cases k <;> exact absurd hk (OrdSet.notMem_empty _)
  range p hp := by
    obtain ⟨iv, hiv, -, hhigh⟩ := hp
    obtain rfl := List.mem_singleton.mp hiv
    exact Nat.lt_of_le_of_lt hhigh (Nat.sub_lt pb.limit_pos (by decide))
  highest := Nat.sub_lt pb.limit_pos (by decide)

/-- The connection after the calls -/
theorem final_conn (s : Owned role pb) (ops : List (Op pb)) :
    (Run.final next s ops).conn = s.conn.run ops := by
  induction ops generalizing s with
  | nil => rfl
  | cons op ops ih => exact ih (s.next op)

end Owned

/-- In every run in which the application gives back only identifiers that it holds, and
    in which every call keeps the accounts, an identifier that waits for an
    acknowledgement is in use. -/
theorem waiting_in_use (ver : ProtocolVersion) (ops : List (Op pb))
    (hgives : Run.All Owned.next Owned.GivesBack ⟨make role pb ver, ∅⟩ ops)
    (hok : Run.All Owned.next Owned.Accounts ⟨make role pb ver, ∅⟩ ops) (k : AckKind)
    (packetId : Nat) (h : packetId ∈ ((make role pb ver).run ops).waiting k) :
    ((make role pb ver).run ops).pidMan.isUsedId packetId := by
  have hall : Run.All Owned.next (fun s op => s.GivesBack op ∧ s.Accounts op)
      ⟨make role pb ver, ∅⟩ ops := fun j op hj => ⟨hgives j op hj, hok j op hj⟩
  have hinv := Run.final_invariant (Q := fun s : Owned role pb => s.conn.Accounted s.held)
    (fun s op hs h => Owned.next_accounted h hs.1 hs.2) (Owned.make_accounted ver) hall
  rw [Owned.final_conn] at hinv
  exact ValueAllocator.isUsed_iff.mpr (hinv.used k packetId h)

/-- A CONNECT, the CONNACK and a QoS 1 PUBLISH with an identifier just acquired: it waits
    for its PUBACK and is in use. -/
theorem waiting_in_use_publish :
    ∃ p, V311.publishPacket .two 1 [0x61] [] 0x02 = .ok p ∧
      let ops : List (Op .two) :=
        [.recv [0x10, 0x0C, 0, 4, 0x4D, 0x51, 0x54, 0x54, 4, 2, 0, 10, 0, 0],
          .send (.v311Connack (V311.connackPacket false 0)), .acquireUniquePacketId,
          .send (.v311Publish p)]
      1 ∈ ((make .server .two .v311).run ops).waiting .puback ∧
      ((make .server .two .v311).run ops).pidMan.isUsedId 1 := by
  refine ⟨_, rfl, by decide, waiting_in_use .v311 _ ?_ ?_ .puback 1 (by decide)⟩
  · simp only [Run.all_cons, Run.all_nil, and_true]
    exact ⟨nofun, nofun, nofun, nofun⟩
  · simp only [Run.all_cons, Run.all_nil, and_true]
    -- nothing is stored in this run, and the identifier waits nowhere else
    refine ⟨⟨fun _ _ _ => nofun, fun _ _ _ => nofun⟩, fun _ => ?_, fun hwrap => absurd hwrap.1 nofun,
      fun _ => ?_⟩
    · rw [if_pos (by decide)]
      exact nofun
    · rw [if_pos (by decide)]
      simp only [Accepts, PacketVariant.type]
      rw [if_pos (by decide)]
      exact ⟨by decide, by decide⟩

/-- A QoS 1 PUBLISH without a connection: its identifier waits for a PUBACK and is not in
    use. -/
theorem puback_not_in_use :
    ∃ p, V311.publishPacket .two 1 [0x61] [] 0x02 = .ok p ∧
      let ops : List (Op .two) := [.acquireUniquePacketId, .send (.v311Publish p)]
      Run.All Owned.next Owned.GivesBack ⟨make .client .two .v311, ∅⟩ ops ∧
      1 ∈ ((make .client .two .v311).run ops).waiting .puback ∧
      ¬ ((make .client .two .v311).run ops).pidMan.isUsedId 1 := by
  refine ⟨_, rfl, ?_, by decide, by decide⟩
  simp only [Run.all_cons, Run.all_nil, and_true]
  exact ⟨nofun, nofun⟩

end Connection

end AsyncMqtt
