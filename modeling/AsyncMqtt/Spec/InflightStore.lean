import AsyncMqtt.Native.InflightMessages
import AsyncMqtt.Spec.StoredAckable

/-!
# The connection of a session that is kept

What the endpoint of a session stores while the broker sends PUBLISH and PUBREL packets with
identifiers that are new, and receives acknowledgements: `Connection.Tidy` brings the invariants of
the identifiers and of the store together, and each lemma says what a call does to the list of the
stored packets.

## Key results

- `Connection.Tidy.publish`, `Connection.Tidy.pubrel`: what is sent is stored
- `Connection.Tidy.recv`: what is acknowledged leaves the store
- `Connection.Tidy.sendAll`: the inflight messages are stored again
-/

namespace AsyncMqtt

namespace Connection

variable {c c' : Connection .server .two} {pv : PacketVariant .two} {packetId : Nat}

/-- The connection of a session that is kept: what it stores can be acknowledged, what waits is in
    use, and the broker answers a PUBREC itself. -/
structure Tidy (c : Connection .server .two) : Prop where
  ackable : c.Ackable
  accounted : c.Accounted ∅
  determined : c.protocolVersion ≠ .undetermined
  needStore : c.needStore = true
  manual : c.autoPubResponse = false

/-- No packet with the identifier is stored if none waits. -/
theorem Tidy.not_stored (h : c.Tidy) (hun : c.Unwaited packetId) : ¬ c.HasStored packetId := by
  rintro ⟨e, he, rfl⟩
  exact hun _ (h.ackable.awaited e he)

theorem not_wraps (m : PacketIdManager .two) : ¬ m.Wraps := fun h => nomatch h.1

/-- What only a CONNECT changes. -/
structure SameSettings (c c' : Connection .server .two) : Prop where
  version : c'.protocolVersion = c.protocolVersion
  needStore : c'.needStore = c.needStore
  autoPubResponse : c'.autoPubResponse = c.autoPubResponse

theorem Quiet.sameSettings (h : Quiet c c') : SameSettings c c' := by
  obtain ⟨_, _, _, _, _, -, rfl⟩ := h
  exact ⟨rfl, rfl, rfl⟩

theorem SameSettings.trans {c'' : Connection .server .two} (h : SameSettings c c')
    (h' : SameSettings c' c'') : SameSettings c c'' :=
  ⟨h'.version.trans h.version, h'.needStore.trans h.needStore,
    h'.autoPubResponse.trans h.autoPubResponse⟩

theorem Tidy.quiet (h : c.Tidy) (hq : Quiet c c') : c'.Tidy where
  ackable := h.ackable.quiet hq
  accounted := h.accounted.quiet hq
  determined := hq.version ▸ h.determined
  needStore := hq.sameSettings.needStore.trans h.needStore
  manual := hq.sameSettings.autoPubResponse.trans h.manual

/-- An identifier that is acquired is in use, and no packet with it waits. -/
theorem Tidy.acquire (h : c.Tidy) (hid : c.acquireUniquePacketId = (some packetId, c')) :
    c'.Tidy ∧ (∃ m, c' = { c with pidMan := m }) ∧ c'.Unwaited packetId ∧
      c'.pidMan.isUsedId packetId := by
  have hackable := acquireUniquePacketId_ackable h.ackable (not_wraps _)
  obtain ⟨haccounted, hun⟩ := acquireUniquePacketId_accounted h.accounted (not_wraps _)
  have hun := hun packetId (congrArg Prod.fst hid)
  rw [hid] at hackable haccounted hun
  unfold acquireUniquePacketId PacketIdManager.acquireUniqueId at hid
  rcases hallocate : c.pidMan.allocate with ⟨id?, m⟩
  rw [hallocate] at hid
  obtain ⟨rfl, rfl⟩ := Prod.mk.inj hid
  obtain ⟨-, hpool⟩ := ValueAllocator.mem_allocate hallocate h.ackable.range (not_wraps _)
  refine ⟨⟨hackable, haccounted, h.determined, h.needStore, h.manual⟩, ⟨m, rfl⟩, hun, ?_⟩
  exact ValueAllocator.isUsed_iff.mpr fun hp => (hpool packetId hp).2 rfl

theorem PublishOutcome.sameSettings {r : Sent .server .two} (h : PublishOutcome c pv r) :
    SameSettings c r.step.conn := by
  cases h with
  | stopped henters hs =>
    obtain ⟨_, _, hconn, -⟩ := hs.conn
    rw [hconn]
    exact ⟨rfl, rfl, rfl⟩
  | plain _ _ _ _ _ _ hconn =>
    rw [hconn]
    exact ⟨rfl, rfl, rfl⟩
  | @failed _ ec c₁ hc₁ hr =>
    have hc : SameSettings c c₁ := by
      rw [hc₁, publishEntered_eq]
      exact ⟨rfl, rfl, rfl⟩
    obtain ⟨m, hm, -⟩ := failRelease_conn c₁ ec pv.packetId
    rw [hr, hm]
    exact ⟨hc.version, hc.needStore, hc.autoPubResponse⟩
  | entered henters hlate pv' _ _ _ _ hconn =>
    rw [hconn, publishEntered_eq]
    exact ⟨rfl, rfl, rfl⟩

theorem send_sameSettings (htype : pv.type ≠ .connect) : SameSettings c (c.send pv).conn := by
  cases send_cases pv c with
  | quiet hq => exact hq.1.sameSettings
  | tooLarge _ _ _ _ hconn =>
    rw [hconn]
    exact ⟨rfl, rfl, rfl⟩
  | connect _ hconnect => exact absurd hconnect htype
  | @connack _ _ _ _ _ _ _ _ _ _ c₁ _ hc₁ hconn =>
    have hstored : SameSettings c c₁.sendStored.conn := by
      rw [sendStored_conn, hc₁]
      exact ⟨rfl, rfl, rfl⟩
    exact hstored.trans hconn.sameSettings
  | pubrecRefused _ _ hconn | pubrel _ _ _ _ _ hconn | subscribe _ _ hconn
  | unsubscribe _ _ hconn =>
    have hsame := hconn.sameSettings
    exact ⟨hsame.version, hsame.needStore, hsame.autoPubResponse⟩
  | publish _ _ hout hconn => exact hout.sameSettings.trans hconn.sameSettings

theorem Tidy.ofSameSettings (h : c.Tidy) (hackable : c'.Ackable) (haccounted : c'.Accounted ∅)
    (hsame : SameSettings c c') : c'.Tidy :=
  ⟨hackable, haccounted, hsame.version ▸ h.determined, hsame.needStore.trans h.needStore,
    hsame.autoPubResponse.trans h.manual⟩

/-! ### Sending -/

/-- A packet that keeps the identifiers and the store in order keeps the connection. -/
theorem Tidy.send (h : c.Tidy) (htype : pv.type ≠ .connect) (hkeeps : c.SendKeeps pv)
    (haccounts : c.SendAccounts pv) : (c.send pv).conn.Tidy :=
  h.ofSameSettings (send_ackable h.ackable hkeeps)
    (send_accounted h.accounted haccounts fun _ => OrdSet.notMem_empty _) (send_sameSettings htype)

open InflightSession (wasSent)

/-- Whether a PUBLISH or a PUBREL was sent is seen from the events of the exchanges. -/
theorem wasSent_iff {r : Step .server .two} : wasSent r ↔
    ∃ pv release, Event.send pv release ∈ exchanges r.events ∧
      (pv.type = .publish ∨ pv.type = .pubrel) := by
  unfold wasSent exchanges
  rw [List.any_eq_true]
  constructor
  · rintro ⟨e, he, hsend⟩
    split at hsend
    · next pv release =>
      have htype : pv.type = .publish ∨ pv.type = .pubrel := by simpa using hsend
      refine ⟨pv, release, List.mem_filter.mpr ⟨he, ?_⟩, htype⟩
      rcases htype with htype | htype <;> simp [Event.isExchange, htype]
    · cases hsend
  · rintro ⟨pv, release, he, htype⟩
    exact ⟨_, (List.mem_filter.mp he).1, by simpa using htype⟩

theorem not_wasSent {r : Step .server .two} (h : exchanges r.events = []) : ¬ wasSent r := by
  intro hsent
  obtain ⟨_, _, he, -⟩ := wasSent_iff.mp hsent
  rw [h] at he
  exact nomatch he

/-- A packet of an exchange that is not sent is not stored. -/
theorem store_of_unsent {store : Store .two} (hevents : exchanges (c.send pv).events = [])
    (hstore : (c.send pv).conn.store = c.store) :
    (c.send pv).conn.store = if wasSent (c.send pv) then store else c.store := by
  rw [if_neg (not_wasSent hevents), hstore]

theorem exchanges_eq_nil {es : List (Event .two)}
    (h : ∀ e ∈ es, e.isExchange = false) : exchanges es = [] :=
  List.filter_eq_nil_iff.mpr fun e he => by simp [h e he]

theorem Stopped.exchanges_events {r : Sent .server .two} (h : Stopped c packetId r) :
    exchanges r.step.events = [] := by
  refine exchanges_eq_nil fun e he => ?_
  rcases h.events e he with ⟨_, rfl⟩ | rfl | ⟨_, rfl⟩ <;> rfl

/-- A PUBLISH that is sent has passed all checks. -/
theorem passes_of_wasSent (htype : pv.type = .publish) (hqos : isQos12 pv.view.opts)
    (hsent : wasSent (c.send pv)) :
    c.publishEnters pv ∧ ¬ c.publishFailsLate pv ∧ c.status = .connected := by
  have hno (hevents : exchanges (c.send pv).events = []) : False := not_wasSent hevents hsent
  cases send_cases pv c with
  | quiet hq => exact (hno hq.2).elim
  | tooLarge _ _ _ _ _ hevents | pubrecRefused _ _ _ hevents | subscribe _ _ _ hevents
  | unsubscribe _ _ _ hevents => exact (hno hevents).elim
  | connect _ htype' => exact nomatch htype.symm.trans htype'
  | connack _ htype' => exact nomatch htype.symm.trans htype'
  | pubrel _ htype' => exact nomatch htype.symm.trans htype'
  | @publish _ _ r hout _ hevents =>
    cases hout with
    | stopped _ hs => exact (hno (hevents.trans hs.exchanges_events)).elim
    | plain hplain => exact absurd hqos hplain
    | @failed _ ec c₁ _ hr =>
      have hr' : exchanges r.step.events = [] := by
        rw [hr]
        unfold Sent.failRelease
        split <;> rfl
      exact (hno (hevents.trans hr')).elim
    | entered henters hlate _ _ _ _ _ _ hsend =>
      refine ⟨henters, hlate, ?_⟩
      by_contra hstatus
      rw [if_neg hstatus] at hsend
      exact hno (hevents.trans (congrArg exchanges hsend))

/-- An identifier that is acquired waits for the acknowledgement of its PUBLISH. -/
theorem Tidy.publish (h : c.Tidy) (htype : pv.type = .publish) (hqos : isQos12 pv.view.opts)
    (hun : c.Unwaited pv.packetId) (hstatus : c.status = .connected)
    (hlate : c.publishEnters pv → ¬ c.publishFailsLate pv) :
    (c.send pv).conn.Tidy ∧
      (c.send pv).conn.store = if wasSent (c.send pv) then c.storeEntered pv else c.store := by
  have honly (k : AckKind) : c.OnlyWaits k pv.packetId := fun k' hk' => absurd hk' (hun k')
  -- the PUBLISH is entered under an identifier that nothing else waits for
  have hkeeps : c.SendKeeps pv := by
    intro _
    split
    · unfold AcceptKeeps
      rw [htype]
      dsimp only
      split
      · next henters => exact fun _ => ⟨hlate henters, honly _⟩
      · exact .inr (h.not_stored hun)
    · exact fun _ _ => h.not_stored hun
  -- the same for the account of the identifiers
  have haccounts : c.SendAccounts pv := by
    intro _
    split
    · unfold Accepts
      rw [htype]
      dsimp only
      split
      · next henters => exact ⟨hlate henters, honly _⟩
      · exact .inr hun
    · exact fun _ _ => hun
  refine ⟨h.send (by rw [htype]; exact nofun) hkeeps haccounts, ?_⟩
  -- a PUBLISH ends in one of the cases of a PUBLISH, or is refused
  cases send_cases pv c with
  | quiet hq => exact store_of_unsent hq.2 hq.1.store
  | tooLarge _ _ _ _ hconn hevents => exact store_of_unsent hevents (by rw [hconn])
  | pubrecRefused hpv => exact nomatch htype.symm.trans (congrArg PacketVariant.type hpv)
  | subscribe _ htype' => exact nomatch htype.symm.trans htype'
  | unsubscribe _ htype' => exact nomatch htype.symm.trans htype'
  | connect _ htype' => exact nomatch htype.symm.trans htype'
  | connack _ htype' => exact nomatch htype.symm.trans htype'
  | pubrel _ htype' => exact nomatch htype.symm.trans htype'
  | @publish _ _ r hout hconn hevents =>
    cases hout with
    | stopped _ hs =>
      obtain ⟨_, _, heq, -⟩ := hs.conn
      exact store_of_unsent (hevents.trans hs.exchanges_events) (hconn.store.trans (by rw [heq]))
    | plain hplain => exact absurd hqos hplain
    | failed hfails => exact absurd hfails (hlate (publishFailsLate_enters hfails))
    | entered _ _ pv' htype' _ _ _ heq hsend =>
      rw [if_pos hstatus] at hsend
      have hsent : wasSent (c.send pv) := by
        refine wasSent_iff.mpr ⟨pv', c.releaseIfSendError pv.packetId, ?_, .inl htype'⟩
        rw [hevents, hsend]
        exact List.mem_filter.mpr ⟨List.mem_singleton_self _, by simp [Event.isExchange, htype']⟩
      rw [if_pos hsent, hconn.store, heq, publishEntered_eq]

/-- The PUBREL that answers a PUBREC is stored when it is sent. -/
theorem Tidy.pubrel (h : c.Tidy) {p : StorePacket .two} (hp : p.toPacketVariant = pv)
    (htype : pv.type = .pubrel) (hun : c.Unwaited pv.packetId)
    (hused : c.pidMan.isUsedId pv.packetId) :
    (c.send pv).conn.Tidy ∧
      (c.send pv).conn.store = if wasSent (c.send pv) then c.store.add p else c.store := by
  have henters : c.Enters .pubcomp pv.packetId := ⟨hused, fun k' hk' => absurd hk' (hun k')⟩
  -- a PUBREL is stored under an identifier that nothing else waits for
  have hkeeps : c.SendKeeps pv := by
    intro _
    split
    · unfold AcceptKeeps
      rw [htype]
      exact fun _ => henters
    · exact fun _ _ => h.not_stored hun
  have haccounts : c.SendAccounts pv := by
    intro _
    split
    · unfold Accepts
      rw [htype]
      exact henters
    · exact fun _ _ => hun
  refine ⟨h.send (by rw [htype]; exact nofun) hkeeps haccounts, ?_⟩
  -- a PUBREL is sent, or it is refused
  cases send_cases pv c with
  | quiet hq => exact store_of_unsent hq.2 hq.1.store
  | tooLarge _ _ _ _ hconn hevents => exact store_of_unsent hevents (by rw [hconn])
  | pubrecRefused hpv => exact nomatch htype.symm.trans (congrArg PacketVariant.type hpv)
  | subscribe _ htype' => exact nomatch htype.symm.trans htype'
  | unsubscribe _ htype' => exact nomatch htype.symm.trans htype'
  | connect _ htype' => exact nomatch htype.symm.trans htype'
  | connack _ htype' => exact nomatch htype.symm.trans htype'
  | publish _ htype' => exact nomatch htype.symm.trans htype'
  | pubrel _ _ _ p' hp' hconn hevents =>
    obtain rfl : p' = p := by
      have heq := hp'.trans hp.symm
      cases p' <;> cases p <;> cases heq <;> rfl
    have hsent : wasSent (c.send pv) :=
      wasSent_iff.mpr ⟨pv, none, by rw [hevents]; exact List.mem_singleton_self _, .inr htype⟩
    rw [if_pos hsent, hconn.store]
    exact if_pos h.needStore

/-- A packet that belongs to no exchange and not to the connection leaves the store alone. -/
theorem Tidy.sendOther (h : c.Tidy) (hother : InflightSession.isOther pv) :
    (c.send pv).conn.Tidy ∧ (c.send pv).conn.store = c.store := by
  simp only [InflightSession.isOther, List.mem_cons, List.not_mem_nil, or_false, not_or,
    Bool.and_eq_true, Bool.or_eq_true, decide_eq_true_eq, Bool.not_eq_true'] at hother
  obtain ⟨⟨hconnect, hconnack, hpubrel, hsubscribe, hunsubscribe⟩, hqos⟩ := hother
  have hplain : ¬ c.publishEnters pv := by
    intro henters
    obtain ⟨htype, hqos12⟩ := publishEnters_qos henters
    exact nomatch (hqos.resolve_left (absurd htype)).1.symm.trans hqos12
  -- a PUBLISH with QoS 0 is the only packet here that could have an identifier
  have hzero (hown : pv.ownPacketId) : pv.packetId = 0 := by
    unfold PacketVariant.ownPacketId at hown
    split at hown <;> first | contradiction | skip
    next htype => exact (hqos.resolve_left (absurd htype)).2
  have hkeeps : c.SendKeeps pv := by
    intro _
    split
    · unfold AcceptKeeps
      split <;> first | contradiction | trivial | skip
      next htype =>
        rw [if_neg hplain]
        exact .inl (hqos.resolve_left (absurd htype)).2
    · exact fun hown hid => absurd (hzero hown) hid
  have haccounts : c.SendAccounts pv := by
    intro _
    split
    · unfold Accepts
      split <;> first | contradiction | trivial | skip
      next htype =>
        rw [if_neg hplain]
        exact .inl (hqos.resolve_left (absurd htype)).2
    · exact fun hown hid => absurd (hzero hown) hid
  refine ⟨h.send hconnect hkeeps haccounts, ?_⟩
  cases send_cases pv c with
  | quiet hq => exact hq.1.store
  | tooLarge _ _ hown hid => exact absurd (hzero hown) hid
  | pubrecRefused _ _ hconn => exact hconn.store
  | connect _ htype => exact absurd htype hconnect
  | connack _ htype => exact absurd htype hconnack
  | pubrel _ htype => exact absurd htype hpubrel
  | subscribe _ htype => exact absurd htype hsubscribe
  | unsubscribe _ htype => exact absurd htype hunsubscribe
  | publish _ _ hout hconn =>
    rw [hconn.store]
    cases hout with
    | stopped _ hs =>
      obtain ⟨_, _, heq, -⟩ := hs.conn
      rw [heq]
    | plain _ _ _ _ _ _ heq => rw [heq]
    | failed hlate => exact absurd (publishFailsLate_enters hlate) hplain
    | entered henters => exact absurd henters hplain

/-! ### Receiving -/

/-- The acknowledgement of an exchange takes the packet with its identifier out of the store. -/
theorem Tidy.erase (h : c.Tidy) {k : AckKind} {v5 v311 : ResponsePacket}
    (hk : ∀ e : StorePacketVariant .two, storedAck e = k →
      e.responsePacketType = if e.version = .v5 then v5 else v311)
    (hversion : pv.version = c.protocolVersion) (hmem : packetId ∈ c.waiting k) :
    (c.store.erase (ackResponse v5 v311 pv) packetId).elems =
      c.store.elems.filter fun e => e.packetId ≠ packetId := by
  refine List.filter_congr fun e he => decide_eq_decide.mpr ⟨fun hkeep => ?_, fun hne hdrop => ?_⟩
  · exact (h.ackable.erased h.determined hk hversion hmem e (Store.mem_erase.mpr ⟨he, hkeep⟩)).2
  · exact hne hdrop.2

/-- The packets that acknowledge a PUBLISH or a PUBREL -/
def isAck (type : ControlPacketType) : Bool := type ∈ [.puback, .pubrec, .pubcomp]

/-- What the connection does with an acknowledgement that it awaits. -/
structure Acknowledged (c c' : Connection .server .two) (pv : PacketVariant .two) : Prop where
  isAck : isAck pv.type
  awaited : pv.type = .pubrec → pv.packetId ∈ c.pidPubrec
  store : c'.store.elems = c.store.elems.filter fun e => e.packetId ≠ pv.packetId
  unwaited : pv.type = .pubrec → ¬ reasonCodeFailed pv.view.code → c'.Unwaited pv.packetId
  used : pv.type = .pubrec → ¬ reasonCodeFailed pv.view.code → c'.pidMan.isUsedId pv.packetId

/-- The last acknowledgement of an exchange -/
theorem Acknowledged.of_last (htype : pv.type ≠ .pubrec) (hack : Connection.isAck pv.type)
    (hstore : c'.store.elems = c.store.elems.filter fun e => e.packetId ≠ pv.packetId) :
    Acknowledged c c' pv where
  isAck := hack
  awaited hpubrec := absurd hpubrec htype
  store := hstore
  unwaited hpubrec := absurd hpubrec htype
  used hpubrec := absurd hpubrec htype

/-- A packet that is received: an acknowledgement that is awaited is delivered and ends the stay of its
    packet in the store, any other acknowledgement is not delivered, and nothing else touches the
    store. -/
theorem Tidy.recv (h : c.Tidy) (hstatus : c.status = .connected)
    (hversion : pv.version = c.protocolVersion) :
    (c.processRecvDecoded pv).conn.Tidy ∧
      (.receive pv ∈ (c.processRecvDecoded pv).events ∧
          Acknowledged c (c.processRecvDecoded pv).conn pv ∨
        (c.processRecvDecoded pv).conn.store = c.store ∧
          (.receive pv ∈ (c.processRecvDecoded pv).events → ¬ isAck pv.type)) := by
  have hout := processRecvDecoded_cases pv c
  have hackable : (c.processRecvDecoded pv).conn.Ackable :=
    hout.ackable h.ackable (fun _ => ⟨h.determined, hversion⟩)
      (fun _ hdisconnected => by cases hstatus.symm.trans hdisconnected)
      (fun _ _ hauto => by cases h.manual.symm.trans hauto)
  have haccounted : (c.processRecvDecoded pv).conn.Accounted ∅ :=
    hout.accounted h.accounted fun _ hconnecting => by cases hstatus.symm.trans hconnecting
  generalize hs : c.processRecvDecoded pv = s at hout hackable haccounted
  have htidy (hsame : SameSettings c s.conn) : s.conn.Tidy :=
    h.ofSameSettings hackable haccounted hsame
  -- what is delivered of the exchanges is seen from their events
  have hmem {es : List (Event .two)} (hevents : exchanges s.events = es) (hack : isAck pv.type) :
      .receive pv ∈ s.events ↔ .receive pv ∈ es := by
    rw [← hevents, exchanges, List.mem_filter]
    have hexchange : (Event.receive pv).isExchange = true := by
      unfold isAck at hack
      simp only [List.mem_cons, List.not_mem_nil, or_false, decide_eq_true_eq] at hack
      rcases hack with htype | htype | htype <;> simp [Event.isExchange, htype]
    simp [hexchange]
  have hsilent (hevents : exchanges s.events = []) :
      .receive pv ∈ s.events → ¬ isAck pv.type :=
    fun hreceive hack => by cases (hmem hevents hack).mp hreceive
  cases hout with
  | quiet hq => exact ⟨htidy hq.1.sameSettings, .inr ⟨hq.1.store, hsilent hq.2⟩⟩
  | connect _ hdisconnected => cases hstatus.symm.trans hdisconnected
  | connack _ hconnecting => cases hstatus.symm.trans hconnecting
  | publish htype hconn | publishDelivered htype _ _ hconn =>
    have hsame := hconn.sameSettings
    refine ⟨htidy ⟨hsame.version, hsame.needStore, hsame.autoPubResponse⟩, .inr ⟨hconn.store, ?_⟩⟩
    rw [htype]
    exact fun _ => by rintro ⟨⟩
  | publishRejected _ _ _ _ _ _ hconn hevents | pubrel _ hconn hevents =>
    have hsame := hconn.sameSettings
    exact ⟨htidy ⟨hsame.version, hsame.needStore, hsame.autoPubResponse⟩,
      .inr ⟨hconn.store, hsilent hevents⟩⟩
  | puback htype _ hid hconn hevents =>
    have hack : isAck pv.type := by rw [htype]; rfl
    have hnot : pv.type ≠ .pubrec := by rw [htype]; rintro ⟨⟩
    refine ⟨htidy (by rw [hconn]; exact ⟨rfl, rfl, rfl⟩), .inl
      ⟨(hmem hevents hack).mpr (List.mem_singleton_self _), Acknowledged.of_last hnot hack ?_⟩⟩
    rw [hconn]
    exact h.erase (fun e => e.response_of_ack.1) hversion hid
  | pubcomp htype _ hid hconn hevents =>
    have hack : isAck pv.type := by rw [htype]; rfl
    have hnot : pv.type ≠ .pubrec := by rw [htype]; rintro ⟨⟩
    refine ⟨htidy (by rw [hconn]; exact ⟨rfl, rfl, rfl⟩), .inl
      ⟨(hmem hevents hack).mpr (List.mem_singleton_self _), Acknowledged.of_last hnot hack ?_⟩⟩
    rw [hconn]
    exact h.erase (fun e => e.response_of_ack.2.2) hversion hid
  | @pubrecFailed p hpv hcode _ hid hconn hevents =>
    subst hpv
    refine ⟨htidy (by rw [hconn]; exact ⟨rfl, rfl, rfl⟩),
      .inl ⟨(hmem hevents rfl).mpr (List.mem_singleton_self _), rfl, fun _ => hid, ?_,
        fun _ hok => absurd hcode hok, fun _ hok => absurd hcode hok⟩⟩
    rw [hconn]
    have herase := h.erase (fun e => e.response_of_ack.2.1) hversion hid
    exact herase
  | @pubrec htype hcode _ hid c₁ r hc₁ hr hconn hevents =>
    have hack : isAck pv.type := by rw [htype]; rfl
    have hr : r = ⟨c₁, []⟩ := by
      have hmanual : c₁.autoPubResponse = false := by rw [hc₁]; exact h.manual
      rw [hr, respondIf, hmanual]
      rfl
    subst hr
    refine ⟨htidy (by rw [hconn, hc₁]; exact ⟨rfl, rfl, rfl⟩),
      .inl ⟨(hmem hevents hack).mpr (List.mem_singleton_self _), hack, fun _ => hid, ?_,
        fun _ _ k hk => ?_, fun _ _ => ?_⟩⟩
    · rw [hconn, hc₁]
      exact h.erase (fun e => e.response_of_ack.2.1) hversion hid
    · -- the identifier waited for the PUBREC alone
      rw [hconn, hc₁] at hk
      cases k with
      | pubrec => exact (OrdSet.mem_erase.mp hk).2 rfl
      | suback => cases h.accounted.alone .pubrec _ hid .suback hk
      | unsuback => cases h.accounted.alone .pubrec _ hid .unsuback hk
      | puback => cases h.accounted.alone .pubrec _ hid .puback hk
      | pubcomp => cases h.accounted.alone .pubrec _ hid .pubcomp hk
    · rw [hconn, hc₁]
      exact ValueAllocator.isUsed_iff.mpr (h.accounted.used .pubrec _ hid)
  | suback _ _ hconn hevents | unsuback _ _ hconn hevents =>
    exact ⟨htidy (by rw [hconn]; exact ⟨rfl, rfl, rfl⟩),
      .inr ⟨by rw [hconn], hsilent hevents⟩⟩

/-! ### Connecting -/

/-- A CONNECT that is received stores nothing; the version is the one of the CONNECT, unless it is
    refused. -/
theorem recv_connect {s : Step .server .two} (hout : RecvOutcome c pv s)
    (htype : pv.type = .connect) : s.conn.store = c.store ∧
      s.conn.autoPubResponse = c.autoPubResponse ∧
      (SameSettings c s.conn ∨ s.conn.protocolVersion = pv.version) := by
  have hno {type : ControlPacketType} (htype' : pv.type = type) (hne : type ≠ .connect) : False :=
    hne (htype'.symm.trans htype)
  cases hout with
  | quiet hq => exact ⟨hq.1.store, hq.1.sameSettings.autoPubResponse, .inl hq.1.sameSettings⟩
  | connect _ _ clean _ hconn =>
    rw [hconn]
    exact ⟨rfl, rfl, .inr rfl⟩
  | connack haccepts =>
    rw [PacketVariant.acceptsConnection, htype] at haccepts
    cases haccepts
  | publishRejected hpv | pubrecFailed hpv => cases htype.symm.trans (congrArg _ hpv)
  | publish htype' => exact (hno htype' (by rintro ⟨⟩)).elim
  | publishDelivered htype' => exact (hno htype' (by rintro ⟨⟩)).elim
  | puback htype' => exact (hno htype' (by rintro ⟨⟩)).elim
  | pubrec htype' => exact (hno htype' (by rintro ⟨⟩)).elim
  | pubrel htype' => exact (hno htype' (by rintro ⟨⟩)).elim
  | pubcomp htype' => exact (hno htype' (by rintro ⟨⟩)).elim
  | suback htype' => exact (hno htype' (by rintro ⟨⟩)).elim
  | unsuback htype' => exact (hno htype' (by rintro ⟨⟩)).elim

/-- A CONNACK leaves an empty store empty. -/
theorem send_connack_store (htype : pv.type = .connack) (hempty : c.store.elems = []) :
    (c.send pv).conn.store.elems = [] := by
  rw [List.eq_nil_iff_forall_not_mem]
  intro e he
  have hno {type : ControlPacketType} (htype' : pv.type = type) (hne : type ≠ .connack) : False :=
    hne (htype'.symm.trans htype)
  cases send_cases pv c with
  | quiet hq =>
    rw [hq.1.store, hempty] at he
    exact nomatch he
  | tooLarge _ _ _ _ hconn =>
    rw [hconn, hempty] at he
    exact nomatch he
  | connack _ _ _ _ hc₁ hconn =>
    rw [hconn.store, sendStored_conn, hc₁] at he
    have hmem := (List.mem_filter.mp he).1
    rw [hempty] at hmem
    exact nomatch hmem
  | pubrecRefused hpv => exact nomatch htype.symm.trans (congrArg _ hpv)
  | connect _ htype' => exact (hno htype' nofun).elim
  | subscribe _ htype' => exact (hno htype' nofun).elim
  | unsubscribe _ htype' => exact (hno htype' nofun).elim
  | pubrel _ htype' => exact (hno htype' nofun).elim
  | publish _ htype' => exact (hno htype' nofun).elim

/-- A connection that stores and has accepted a CONNECT is new. -/
theorem accept_tidy {connect connack : PacketVariant .two} (htype : connack.type = .connack)
    (hneed : (InflightSession.accept connect connack).needStore = true) :
    (InflightSession.accept connect connack).Tidy ∧
      (InflightSession.accept connect connack).store.elems = [] := by
  unfold InflightSession.accept at hneed ⊢
  have hsame {c : Connection .server .two} : SameSettings c (c.send connack).conn :=
    send_sameSettings (by rw [htype]; rintro ⟨⟩)
  have hnew : (make .server .two .undetermined).Accounted ∅ := Owned.make_accounted _
  have hconnect : connect.type = .connect := by
    -- anything but a CONNECT is not taken, and the session would not be kept
    by_contra hne
    have hallowed : (make .server .two .undetermined).recvAllowed connect = false := by
      unfold recvAllowed
      split
      · next heq => exact absurd heq hne
      all_goals rfl
    rw [processRecvDecoded, hallowed] at hneed
    cases hsame.needStore.symm.trans hneed
  have hout := processRecvDecoded_cases connect (make .server .two .undetermined)
  have hackable := hout.ackable (make_ackable _ _ _) (fun hne => absurd hconnect hne)
    (fun _ _ => ⟨fun _ => rfl, by rintro _ ⟨⟩⟩) (fun hpubrec => by cases hconnect.symm.trans hpubrec)
  have haccounted := hout.accounted hnew fun haccepts => by
    rw [PacketVariant.acceptsConnection, hconnect] at haccepts
    cases haccepts
  obtain ⟨hstore, hmanual, hversion⟩ := recv_connect hout hconnect
  generalize (make .server .two .undetermined).processRecvDecoded connect = s at *
  have hempty : s.conn.store.elems = [] := congrArg Store.elems hstore
  -- the version was undetermined before, and is that of the CONNECT
  have hdetermined : s.conn.protocolVersion ≠ .undetermined := by
    rcases hversion with hquiet | hversion
    · cases (hsame.needStore.trans hquiet.needStore).symm.trans hneed
    · rw [hversion]
      cases connect <;> rintro ⟨⟩
  -- the CONNACK finds an empty store
  have htidy : (s.conn.send connack).conn.Tidy := by
    refine ⟨send_ackable hackable fun _ => ?_, send_accounted haccounted (fun _ => ?_) ?_,
      fun hnone => hdetermined (hsame.version.symm.trans hnone), hneed,
      hsame.autoPubResponse.trans hmanual⟩
    · rw [AcceptKeeps, htype, PacketVariant.ownPacketId, htype]
      split
      · trivial
      · rintro ⟨⟩
    · rw [Accepts, htype, PacketVariant.ownPacketId, htype]
      split
      · rw [StoredFit, hempty]
        rintro _ ⟨⟩
      · rintro ⟨⟩
    · rw [PacketVariant.ownPacketId, htype]
      rintro ⟨⟩
  exact ⟨htidy, send_connack_store htype hempty⟩

/-! ### What is stored -/

/-- A packet as it is sent again: a PUBLISH has the DUP flag, and no topic alias. -/
def resendOf : PacketVariant .two → Option (StorePacketVariant .two)
  | .v311Publish p => StorePacketVariant.ofPacket? (.v311Publish p.setDup)
  | .v5Publish p =>
    match storePacket p p.topic with
    | .ok sp => StorePacketVariant.ofPacket? (.v5Publish sp.setDup)
    | .error _ => none
  | .v311Pubrel p => StorePacketVariant.ofPacket? (.v311Pubrel p)
  | .v5Pubrel p => StorePacketVariant.ofPacket? (.v5Pubrel p)
  | _ => none

theorem ofPacket?_packet {p : StorePacket .two} {e : StorePacketVariant .two}
    (h : StorePacketVariant.ofPacket? p = some e) : e.packet = p := by
  unfold StorePacketVariant.ofPacket? at h
  split at h
  · next res hres => exact (congrArg StorePacketVariant.packet (Option.some.inj h)).symm
  · exact nomatch h

/-- A packet that is added is put in at the end, if its identifier is new. -/
theorem add_elems {s : Store .two} {p : StorePacket .two}
    (hnew : ∀ e ∈ s.elems, e.packetId ≠ p.packetId) :
    (s.add p).elems = s.elems ++ (StorePacketVariant.ofPacket? p).toList := by
  unfold Store.add
  split
  · next e he =>
    rw [he]
    unfold Store.emplaceBack
    rw [dif_neg]
    · rfl
    · rintro ⟨e', he', -, hid⟩
      exact hnew e' he' (hid.trans (congrArg StorePacket.packetId (ofPacket?_packet he)))
  · next hnone => rw [hnone, Option.toList_none, List.append_nil]

theorem ofPacket?_packetId {p : StorePacket .two} {e : StorePacketVariant .two}
    (h : e ∈ (StorePacketVariant.ofPacket? p).toList) : e.packetId = p.packetId :=
  congrArg StorePacket.packetId (ofPacket?_packet (Option.mem_toList.mp h))

/-- What is sent again has the packet identifier of what was sent. -/
theorem resendOf_packetId {e : StorePacketVariant .two} (h : e ∈ (resendOf pv).toList)
    (hqos : pv.type = .publish → isQos12 pv.view.opts) : e.packetId = pv.packetId := by
  cases pv with
  | v311Publish p => exact ofPacket?_packetId (p := .v311Publish p.setDup) h
  | v311Pubrel p => exact ofPacket?_packetId (p := .v311Pubrel p) h
  | v5Pubrel p => exact ofPacket?_packetId (p := .v5Pubrel p) h
  | v5Publish p =>
    simp only [resendOf] at h
    split at h
    · next sp hsp =>
      have hid : sp.packetId = p.packetId := storePacket_packetId hsp (hqos rfl)
      exact (ofPacket?_packetId h).trans hid
    · exact nomatch h
  | _ => exact nomatch h

/-- A PUBLISH of the broker that enters the session is put in at the end of the store. -/
theorem storeEntered_elems (h : c.Tidy) (hstatus : c.status = .connected)
    (hun : c.Unwaited pv.packetId) (hforward : InflightSession.isForwarded pv)
    (henters : c.publishEnters pv) :
    (c.storeEntered pv).elems = c.store.elems ++ (resendOf pv).toList := by
  have hstores : c.storesPublish = true := by simp [storesPublish, h.needStore, hstatus]
  have hnew : ∀ e ∈ c.store.elems, e.packetId ≠ pv.packetId :=
    fun e he hid => h.not_stored hun ⟨e, he, hid⟩
  cases pv with
  | v311Publish p =>
    simp only [storeEntered, hstores, if_true]
    exact add_elems hnew
  | v5Publish p =>
    simp only [InflightSession.isForwarded, Bool.and_eq_true, decide_eq_true_eq] at hforward
    simp only [storeEntered, storedPublishV5, resendOf, hstores, if_true, if_neg hforward.1.2]
    cases hsp : storePacket p p.topic with
    | error _ => simp
    | ok sp =>
      dsimp only
      have hid : sp.packetId = p.packetId := storePacket_packetId hsp hforward.1.1
      exact add_elems fun e he heq => hnew e he (heq.trans hid)
  | _ => cases hforward

/-- A PUBLISH of the broker passes all checks that come after it has entered the session. -/
theorem not_failsLate (hstatus : c.status = .connected)
    (hforward : InflightSession.isForwarded pv) (hmax : ¬ c.sendMaximumReached) :
    ¬ c.publishFailsLate pv := by
  have hsendable : c.notSendable = false := by simp [notSendable, hstatus]
  cases pv with
  | v311Publish p => simp [publishFailsLate, hsendable]
  | v5Publish p =>
    simp only [InflightSession.isForwarded, Bool.and_eq_true, decide_eq_true_eq,
      Option.isNone_iff_eq_none] at hforward
    have halias : c.aliasRejected p = false := by
      rw [aliasRejected, if_neg hforward.1.2, hforward.2]
    simp [publishFailsLate, hsendable, halias, hmax]
  | _ => cases hforward

/-! ### Sending the inflight messages -/

open InflightMessages (sendAll)

/-- An identifier that is registered is in use, and no packet with it waits. -/
theorem Tidy.register (h : c.Tidy) (hlt : packetId < PacketIdBytes.two.limit)
    (hok : (c.registerPacketId packetId).1 = true) :
    (c.registerPacketId packetId).2.Tidy ∧
      (c.registerPacketId packetId).2.store = c.store ∧
      (c.registerPacketId packetId).2.Unwaited packetId ∧
      (c.registerPacketId packetId).2.pidMan.isUsedId packetId := by
  have hwraps : c.pidMan.Wraps → c.pidMan.isUsedId packetId := fun hw => absurd hw (not_wraps _)
  have heq : (c.registerPacketId packetId).2 =
    { c with pidMan := (c.pidMan.registerId packetId).2 } := rfl
  obtain ⟨haccounted, hused, hun⟩ := use_accounted h.accounted hlt hwraps heq
  obtain ⟨hackable, -⟩ := registerId_ackable h.ackable hlt hwraps heq
  exact ⟨⟨hackable, haccounted, h.determined, h.needStore, h.manual⟩, rfl, hun hok, hused⟩

/-- The packets are sent one after the other: their identifiers are vacant, and the connection refuses
    none. -/
def Resends : List (StorePacketVariant .two) → Connection .server .two → Prop
  | [], _ => True
  | e :: es, c =>
    (c.registerPacketId e.packetId).1 = true ∧ wasSent (InflightMessages.send e c) ∧
      Resends es (InflightMessages.send e c).conn

/-- A PUBLISH that enters the session is put in at the end of the store, if its identifier is new. -/
theorem storeEntered_appends (hnew : ∀ e ∈ c.store.elems, e.packetId ≠ pv.packetId)
    (hqos : isQos12 pv.view.opts) : ∃ es, (c.storeEntered pv).elems = c.store.elems ++ es ∧
      ∀ e ∈ es, e.packetId = pv.packetId := by
  have hsame : ∃ es, c.store.elems = c.store.elems ++ es ∧ ∀ e ∈ es, e.packetId = pv.packetId :=
    ⟨[], (List.append_nil _).symm, nofun⟩
  unfold storeEntered
  split
  · next p =>
    split
    · exact ⟨_, add_elems (p := .v311Publish p.setDup) hnew, fun e he => ofPacket?_packetId he⟩
    · exact hsame
  · next p =>
    split
    · split
      · next sp hsp =>
        have hid : sp.packetId = p.packetId := (storedPublishV5_eq hsp hqos).1
        exact ⟨_, add_elems (p := .v5Publish sp.setDup) fun e he heq => hnew e he (heq.trans hid),
          fun e he => (ofPacket?_packetId he).trans hid⟩
      · exact hsame
    · exact hsame
  · exact hsame

/-- A PUBLISH that can be stored has QoS 1 or 2. -/
theorem isQos12_of_response {p : StorePacket .two} {res : ResponsePacket}
    (h : p.response? = some res) (htype : p.toPacketVariant.type = .publish) :
    isQos12 p.toPacketVariant.view.opts := by
  cases p with
  | v311Publish p | v5Publish p =>
    simp only [StorePacket.response?] at h
    split at h
    · next hq => exact isQos12_iff_toNat.mpr (.inl hq)
    · next hq => exact isQos12_iff_toNat.mpr (.inr hq)
    · cases h
  | v311Pubrel p | v5Pubrel p => cases htype

/-- An inflight message that is sent is put in at the end of the store. -/
theorem Tidy.resend (h : c.Tidy) {e : StorePacketVariant .two}
    (hok : (c.registerPacketId e.packetId).1 = true)
    (hsent : wasSent (InflightMessages.send e c)) :
    (InflightMessages.send e c).conn.Tidy ∧
      ∃ es, (InflightMessages.send e c).conn.store.elems = c.store.elems ++ es ∧
        ∀ a ∈ es, a.packetId = e.packetId := by
  have hlt : e.packetId < PacketIdBytes.two.limit := e.packet.packetId_lt
  obtain ⟨hc, hstore, hun, hused⟩ := h.register hlt hok
  have hid : e.packet.toPacketVariant.packetId = e.packetId := e.packet.packetId_toPacketVariant
  have hnew : ∀ a ∈ (c.registerPacketId e.packetId).2.store.elems, a.packetId ≠ e.packetId :=
    fun a ha heq => hc.not_stored hun ⟨a, ha, heq⟩
  unfold InflightMessages.send at hsent ⊢
  generalize (c.registerPacketId e.packetId).2 = c₁ at hsent hc hstore hun hused hnew ⊢
  rw [← hid] at hun hused hnew
  rw [← hstore]
  -- a PUBLISH or a PUBREL is sent again
  by_cases htype : e.packet.toPacketVariant.type = .publish
  · have hqos := isQos12_of_response e.isResponse htype
    obtain ⟨henters, hlate, hstatus⟩ := passes_of_wasSent htype hqos hsent
    obtain ⟨htidy, heq⟩ := hc.publish htype hqos hun hstatus fun _ => hlate
    rw [if_pos hsent] at heq
    refine ⟨htidy, ?_⟩
    rw [heq, ← hid]
    exact storeEntered_appends hnew hqos
  · have htype : e.packet.toPacketVariant.type = .pubrel := by
      cases hpacket : e.packet <;> simp_all [StorePacket.toPacketVariant, PacketVariant.type]
    obtain ⟨htidy, heq⟩ := hc.pubrel rfl htype hun hused
    rw [if_pos hsent] at heq
    refine ⟨htidy, _, (congrArg Store.elems heq).trans (add_elems ?_), fun a ha => ?_⟩
    · exact fun a ha heq => hnew a ha (heq.trans (StorePacket.packetId_toPacketVariant _).symm)
    · exact ofPacket?_packetId ha

/-- After the inflight messages have been sent, the store has the packets from before, and besides
    them only such with the identifiers of the inflight messages. -/
theorem Tidy.sendAll (h : c.Tidy) {es : List (StorePacketVariant .two)} (hes : Resends es c) :
    (sendAll es c).1.Tidy ∧ (sendAll es c).2 = es ∧
      ∀ keep : Nat → Bool, (∀ e ∈ es, keep e.packetId = false) →
        (sendAll es c).1.store.elems.filter (fun e => keep e.packetId) =
          c.store.elems.filter fun e => keep e.packetId := by
  induction es generalizing c with
  | nil => exact ⟨h, rfl, fun _ _ => rfl⟩
  | cons e es ih =>
    obtain ⟨hok, hsent, hrest⟩ := hes
    obtain ⟨htidy, added, hadded, hids⟩ := h.resend hok hsent
    obtain ⟨hall, hsame, hfilter⟩ := ih htidy hrest
    refine ⟨hall, congrArg (e :: ·) hsame, fun keep hkeep => ?_⟩
    rw [InflightMessages.sendAll, hfilter keep fun a ha => hkeep a (List.mem_cons_of_mem e ha), hadded,
      List.filter_append]
    have hnone : added.filter (fun a => keep a.packetId) = [] :=
      List.filter_eq_nil_iff.mpr fun a ha => by
        rw [hids a ha, hkeep e List.mem_cons_self]
        exact nofun
    rw [hnone, List.append_nil]

end Connection

end AsyncMqtt
