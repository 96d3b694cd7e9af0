import AsyncMqtt.Spec.Line
import AsyncMqtt.Spec.StoreSteps

/-!
# Resuming a session

The packets in the store belong to a session. They are sent again when a CONNACK says that
the session is present: the server sends them after that CONNACK, the client when it has
received it. Those above the maximum packet size of the peer leave the store, and their
identifiers are given back.

`send` does so after every CONNACK, and a clean CONNECT that is received does not clear the
store. `Connection.KeepsSession` leaves these calls out if there are stored packets.

## Key results

- `Connection.call_appends`: the store is in the order in which packets were stored
- `Connection.call_resumed`: what a call sends when it resumes the session
- `Connection.call_own`: what the other calls send
- `Connection.session_resumed`: both in every run, and the packets of an ended session are gone
- `Connection.ended_session_sent`: a run in which they are not
-/

namespace AsyncMqtt

/-- The packet identifiers that the owner is told to be free, in order. -/
def releases {pb : PacketIdBytes} (es : List (Event pb)) : List Nat :=
  es.filterMap fun e =>
    match e with
    | .packetIdRelease packetId => some packetId
    | _ => none

/-- No events release nothing. -/
@[simp] theorem releases_nil {pb : PacketIdBytes} : releases ([] : List (Event pb)) = [] := rfl

/-- What a longer list of events releases -/
@[simp] theorem releases_append {pb : PacketIdBytes} (es fs : List (Event pb)) :
    releases (es ++ fs) = releases es ++ releases fs := List.filterMap_append ..

/-! ### The order in the store -/

/-- Packets leave a store, and new ones come at its end. -/
def Store.Appends {pb : PacketIdBytes} (s s' : Store pb) : Prop :=
  ∃ kept new, s'.elems = kept ++ new ∧ kept.Sublist s.elems ∧ ∀ e ∈ new, e ∉ s.elems

namespace Store

variable {pb : PacketIdBytes} {s s' : Store pb}

/-- Entries are left out. -/
theorem appends_of_sublist (h : s'.elems.Sublist s.elems) : Appends s s' :=
  ⟨s'.elems, [], (List.append_nil _).symm, h, nofun⟩

/-- The store is the same. -/
theorem appends_refl (s : Store pb) : Appends s s := appends_of_sublist (List.Sublist.refl _)

/-- Some entries are left. -/
theorem appends_filter (s : Store pb) (keep : StorePacketVariant pb → Bool) :
    Appends s (s.filter keep) := appends_of_sublist List.filter_sublist

/-- A packet that is added stands at the end, unless its key is taken. -/
theorem add_elems (s : Store pb) (p : StorePacket pb) :
    (s.add p).elems = s.elems ∨
      ∃ e, StorePacketVariant.ofPacket? p = some e ∧ (s.add p).elems = s.elems ++ [e] ∧
        ¬ s.Waits e.responsePacketType e.packetId := by
  unfold add
  split
  · next e he =>
    unfold emplaceBack
    split
    · exact .inl rfl
    · next hwaits => exact .inr ⟨e, he, rfl, hwaits⟩
  · exact .inl rfl

/-- An entry is added behind the others, if it was not there before. -/
theorem Appends.add (h : Appends s s') {p : StorePacket pb}
    (hnew : ∀ e, StorePacketVariant.ofPacket? p = some e → e ∈ s.elems → e ∈ s'.elems) :
    Appends s (s'.add p) := by
  rcases s'.add_elems p with heq | ⟨e, he, heq, hwaits⟩
  · rw [Appends, heq]
    exact h
  · obtain ⟨kept, new, helems, hkept, hnot⟩ := h
    refine ⟨kept, new ++ [e], ?_, hkept, ?_⟩
    · rw [heq, helems, List.append_assoc]
    · intro a ha
      rcases List.mem_append.mp ha with hold | hlast
      · exact hnot a hold
      · obtain rfl := List.mem_singleton.mp hlast
        exact fun hmem => hwaits ⟨a, hnew a he hmem, rfl, rfl⟩

/-- An entry is added. -/
theorem appends_add (s : Store pb) (p : StorePacket pb) : Appends s (s.add p) :=
  (appends_refl s).add fun _ _ hmem => hmem

/-- What is in the store is what was in it and what has come, in this order. -/
theorem Appends.sublist (h : Appends s s') :
    s'.elems.Sublist (s.elems ++ s'.elems.filter (· ∉ s.elems)) := by
  obtain ⟨kept, new, helems, hkept, hnew⟩ := h
  have hold : kept.filter (· ∉ s.elems) = [] := by
    apply List.filter_eq_nil_iff.mpr
    intro e he
    simpa using hkept.subset he
  have hall : new.filter (· ∉ s.elems) = new := by
    apply List.filter_eq_self.mpr
    intro e he
    simpa using hnew e he
  rw [helems, List.filter_append, hold, hall, List.nil_append]
  exact hkept.append (List.Sublist.refl new)

end Store

namespace Connection

variable {role : Role} {pb : PacketIdBytes} {c c' : Connection role pb}

/-! ### Storing -/

/-- A PUBLISH that is sent may be stored. -/
theorem publishEntered_appends (c : Connection role pb) (pv : PacketVariant pb) :
    Store.Appends c.store (c.publishEntered pv).store := by
  have hstore : (c.publishEntered pv).store = c.storeEntered pv := by
    rw [publishEntered_eq]
  rw [hstore]
  unfold storeEntered
  split
  · split
    · exact Store.appends_add _ _
    · exact Store.appends_refl _
  · split
    · split
      · exact Store.appends_add _ _
      · exact Store.appends_refl _
    · exact Store.appends_refl _
  · exact Store.appends_refl _

/-- Sending a packet leaves the order of the store. -/
theorem send_appends (pv : PacketVariant pb) (c : Connection role pb) :
    Store.Appends c.store (c.send pv).conn.store := by
  -- only a PUBREL and a PUBLISH add to the store
  cases send_cases pv c with
  | quiet hq =>
    rw [hq.1.store]
    exact Store.appends_refl _
  | tooLarge hallowed hsize hown hid hconn hevents =>
    rw [hconn]
    exact Store.appends_refl _
  | connect hallowed htype hstatus clean hc₁ hconn hevents =>
    rw [hconn.store, hc₁]
    cases clean with
    | true => exact Store.appends_of_sublist (List.nil_sublist _)
    | false => exact Store.appends_refl _
  | connack hallowed htype hstatus hst hc₁ hconn hevents =>
    rw [hconn.store, sendStored_conn, hc₁]
    exact Store.appends_filter _ _
  | pubrecRefused hpv hcode hconn hevents =>
    rw [hconn.store]
    exact Store.appends_refl _
  | pubrel hallowed htype hstatus p hp hconn hevents =>
    rw [hconn.store]
    dsimp only
    split
    · exact Store.appends_add _ _
    · exact Store.appends_refl _
  | subscribe hallowed htype hconn hevents | unsubscribe hallowed htype hconn hevents =>
    rw [hconn.store]
    exact Store.appends_refl _
  | publish hallowed htype hr hconn hevents =>
    rw [hconn.store]
    cases hr with
    | stopped henters hstopped =>
      obtain ⟨tas, m, heq, -⟩ := hstopped.conn
      rw [heq]
      exact Store.appends_refl _
    | plain hqos pv' htype' hid hopts hok heq hev =>
      rw [heq]
      exact Store.appends_refl _
    | @failed hlate ec c₁ hc₁ heq =>
      obtain ⟨m, hm, -⟩ := failRelease_conn c₁ ec pv.packetId
      rw [heq, hm, hc₁]
      exact c.publishEntered_appends pv
    | entered henters hlate pv' htype' hid hopts hok heq hev =>
      rw [heq]
      exact c.publishEntered_appends pv

/-- A PUBREL that is sent may be stored. -/
theorem send_pubrel_store {pv : PacketVariant pb} (htype : pv.type = .pubrel)
    (c : Connection role pb) :
    (c.send pv).conn.store = c.store ∨
      ∃ p : StorePacket pb, p.toPacketVariant = pv ∧ (c.send pv).conn.store = c.store.add p := by
  cases send_cases pv c with
  | quiet hq => exact .inl hq.1.store
  | tooLarge hallowed hsize hown hid hconn hevents =>
    left
    rw [hconn]
  | connect hallowed htype' hstatus clean hc₁ hconn hevents
  | connack hallowed htype' hstatus hst hc₁ hconn hevents
  | publish hallowed htype' hr hconn hevents => exact nomatch htype.symm.trans htype'
  | pubrecRefused hpv hcode hconn hevents => exact .inl hconn.store
  | pubrel hallowed htype hstatus p hp hconn hevents =>
    have hstore := hconn.store
    dsimp only at hstore
    split at hstore
    · exact .inr ⟨p, hp, hstore⟩
    · exact .inl hstore
  | subscribe hallowed htype hconn hevents | unsubscribe hallowed htype hconn hevents =>
    exact .inl hconn.store

/-- A stored PUBREL does not wait for a PUBREC. -/
theorem pubrel_response {p : StorePacket pb} {e : StorePacketVariant pb}
    (he : StorePacketVariant.ofPacket? p = some e) (htype : p.toPacketVariant.type = .pubrel)
    (pv : PacketVariant pb) : e.responsePacketType ≠ ackResponse .v5Pubrec .v311Pubrec pv := by
  have hresponse : e.responsePacketType = .v311Pubcomp ∨ e.responsePacketType = .v5Pubcomp := by
    cases p with
    | v311Publish p | v5Publish p => exact nomatch htype
    | v311Pubrel p =>
      obtain rfl := Option.some.inj he
      exact .inl rfl
    | v5Pubrel p =>
      obtain rfl := Option.some.inj he
      exact .inr rfl
  unfold ackResponse
  split <;> rcases hresponse with h | h <;> rw [h] <;> exact nofun

/-- After PUBREC the stored PUBLISH is replaced by the PUBREL that answers. -/
theorem pubrec_appends {pv : PacketVariant pb} {c₁ : Connection role pb}
    (hc₁ : c₁.store = c.store.erase (ackResponse .v5Pubrec .v311Pubrec pv) pv.packetId)
    (cond : Bool) (ver : ProtocolVersion) (packetId : Nat) :
    Store.Appends c.store (c₁.respondIf cond (pubrelOf ver pb packetId)).conn.store := by
  have herase : Store.Appends c.store c₁.store := by
    rw [hc₁]
    exact Store.appends_filter _ _
  unfold respondIf
  split
  · rcases send_pubrel_store (pubrelOf_type ver packetId) c₁ with heq | ⟨p, hp, heq⟩
    · rw [heq]
      exact herase
    · rw [heq]
      refine herase.add fun e he hmem => ?_
      rw [hc₁]
      refine Store.mem_erase.mpr ⟨hmem, fun h => ?_⟩
      exact pubrel_response he (by rw [hp, pubrelOf_type]) pv h.1
  · exact herase

/-- Receiving a packet leaves the order of the store. -/
theorem RecvOutcome.appends {pv : PacketVariant pb} {s : Step role pb} (h : RecvOutcome c pv s) :
    Store.Appends c.store s.conn.store := by
  cases h with
  | quiet hq =>
    rw [hq.1.store]
    exact Store.appends_refl _
  -- a CONNECT is not answered yet, and a CONNACK resends the store or drops it
  | connect htype hstatus clean htas hconn hevents hclean =>
    rw [hconn]
    exact Store.appends_refl _
  | @connack haccepts hstatus _ _ _ c₁ htas hc₁ hconn hevents =>
    rw [hconn]
    unfold resumeSession
    split
    · rw [sendStored_conn, hc₁]
      exact Store.appends_filter _ _
    · exact Store.appends_of_sublist (List.nil_sublist _)
  | publish htype hconn hevents | publishDelivered htype hqos hnew hconn _ _ _ _ hevents
  | publishRejected hpv hstatus hqos hmax hnew halias hconn hevents
  | pubrel htype hconn hevents =>
    rw [hconn.store]
    exact Store.appends_refl _
  -- an acknowledgement only removes
  | puback htype hstatus hmem hconn hevents | pubrecFailed hpv hcode hstatus hmem hconn hevents
  | pubcomp htype hstatus hmem hconn hevents =>
    rw [hconn]
    exact Store.appends_filter _ _
  -- a PUBREC puts a PUBREL in the place of the PUBLISH
  | @pubrec htype hcode hstatus hmem c₁ r hc₁ hr hconn hevents =>
    rw [hconn, hr]
    exact pubrec_appends (by rw [hc₁]) _ _ _
  | suback htype hmem hconn hevents | unsuback htype hmem hconn hevents =>
    rw [hconn]
    exact Store.appends_refl _

/-- Receiving bytes leaves the order of the store. -/
theorem recv_appends (is : List UInt8) (c : Connection role pb) :
    Store.Appends c.store (c.recv is).1.conn.store := by
  rcases recv_cases is (c := c) rfl with hq | ⟨pv, hpv, hout⟩ | ⟨value, c₁, -, -, hc₁, hs⟩
  · rw [hq.1.store]
    exact Store.appends_refl _
  · exact hout.appends
  · have hstore : c₁.store = c.store := by
      rw [hc₁]
    rw [hs, Step.conn_emit, ← hstore]
    exact send_appends _ c₁

/-- A restored packet is added or not. -/
theorem restorePacket_elems (pv : StorePacketVariant pb) (c : Connection role pb) :
    (c.restorePacket pv).store = c.store ∨ (c.restorePacket pv).store = c.store.add pv.packet := by
  have hstore : ∀ {c₁ : Connection role pb}, c₁.store = c.store →
      (c₁.restoreStore pv.packet).store = c.store ∨
        (c₁.restoreStore pv.packet).store = c.store.add pv.packet := by
    intro c₁ hc₁
    unfold restoreStore
    dsimp only
    split
    · exact .inr (congrArg (Store.add · pv.packet) hc₁)
    · exact .inl hc₁
  have hpublish : ∀ (qos : UInt8) (packetId : Nat),
      (c.restorePublish qos packetId).store = c.store := by
    intro qos packetId
    obtain ⟨a, b, heq⟩ := c.restorePublish_eq qos packetId
    rw [heq]
  unfold restorePacket
  split
  · exact hstore (hpublish _ _)
  · exact hstore (hpublish _ _)
  · exact hstore rfl
  · exact hstore rfl

/-- Restoring packets leaves the order of the store. -/
theorem restorePackets_appends (pvs : List (StorePacketVariant pb)) (c : Connection role pb) :
    Store.Appends c.store (c.restorePackets pvs).store := by
  -- nothing leaves the store, so that what has come so far is still new
  have hrestore : ∀ {s : Store pb} {c : Connection role pb}, Store.Appends s c.store →
      (∀ e ∈ s.elems, e ∈ c.store.elems) → Store.Appends s (c.restorePackets pvs).store := by
    intro s
    induction pvs with
    | nil => exact fun h _ => h
    | cons pv pvs ih =>
      intro c h hmem
      rw [restorePackets]
      rcases c.restorePacket_elems pv with heq | heq
      · exact ih (heq ▸ h) (heq ▸ hmem)
      · refine ih (heq ▸ h.add fun e _ he => hmem e he) fun e he => ?_
        rw [heq]
        rcases c.store.add_elems pv.packet with helems | ⟨e', -, helems, -⟩
        · exact helems ▸ hmem e he
        · rw [helems]
          exact List.mem_append_left _ (hmem e he)
  exact hrestore (Store.appends_refl _) fun _ he => he

/-- Every call leaves the store in the order in which packets were stored. -/
theorem call_appends (op : Op pb) (c : Connection role pb) :
    Store.Appends c.store (c.next op).store := by
  cases op with
  | send pv => exact send_appends pv c
  | recv is => exact recv_appends is c
  | notifyTimerFired kind =>
    have hstore := (notifyTimerFired_quiet kind c).1.store
    unfold next call
    rw [hstore]
    exact Store.appends_refl _
  | notifyClosed =>
    unfold next call
    rw [notifyClosed_conn]
    exact Store.appends_refl _
  | restorePackets pvs => exact restorePackets_appends pvs c
  | releasePacketId packetId =>
    unfold next call
    rw [releasePacketId_conn]
    exact Store.appends_refl _
  | setPingreqSendInterval duration =>
    show Store.Appends c.store (c.setPingreqSendInterval duration).conn.store
    unfold setPingreqSendInterval
    split <;> exact Store.appends_refl _
  | _ => exact Store.appends_refl _

/-! ### Sending the stored packets -/

/-- The stored packets above a limit. -/
def storedAbove (c : Connection role pb) (limit : Nat) : List (StorePacketVariant pb) :=
  c.store.elems.filter (limit < ·.size)

/-- A step sends `own`, and then the stored packets up to a limit, each of them once. Those
    above the limit are given up. -/
structure Resumed (c : Connection role pb) (limit : Nat) (own : List (PacketVariant pb))
    (s : Step role pb) : Prop where
  sent : sends s.events = own ++ c.storedFit limit
  once : (c.storedFit limit).Nodup
  kept : s.conn.store.elems = c.store.elems.filter (·.size ≤ limit)
  released : releases s.events = (c.storedAbove limit).map (·.packetId)
  freed : s.conn.pidMan =
    (c.storedAbove limit).foldl (fun m e => m.releaseId e.packetId) c.pidMan

/-- A stored packet is known by its packet. -/
theorem toPacketVariant_injective {p q : StorePacket pb}
    (h : p.toPacketVariant = q.toPacketVariant) : p = q := by
  cases p <;> cases q <;> cases h <;> rfl

/-- No stored packet is sent twice. -/
theorem storedFit_nodup (limit : Nat) (c : Connection role pb) : (c.storedFit limit).Nodup := by
  unfold storedFit
  refine List.pairwise_map.mpr ((c.store.unique.filter _).imp fun {e e'} hne heq => hne ?_)
  obtain ⟨packet, res, hres⟩ := e
  obtain ⟨packet', res', hres'⟩ := e'
  obtain rfl : packet = packet' := toPacketVariant_injective heq
  exact ⟨Option.some.inj (hres.symm.trans hres'), rfl⟩

/-- The stored packets that are too large are released in their order. -/
theorem releases_sendStoredElems (pvs : List (StorePacketVariant pb)) (c : Connection role pb) :
    releases (sendStoredElems pvs c).events =
      (pvs.filter (c.maximumPacketSizeSend < ·.size)).map (·.packetId) := by
  induction pvs generalizing c with
  | nil => rfl
  | cons pv pvs ih =>
    rw [sendStoredElems, Step.events_andThen, releases_append, ih, List.filter_cons]
    split
    · next hlarge =>
      rw [if_pos (decide_eq_true hlarge)]
      rfl
    · next hlarge =>
      rw [if_neg (by simpa using hlarge)]
      rfl

/-- Sending the store again is a resumption, with nothing in front. -/
theorem sendStored_resumed (c : Connection role pb) :
    Resumed c c.maximumPacketSizeSend [] c.sendStored where
  sent := c.sends_sendStored
  once := c.storedFit_nodup _
  kept := by
    rw [sendStored_conn]
    rfl
  released := by
    rw [sendStored, Step.events_andThen, releases_append, releases_sendStoredElems]
    exact List.append_nil _
  freed := by
    have hone : ∀ (m : PacketIdManager pb) (e : StorePacketVariant pb),
        releaseTooLarge c.maximumPacketSizeSend m e =
          if decide (c.maximumPacketSizeSend < e.size) = true then m.releaseId e.packetId else m := by
      intro m e
      simp only [releaseTooLarge, decide_eq_true_eq]
    rw [sendStored_conn, storedAbove, List.foldl_filter]
    exact congrArg (fun f => c.store.elems.foldl f c.pidMan) (funext fun m => funext (hone m))

/-- What comes before and after the stored packets. -/
theorem Resumed.between {c₁ : Connection role pb} {limit : Nat} {s s₁ : Step role pb}
    (h : Resumed c₁ limit [] s₁) (hstore : c₁.store = c.store) (hpidMan : c₁.pidMan = c.pidMan)
    {es fs : List (Event pb)} {own : List (PacketVariant pb)} (hsends : sends es = own)
    (hes : releases es = []) (hfsends : sends fs = []) (hfs : releases fs = [])
    (hs : s.events = es ++ s₁.events ++ fs) (hconn : s.conn.store = s₁.conn.store)
    (hids : s.conn.pidMan = s₁.conn.pidMan) : Resumed c limit own s := by
  have hfit : c₁.storedFit limit = c.storedFit limit := by
    unfold storedFit
    rw [hstore]
  have habove : c₁.storedAbove limit = c.storedAbove limit := by
    unfold storedAbove
    rw [hstore]
  constructor
  · rw [hs, sends_append, sends_append, hsends, h.sent, hfsends, hfit, List.append_nil]
    rfl
  · exact c.storedFit_nodup limit
  · rw [hconn, h.kept, hstore]
  · rw [hs, releases_append, releases_append, hes, h.released, hfs, habove, List.append_nil]
    rfl
  · rw [hids, h.freed, habove, hpidMan]

/-- Cancelling timers releases nothing. -/
theorem releases_cancelTimers (c : Connection role pb) : releases c.cancelTimers.events = [] := by
  simp only [cancelTimers, cancelTimer, Step.events_andThen, Step.conn_andThen, releases_append]
  split <;> split <;> split <;> rfl

/-- Setting the timer for the PINGREQ releases nothing. -/
theorem releases_resetPingreqSend (c : Connection role pb) :
    releases c.resetPingreqSend.events = [] := by
  unfold resetPingreqSend
  split
  · split <;> rfl
  · rfl

/-- The properties of a CONNACK release nothing. -/
theorem releases_recvConnackProps (props : Properties) (c : Connection role pb) :
    releases (recvConnackProps props c).events = [] := by
  induction props generalizing c with
  | nil => rfl
  | cons prop props ih =>
    have hone : releases (recvConnackProp prop c).events = [] := by
      unfold recvConnackProp setPingreqSendInterval
      split <;> (try split) <;> (try split) <;> rfl
    rw [recvConnackProps, Step.events_andThen, releases_append, hone, ih]
    rfl

/-- A CONNACK that is sent does not touch the store itself. -/
theorem sendConnack_frame {pv : PacketVariant pb} (h : pv.type = .connack)
    (c : Connection role pb) :
    (c.processSendActual pv).step.conn.pidMan = c.pidMan ∧
      releases (c.processSendActual pv).step.events = [] := by
  cases pv with
  | v311Connack p =>
    obtain ⟨a, b, d, hconn, -⟩ := c.sendConnackV311_eq p
    constructor
    · simp only [processSendActual, Step.conn_emit, hconn]
    · simp only [processSendActual, Step.events_emit, releases_append]
      unfold sendConnackV311
      split
      · rfl
      · rw [releases_cancelTimers]
        rfl
  | v5Connack p =>
    obtain ⟨tar, prm, mps, a, b, d, hconn, -⟩ := c.sendConnackV5_eq p
    constructor
    · simp only [processSendActual, Step.conn_emit, hconn]
    · simp only [processSendActual, Step.events_emit, releases_append]
      unfold sendConnackV5
      split
      · rfl
      · rw [releases_cancelTimers]
        rfl
  | _ => cases h

/-- A CONNACK that is sent is followed by the stored packets. -/
theorem sendConnack_resumed {pv : PacketVariant pb} (htype : pv.type = .connack)
    (h : c.passesChecks pv) : Resumed c c.maximumPacketSizeSend [pv] (c.send pv) := by
  obtain ⟨hallowed, hsize⟩ := Bool.and_eq_true_iff.mp h
  have hne : pv.type ≠ .publish := by
    rw [htype]
    exact nofun
  obtain ⟨hline, hsends, hok⟩ := c.processSendActual_line hne
  obtain ⟨hpidMan, hreleases⟩ := sendConnack_frame htype c
  have hlimit : (c.processSendActual pv).step.conn.maximumPacketSizeSend =
      c.maximumPacketSizeSend := by
    have hmax := congrArg Line.maximumPacketSizeSend hline
    unfold Line.afterSend at hmax
    rw [htype] at hmax
    dsimp only at hmax
    split at hmax <;> exact hmax
  have hstored := sendStored_resumed (c.processSendActual pv).step.conn
  rw [hlimit] at hstored
  rw [send_of_allowed hallowed hsize, if_pos hok, if_pos htype]
  refine hstored.between (sendConnack_store htype) hpidMan hsends hreleases
    (sends_resetPingreqSend _) (releases_resetPingreqSend _) rfl ?_ ?_
  · rw [Step.conn_andThen, resetPingreqSend_conn]
    rfl
  · rw [Step.conn_andThen, resetPingreqSend_conn]
    rfl

/-- A CONNACK that accepts the connection ends with resuming the session or clearing it. -/
theorem recvConnack_eq {is : List UInt8} {pv : PacketVariant pb} (hpv : c.received is = some pv)
    (haccepts : c.acceptsConnack pv) :
    ∃ (c₁ : Connection role pb) (es : List (Event pb)), c₁.store = c.store ∧
      c₁.pidMan = c.pidMan ∧
      c₁.maximumPacketSizeSend = pv.maximumPacketSize c.maximumPacketSizeSend ∧
      sends es = [] ∧ releases es = [] ∧
      (c.recv is).1.conn = (c₁.resumeSession pv.view.sessionPresent).conn ∧
      (c.recv is).1.events =
        es ++ (c₁.resumeSession pv.view.sessionPresent).events ++ [.receive pv] := by
  rw [acceptsConnack, PacketVariant.acceptsConnection, Bool.and_eq_true, Bool.and_eq_true] at haccepts
  simp only [decide_eq_true_eq] at haccepts
  obtain ⟨⟨htype, hcode⟩, hstatus⟩ := haccepts
  generalize hc₀ : ({ c with rpb := (c.rpb.recv is).1 } : Connection role pb) = c₀
  have hallowed : c₀.recvAllowed pv := by
    rw [← hc₀, recvAllowed, htype]
    exact decide_eq_true hstatus
  rw [recv_of_received hpv, hc₀, processRecvDecoded, if_pos hallowed]
  generalize hc₁ : ({ c₀ with status := .connected } : Connection role pb) = c₁
  have hfields : c₁.store = c.store ∧ c₁.pidMan = c.pidMan ∧
      c₁.maximumPacketSizeSend = c.maximumPacketSizeSend := by
    rw [← hc₁, ← hc₀]
    exact ⟨rfl, rfl, rfl⟩
  obtain ⟨hstore, hids, hmax⟩ := hfields
  -- a v5 CONNACK may set limits before the session is resumed
  cases pv with
  | v311Connack p =>
    have hcode : p.code = 0 := hcode
    refine ⟨c₁, [], hstore, hids, hmax, rfl, rfl, ?_, ?_⟩ <;>
    · simp only [processRecvActual, recvConnackV311, if_pos hcode, hc₁]
      rfl
  | v5Connack p =>
    have hcode : p.code = ConnectReasonCode.success := hcode
    obtain ⟨tas, int, set, hprops, -⟩ := recvConnackProps_conn p.props c₁
    refine ⟨(recvConnackProps p.props c₁).conn, (recvConnackProps p.props c₁).events, ?_, ?_, ?_,
      sends_recvConnackProps p.props c₁, releases_recvConnackProps p.props c₁, ?_, ?_⟩
    · rw [hprops]
      exact hstore
    · rw [hprops]
      exact hids
    · rw [hprops, hmax]
      rfl
    · simp only [processRecvActual, recvConnackV5, if_pos hcode, hc₁]
      rfl
    · simp only [processRecvActual, recvConnackV5, if_pos hcode, hc₁]
      rfl
  | _ => cases htype

/-- A CONNACK that says that the session is present is followed by the stored packets when it
    is received. -/
theorem recvConnack_resumed {is : List UInt8} {pv : PacketVariant pb}
    (hpv : c.received is = some pv) (haccepts : c.acceptsConnack pv)
    (hpresent : pv.view.sessionPresent) :
    Resumed c (pv.maximumPacketSize c.maximumPacketSizeSend) [] (c.recv is).1 := by
  obtain ⟨c₁, es, hstore, hids, hmax, hsends, hreleases, hconn, hevents⟩ :=
    recvConnack_eq hpv haccepts
  have hresume : c₁.resumeSession pv.view.sessionPresent = c₁.sendStored := if_pos hpresent
  have hstored := sendStored_resumed c₁
  rw [hmax] at hstored
  rw [hresume] at hconn hevents
  apply hstored.between hstore hids hsends hreleases _ _ hevents
  · rw [hconn]
  · rw [hconn]
  · rfl
  · rfl

/-! ### Sessions -/

/-- The limit with which a call resumes the session: a CONNACK that accepts the connection
    and says that the session is present is sent or received. -/
def resumes (c : Connection role pb) : Op pb → Option Nat
  | .send pv =>
    if pv.acceptsConnection ∧ pv.view.sessionPresent ∧ c.passesChecks pv then
      some c.maximumPacketSizeSend
    else none
  | .recv is =>
    match c.received is with
    | some pv =>
      if c.acceptsConnack pv ∧ pv.view.sessionPresent then
        some (pv.maximumPacketSize c.maximumPacketSizeSend)
      else none
    | none => none
  | _ => none

/-- The session ends: a clean CONNECT, a CONNACK that accepts the connection without a
    session, or the end of a network connection whose session is not kept. -/
def endsSession (c : Connection role pb) : Op pb → Bool
  | .send pv =>
    c.passesChecks pv &&
      (pv.type = .connect && pv.view.cleanStart || pv.acceptsConnection && ! pv.view.sessionPresent)
  | .recv is =>
    match c.received is with
    | some pv =>
      pv.type = .connect && c.status = .disconnected && pv.view.cleanStart ||
        c.acceptsConnack pv && ! pv.view.sessionPresent
    | none => false
  | .notifyClosed => ! c.needStore
  | _ => false

/-- A call that keeps the session apart from others: a CONNACK that is sent and does not resume
    the session finds no stored packet to send, and a session that ends without the store
    being cleared has no stored packets. -/
def KeepsSession (c : Connection role pb) : Op pb → Prop
  | .send pv => pv.type = .connack → c.passesChecks pv →
      ¬ (pv.acceptsConnection ∧ pv.view.sessionPresent) →
      c.storedFit c.maximumPacketSizeSend = []
  | .recv is =>
    (∀ pv, c.received is = some pv → pv.type = .connect → c.status = .disconnected →
      pv.view.cleanStart → c.store.elems = []) ∧
    (∀ value, c.refusedConnect is = some value →
      ({ c with status := .connecting } : Connection role pb).passesChecks (c.refusal value) →
      c.storedFit c.maximumPacketSizeSend = [])
  | .notifyClosed => ¬ c.needStore → c.store.elems = []
  | _ => True

/-- What a call sends by itself: the packet that it is given, or an answer. -/
def SendsOwn (c : Connection role pb) (op : Op pb) (pv : PacketVariant pb) : Prop :=
  match op with
  | .send pv' => pv = c.aliased pv'
  | .recv is => pv.isAnswer ∨ ∃ value, c.refusedConnect is = some value ∧ pv = c.refusal value
  | .notifyTimerFired _ => pv.isAnswer
  | _ => False

/-- The packet that goes before the stored packets. -/
def before : Op pb → List (PacketVariant pb)
  | .send pv => [pv]
  | _ => []

/-- A call that resumes the session sends the stored packets. -/
theorem call_resumed {op : Op pb} {limit : Nat} (h : c.resumes op = some limit) :
    Resumed c limit (before op) (c.call op) := by
  cases op with
  | send pv =>
    unfold resumes at h
    dsimp only at h
    split at h
    · next hresumes =>
      obtain ⟨haccepts, -, hpass⟩ := hresumes
      obtain rfl := Option.some.inj h
      have htype : pv.type = .connack := by
        rw [PacketVariant.acceptsConnection, Bool.and_eq_true, decide_eq_true_eq] at haccepts
        exact haccepts.1
      exact sendConnack_resumed htype hpass
    · cases h
  | recv is =>
    unfold resumes at h
    dsimp only at h
    split at h
    · next pv hpv =>
      split at h
      · next hresumes =>
        obtain rfl := Option.some.inj h
        exact recvConnack_resumed hpv hresumes.1 hresumes.2
      · cases h
    · cases h
  | _ => cases h

/-- Only a PUBLISH has an alias. -/
theorem aliased_of_not_publish {pv : PacketVariant pb} (h : pv.type ≠ .publish) :
    c.aliased pv = pv := by
  cases pv with
  | v5Publish p => exact absurd rfl h
  | _ => rfl

/-- A packet that is sent without resuming a session. -/
theorem send_own {pv : PacketVariant pb}
    (h : pv.type = .connack → c.passesChecks pv → c.storedFit c.maximumPacketSizeSend = []) :
    sends (c.send pv).events = [] ∨ sends (c.send pv).events = [c.aliased pv] := by
  by_cases htype : pv.type = .publish
  · rcases (send_line_publish htype (c := c)).2 with hsends | ⟨-, -, hsends⟩
    · exact .inl hsends
    · exact .inr hsends
  · by_cases hpass : c.passesChecks pv = true
    · right
      rw [(send_line htype hpass).2, aliased_of_not_publish htype]
      split
      · next hconnack => rw [h hconnack hpass]
      · rfl
    · exact .inl (send_line_refused hpass).2

/-- An answer without the store is one packet at most. -/
theorem Answer.own {l : Line} {s : Step role pb} (h : Answer l [] s) :
    sends s.events = [] ∨ ∃ pv, sends s.events = [pv] ∧ pv.isAnswer := by
  cases h with
  | silent hline hsends => exact .inl hsends
  | sent c₁ r hc₁ hr hline hsends =>
    have htype : r.type ≠ .connack ∧ r.type ≠ .publish := by
      constructor <;>
      · intro htype
        rw [PacketVariant.isAnswer, htype] at hr
        exact nomatch hr
    have hown : sends (c₁.send r).events = [] ∨ sends (c₁.send r).events = [c₁.aliased r] :=
      send_own fun hconnack => absurd hconnack htype.1
    rw [hsends]
    rcases hown with hs | hs
    · exact .inl hs
    · rw [aliased_of_not_publish htype.2] at hs
      exact .inr ⟨r, hs, hr⟩

/-- A call that does not resume the session sends no stored packets. -/
theorem call_own {op : Op pb} (hok : c.KeepsSession op) (h : c.resumes op = none) :
    sends (c.call op).events = [] ∨
      ∃ pv, sends (c.call op).events = [pv] ∧ c.SendsOwn op pv := by
  have hlocal : op.isLocal → sends (c.call op).events = [] ∨
      ∃ pv, sends (c.call op).events = [pv] ∧ c.SendsOwn op pv :=
    fun hop => .inl (call_line_local hop c).2
  cases op with
  | send pv =>
    have hsends : sends (c.send pv).events = [] ∨ sends (c.send pv).events = [c.aliased pv] := by
      apply send_own
      intro htype hpass
      refine hok htype hpass fun hresumes => ?_
      rw [resumes, if_pos ⟨hresumes.1, hresumes.2, hpass⟩] at h
      exact nomatch h
    rcases hsends with hsends | hsends
    · exact .inl hsends
    · exact .inr ⟨_, hsends, rfl⟩
  | recv is =>
    rcases recv_line is c with hanswer | ⟨value, c₁, hrefused, hc₁, hrecv⟩
    -- what is received does not resume the session, so it asks for nothing to be sent again
    · have hresumed : c.recvResumed is = [] := by
        unfold recvResumed resumed
        unfold resumes at h
        dsimp only at h
        split
        · next pv hpv =>
          rw [hpv] at h
          dsimp only at h
          split
          · next hresumes =>
            rw [if_pos hresumes] at h
            exact nomatch h
          · rfl
        · rfl
      rw [hresumed] at hanswer
      rcases hanswer.own with hsends | ⟨pv, hsends, hpv⟩
      · exact .inl hsends
      · exact .inr ⟨pv, hsends, .inl hpv⟩
    -- a CONNACK that refuses a malformed CONNECT is the packet of the call
    · have htype : (c.refusal value).type ≠ .publish := by
        rw [refusal_type]
        exact nofun
      have hsends : sends (c.recv is).1.events = sends (c₁.send (c.refusal value)).events := by
        rw [hrecv, Step.events_emit, sends_append]
        exact List.append_nil _
      have hown : sends (c₁.send (c.refusal value)).events = [] ∨
          sends (c₁.send (c.refusal value)).events = [c₁.aliased (c.refusal value)] := by
        apply send_own
        intro _ hpass
        subst hc₁
        exact hok.2 value hrefused hpass
      rw [aliased_of_not_publish htype, ← hsends] at hown
      rcases hown with hown | hown
      · exact .inl hown
      · exact .inr ⟨_, hown, .inr ⟨value, hrefused, rfl⟩⟩
  | notifyTimerFired kind =>
    rcases (notifyTimerFired_line kind c).own with hsends | ⟨pv, hsends, hpv⟩
    · exact .inl hsends
    · exact .inr ⟨pv, hsends, hpv⟩
  | notifyClosed => exact .inl (notifyClosed_line c).2
  | _ => exact hlocal rfl

/-! ### The end of a session -/

/-- A clean CONNECT that is sent clears the store. -/
theorem sendConnect_clean {pv : PacketVariant pb} (htype : pv.type = .connect)
    (hclean : pv.view.cleanStart) (h : c.passesChecks pv) :
    (c.send pv).conn.store.elems = [] := by
  obtain ⟨hallowed, hsize⟩ := Bool.and_eq_true_iff.mp h
  have hne : pv.type ≠ .connack := by
    rw [htype]
    rintro ⟨⟩
  rw [(send_of_actual hallowed hsize hne).1.store]
  cases pv with
  | v311Connect p =>
    obtain ⟨ns, int, hconn⟩ := c.sendConnectV311_eq p
    have hclean : p.cleanSession = true := hclean
    simp only [processSendActual, Sent.send, hconn, hclean, if_true]
    rfl
  | v5Connect p =>
    obtain ⟨tar, prm, mps, ns, int, hconn⟩ := c.sendConnectV5_eq p
    have hclean : p.cleanStart = true := hclean
    simp only [processSendActual, Sent.send, hconn, hclean, if_true]
    rfl
  | _ => cases htype

/-- A CONNECT that is received leaves the store as it is. -/
theorem recvConnect_store {is : List UInt8} {pv : PacketVariant pb}
    (hpv : c.received is = some pv) (htype : pv.type = .connect) :
    (c.recv is).1.conn.store = c.store := by
  rcases recv_cases is (c := c) rfl with hq | ⟨pv', hpv', hout⟩ | ⟨value, c₁, hrefused, -⟩
  · exact hq.1.store
  · obtain rfl := Option.some.inj (hpv.symm.trans hpv')
    cases hout with
    | quiet hq => exact hq.1.store
    | connect htype hstatus clean htas hconn hevents hclean => rw [hconn]
    | connack haccepts =>
      simp [PacketVariant.acceptsConnection, htype] at haccepts
    | publishRejected hpv | pubrecFailed hpv =>
      rw [hpv] at htype
      cases htype
    | publish htype' | publishDelivered htype' | puback htype' | pubrec htype' | pubrel htype'
    | pubcomp htype' | suback htype' | unsuback htype' => cases htype.symm.trans htype'
  · cases hpv.symm.trans (received_of_refused hrefused)

/-- After the end of a session there are no stored packets. -/
theorem endsSession_store {op : Op pb} (hok : c.KeepsSession op) (h : c.endsSession op) :
    (c.next op).store.elems = [] := by
  cases op with
  | send pv =>
    simp only [endsSession, Bool.and_eq_true, Bool.or_eq_true, decide_eq_true_eq,
      Bool.not_eq_true'] at h
    rcases h with ⟨hpass, ⟨htype, hclean⟩ | ⟨haccepts, hpresent⟩⟩
    · exact sendConnect_clean htype hclean hpass
    -- of the packets sent only a CONNECT and a CONNACK end a session
    · have htype : pv.type = .connack := by
        rw [PacketVariant.acceptsConnection, Bool.and_eq_true, decide_eq_true_eq] at haccepts
        exact haccepts.1
      have hnone : c.storedFit c.maximumPacketSizeSend = [] := by
        refine hok htype hpass fun hresumes => ?_
        rw [hpresent] at hresumes
        cases hresumes.2
      have hkept := (sendConnack_resumed htype hpass).kept
      rw [storedFit, List.map_eq_nil_iff] at hnone
      exact hkept.trans hnone
  | recv is =>
    simp only [endsSession] at h
    -- a CONNECT or a CONNACK is received, and what it drops is the store
    split at h
    · next pv hpv =>
      simp only [Bool.and_eq_true, Bool.or_eq_true, decide_eq_true_eq, Bool.not_eq_true'] at h
      rcases h with ⟨⟨htype, hstatus⟩, hclean⟩ | ⟨haccepts, hpresent⟩
      · unfold next call
        rw [recvConnect_store hpv htype]
        exact hok.1 pv hpv htype hstatus hclean
      · obtain ⟨c₁, es, -, -, -, -, -, hconn, -⟩ := recvConnack_eq hpv haccepts
        unfold next call
        rw [hconn, hpresent]
        rfl
    · cases h
  | notifyClosed =>
    have hneed : ¬ c.needStore := by simpa [endsSession] using h
    unfold next call
    rw [notifyClosed_conn]
    exact hok hneed
  | _ => cases h

/-! ### Runs -/

/-- A connection with the packets that were stored in its session, in order. -/
structure Session (role : Role) (pb : PacketIdBytes) where
  conn : Connection role pb
  stored : List (StorePacketVariant pb)

namespace Session

/-- A new connection without history -/
def make (role : Role) (pb : PacketIdBytes) (ver : ProtocolVersion) : Session role pb :=
  ⟨Connection.make role pb ver, []⟩

/-- A call begins with nothing stored, or goes on with what it stores. -/
def next (s : Session role pb) (op : Op pb) : Session role pb where
  conn := s.conn.next op
  stored :=
    if s.conn.endsSession op then []
    else s.stored ++ (s.conn.next op).store.elems.filter (· ∉ s.conn.store.elems)

end Session

/-- In every run that keeps sessions apart, the store holds packets of the present session in
    the order in which they were stored. A call sends them exactly if it resumes the session;
    any other call sends at most one packet of its own. -/
theorem session_resumed (ver : ProtocolVersion) (ops : List (Op pb))
    (hok : Run.All Session.next (fun s op => s.conn.KeepsSession op) (Session.make role pb ver) ops) :
    let s := Run.final Session.next (Session.make role pb ver) ops
    s.conn.store.elems.Sublist s.stored ∧
    ∀ op, s.conn.KeepsSession op →
      (∀ limit, s.conn.resumes op = some limit →
        Resumed s.conn limit (before op) (s.conn.call op)) ∧
      (s.conn.resumes op = none → sends (s.conn.call op).events = [] ∨
        ∃ pv, sends (s.conn.call op).events = [pv] ∧ s.conn.SendsOwn op pv) := by
  intro s
  constructor
  · refine Run.final_invariant
      (Q := fun s : Session role pb => s.conn.store.elems.Sublist s.stored) ?_
      (List.Sublist.refl _) hok
    rintro ⟨c, stored⟩ op hop hsublist
    unfold Session.next
    dsimp only at hop hsublist ⊢
    split
    · next hends =>
      rw [endsSession_store hop hends]
    · exact (call_appends op c).sublist.trans (hsublist.append (List.Sublist.refl _))
  · intro op hop
    exact ⟨fun limit hresumes => call_resumed hresumes, fun hresumes => call_own hop hresumes⟩

/-- Without stored packets every call keeps the session. -/
theorem keepsSession_of_empty (h : c.store.elems = []) (op : Op pb) : c.KeepsSession op := by
  have hfit : c.storedFit c.maximumPacketSizeSend = [] := by
    rw [storedFit, h]
    rfl
  cases op with
  | send pv => exact fun _ _ _ => hfit
  | recv is => exact ⟨fun _ _ _ _ _ => h, fun _ _ _ => hfit⟩
  | notifyClosed => exact fun _ => h
  | _ => trivial

/-- Bytes keep the session unless they hold a CONNECT that clears it. -/
theorem keepsSession_recv {is : List UInt8}
    (hclean : (c.received is).all (fun pv => ! pv.view.cleanStart))
    (hrefused : c.refusedConnect is = none) : c.KeepsSession (.recv is) := by
  refine ⟨fun pv hpv _ _ hstart => ?_, fun value hvalue => ?_⟩
  · rw [hpv] at hclean
    simp [hstart] at hclean
  · rw [hrefused] at hvalue
    exact nomatch hvalue

/-- A server sends a stored PUBLISH again when the client comes back. -/
theorem session_resumed_publish :
    ∃ p, V311.publishPacket .two 1 [0x61] [[0x62]] 2 = .ok p ∧
      let connect : List UInt8 := [0x10, 0x0D, 0, 4, 0x4D, 0x51, 0x54, 0x54, 4, 0, 0, 10, 0, 1, 0x63]
      let connack : PacketVariant .two := .v311Connack (V311.connackPacket true 0)
      let ops : List (Op .two) :=
        [.recv connect, .send (.v311Connack (V311.connackPacket false 0)), .acquireUniquePacketId,
          .send (.v311Publish p), .notifyClosed, .recv connect]
      let s := Run.final Session.next (Session.make .server .two .v311) ops
      Resumed s.conn packetSizeNoLimit [connack] (s.conn.call (.send connack)) ∧
      s.conn.storedFit packetSizeNoLimit = [.v311Publish p.setDup] := by
  refine ⟨_, rfl, ?_⟩
  intro connect connack ops s
  have hok : Run.All Session.next (fun s op => s.conn.KeepsSession op)
      (Session.make .server .two .v311) ops := by
    simp only [ops, Run.all_cons, Run.all_nil, and_true]
    refine ⟨keepsSession_of_empty ?_ _, keepsSession_of_empty ?_ _, keepsSession_of_empty ?_ _,
      keepsSession_of_empty ?_ _, fun hneed => absurd ?_ hneed, keepsSession_recv ?_ ?_⟩ <;> decide
  have hresumes : s.conn.resumes (.send connack) = some packetSizeNoLimit := by decide
  have hkeeps : s.conn.KeepsSession (.send connack) := fun _ _ hnot => absurd (by decide) hnot
  obtain ⟨-, hcalls⟩ := session_resumed .v311 ops hok
  refine ⟨(hcalls (.send connack) hkeeps).1 packetSizeNoLimit hresumes, ?_⟩
  decide

/-- The client comes back with a clean session. The PUBLISH that is stored for the old one is
    sent though the CONNACK says that there is no session. -/
theorem ended_session_sent :
    ∃ p, V311.publishPacket .two 1 [0x61] [[0x62]] 2 = .ok p ∧
      let connack : PacketVariant .two := .v311Connack (V311.connackPacket false 0)
      let s := Run.final Session.next (Session.make .server .two .v311)
        [.recv [0x10, 0x0D, 0, 4, 0x4D, 0x51, 0x54, 0x54, 4, 0, 0, 10, 0, 1, 0x63], .send connack,
          .acquireUniquePacketId, .send (.v311Publish p), .notifyClosed,
          .recv [0x10, 0x0D, 0, 4, 0x4D, 0x51, 0x54, 0x54, 4, 2, 0, 10, 0, 1, 0x63]]
      s.stored = [] ∧ s.conn.resumes (.send connack) = none ∧
      sends (s.conn.call (.send connack)).events = [connack, .v311Publish p.setDup] := by
  refine ⟨_, rfl, ?_⟩
  decide

end Connection

end AsyncMqtt
