import AsyncMqtt.Spec.Line
import AsyncMqtt.Spec.ReceivedCorrect
import AsyncMqtt.Spec.SendAtomic
import AsyncMqtt.Spec.TopicAliasRecency

/-!
# The uses of topic aliases

A topic alias is used by each PUBLISH that is sent with it: the first one registers it, with its
topic, and later ones are sent under it, without. The automatic mapping gives a new topic the
alias whose last use lies furthest back, as long as the table is written whenever an alias is
used. It is not written when the automatic mapping itself finds an alias by its topic.

## Key results

- `Connection.sendPublishV5_aliases`: what a PUBLISH does to the table
- `Connection.call_unused`: no other call uses an alias
- `Connection.aliasApplied_recent`: a PUBLISH that writes the table at each use keeps the order
-/

namespace AsyncMqtt

/-! ### Uses -/

/-- The topic alias with which the packet is sent. -/
def PacketVariant.usedAlias {pb : PacketIdBytes} : PacketVariant pb → Option Nat
  | .v5Publish p => Connection.getTopicAlias p.props
  | _ => none

/-- The topic aliases of the packets that are sent. -/
def usedAliases {pb : PacketIdBytes} (es : List (Event pb)) : List Nat :=
  (sends es).filterMap PacketVariant.usedAlias

/-- The aliases used by a longer list of events -/
@[simp] theorem usedAliases_append {pb : PacketIdBytes} (es es' : List (Event pb)) :
    usedAliases (es ++ es') = usedAliases es ++ usedAliases es' := by
  simp [usedAliases, List.filterMap_append]

/-- Packets without an alias use none. -/
theorem usedAliases_of_sends {pb : PacketIdBytes} {es : List (Event pb)}
    (h : ∀ pv ∈ sends es, pv.usedAlias = none) : usedAliases es = [] :=
  List.filterMap_eq_nil_iff.mpr h

/-- Only a PUBLISH uses an alias. -/
theorem usedAlias_of_type {pb : PacketIdBytes} {pv : PacketVariant pb} (h : pv.type ≠ .publish) :
    pv.usedAlias = none := by
  cases pv with
  | v5Publish p => exact absurd rfl h
  | _ => rfl

/-- Only the events of exchanges can use an alias. -/
theorem usedAliases_exchanges {pb : PacketIdBytes} (es : List (Event pb)) :
    usedAliases (exchanges es) = usedAliases es := by
  induction es with
  | nil => rfl
  | cons e es ih =>
    have hcons : ∀ es', usedAliases (e :: es') = usedAliases [e] ++ usedAliases es' :=
      fun es' => usedAliases_append [e] es'
    rw [exchanges_cons]
    split
    · rw [hcons (exchanges es), hcons es, ih]
    · next he =>
      rw [ih, hcons]
      have hnone : usedAliases [e] = [] := by
        cases e with
        | send pv release =>
          have htype : pv.type ≠ .publish := by
            intro htype
            simp [Event.isExchange, htype] at he
          simp [usedAliases, sends, usedAlias_of_type htype]
        | _ => rfl
      rw [hnone, List.nil_append]

namespace Connection

variable {role : Role} {pb : PacketIdBytes}

/-- The packets of the store are sent with their topics only. -/
def StoresTopics (c : Connection role pb) : Prop :=
  ∀ e ∈ c.store.elems, e.packet.toPacketVariant.usedAlias = none

/-- The stored packets use no alias. -/
theorem usedAliases_sendStored {c : Connection role pb} (h : c.StoresTopics) :
    usedAliases c.sendStored.events = [] := by
  apply usedAliases_of_sends
  rw [sends_sendStored]
  intro pv hpv
  obtain ⟨e, he, -, rfl⟩ := mem_storedFit.mp hpv
  exact h e he

/-! ### A PUBLISH -/

/-- A refusal leaves the table. -/
theorem failRelease_table (c : Connection role pb) (ec : ErrorCode) (packetId : Nat) :
    (Sent.failRelease c ec packetId).step.conn.topicAliasSend = c.topicAliasSend := by
  obtain ⟨m, hm, -⟩ := failRelease_conn c ec packetId
  rw [hm]

/-- A PUBLISH is sent or refused with the table as it is. -/
theorem finishPublish_table (c : Connection role pb) (pv : PacketVariant pb)
    (release : Option Nat) :
    (c.finishPublish pv release).step.conn.topicAliasSend = c.topicAliasSend ∧
      sends (c.finishPublish pv release).step.events =
        if c.status = .connected then [pv] else [] := by
  unfold finishPublish
  by_cases hstatus : c.status = .connected
  · simp only [hstatus, ne_eq, not_true_eq_false, if_false, if_true]
    exact ⟨rfl, rfl⟩
  · simp only [hstatus, ne_eq, not_false_eq_true, if_true, if_false]
    split
    · exact ⟨rfl, rfl⟩
    · exact ⟨failRelease_table _ _ _, (failRelease_line _ _ _).2⟩

/-- The check of the receive maximum leaves the table alone. -/
theorem sendReceiveMaximum_table (c : Connection role pb) (p : V5.PublishPacket pb)
    (release : Option Nat) :
    (c.sendReceiveMaximum p release).step.conn.topicAliasSend = c.topicAliasSend ∧
      sends (c.sendReceiveMaximum p release).step.events =
        if c.status = .connected ∧ ¬ (isQos12 p.opts ∧ c.sendMaximumReached) then [.v5Publish p]
        else [] := by
  by_cases hqos : isQos12 p.opts = true
  · rw [sendReceiveMaximum_eq hqos]
    by_cases hmax : c.sendMaximumReached = true
    · rw [if_pos hmax, if_neg fun h => h.2 ⟨hqos, hmax⟩]
      exact ⟨failRelease_table _ _ _, (failRelease_line _ _ _).2⟩
    · have h := finishPublish_table
        ({ c with publishSendCount := c.sentCount (.v5Publish p) } : Connection role pb)
        (.v5Publish p) release
      simpa only [hmax, and_false, not_false_eq_true, and_true, Bool.false_eq_true, if_false]
        using h
  · rw [sendReceiveMaximum, if_neg hqos]
    have h := c.finishPublish_table (.v5Publish p) release
    simpa only [hqos, Bool.false_eq_true, false_and, not_false_eq_true, and_true] using h

/-- A look-up that finds no topic writes nothing. -/
theorem touchedAliases_of_none {c : Connection role pb} (hvalid : c.AliasesValid)
    {taOpt : Option Nat} (h : (c.validateTopicAlias taOpt).1 = none) :
    c.touchedAliases taOpt = c.topicAliasSend := by
  unfold touchedAliases
  unfold validateTopicAlias at h ⊢
  split at h
  · next ta t htable =>
    split at h
    -- a registered alias has a topic, so none was found
    · next hrange =>
      rw [if_pos hrange]
      have hnil : (t.findTopic ta c.now).1 = [] := by
        by_contra hne
        simp [hne] at h
      rw [TopicAliasSend.findTopic_fst] at hnil
      show some (t.findTopic ta c.now).2 = _
      rw [htable]
      unfold TopicAliasSend.findTopic
      unfold TopicAliasSend.findWithoutTouch at hnil
      split
      · next hin =>
        rw [if_pos hin] at hnil
        split
        · rfl
        · next pre e post hsplit =>
          rw [hsplit] at hnil
          have hmem : e ∈ t.entries := by
            rw [(TopicAliasSend.split_eq_some hsplit).1]
            simp
          have hpair : (e.topicAlias, e.topic) ∈ TopicAliasSend.pairs t.entries :=
            List.mem_map.mpr ⟨e, hmem, rfl⟩
          exact absurd hnil ((hvalid t htable).range _ hpair).2
      · rfl
    · next hrange => rw [if_neg hrange]
  · rfl

/-- A rejected alias leaves the table. -/
theorem touchedAliases_of_rejected {c : Connection role pb} (hvalid : c.AliasesValid)
    {p : V5.PublishPacket pb} (h : c.aliasRejected p) :
    (if p.topic = [] then c.touchedAliases (getTopicAlias p.props) else c.topicAliasSend) =
      c.topicAliasSend := by
  split
  · next htopic =>
    unfold aliasRejected at h
    rw [if_pos htopic] at h
    exact touchedAliases_of_none hvalid (Option.isNone_iff_eq_none.mp h)
  · rfl

/-- What the `need_store_` branch does to the table if it stores nothing. -/
theorem storePublishV5_table {c : Connection role pb} (hvalid : c.AliasesValid)
    {p : V5.PublishPacket pb} {r : Sent role pb} (h : c.storePublishV5 p = .error r) :
    p.topic = [] ∧ (c.validateTopicAlias (getTopicAlias p.props)).1.isSome ∨
      r.step.conn.topicAliasSend = c.topicAliasSend ∧ sends r.step.events = [] := by
  unfold storePublishV5 at h
  split at h
  · next htopic =>
    have hconn := c.validateTopicAlias_conn (getTopicAlias p.props)
    rcases hval : c.validateTopicAlias (getTopicAlias p.props) with ⟨topic, c'⟩
    rw [hval] at h hconn
    cases topic with
    | some topic => exact .inl ⟨htopic, rfl⟩
    | none =>
      right
      obtain rfl := Except.error.inj h
      have htouched := touchedAliases_of_none hvalid (congrArg Prod.fst hval)
      dsimp only at hconn
      rw [failRelease_table, hconn]
      exact ⟨htouched, (failRelease_line _ _ _).2⟩
  · split at h
    · obtain rfl := Except.error.inj h
      exact .inr ⟨rfl, rfl⟩
    · exact nomatch h

/-- What a v5.0 PUBLISH does to the table of topic aliases. -/
inductive PublishAliases (c : Connection role pb) (p : V5.PublishPacket pb) (s : Step role pb) :
    Prop where
  | kept (htable : s.conn.topicAliasSend = c.topicAliasSend) (hsends : sends s.events = [])
  | sent (hstatus : c.status = .connected)
      (henters : isQos12 p.opts → c.publishEnters (.v5Publish p)) (hvalid : ¬ c.aliasRejected p)
      (htable : s.conn.topicAliasSend = (c.aliasApplied p).1)
      (hsends : sends s.events = [.v5Publish (c.aliasApplied p).2])
  /-- the receive maximum is used up -/
  | stopped (hstatus : c.status = .connected) (hqos : isQos12 p.opts)
      (henters : c.publishEnters (.v5Publish p)) (hvalid : ¬ c.aliasRejected p)
      (hmax : c.sendMaximumReached) (htable : s.conn.topicAliasSend = (c.aliasApplied p).1)
      (hsends : sends s.events = [])
  /-- the copy for the store is refused after its topic was looked up -/
  | refused (hstatus : c.status = .connected) (hqos : isQos12 p.opts)
      (hused : c.pidMan.isUsedId p.packetId) (hstores : c.storesPublish) (htopic : p.topic = [])
      (hfound : (c.validateTopicAlias (getTopicAlias p.props)).1.isSome)
      (hnone : c.storedPublishV5 p = none)

/-- The part after `// apply topic_alias`, in a state that has the table of `c`. -/
theorem publishAliases_of_applied {c c₁ : Connection role pb} {p : V5.PublishPacket pb}
    (halias : ¬ (c.status ≠ .connected ∧ (getTopicAlias p.props).isSome))
    (henters : isQos12 p.opts → c.publishEnters (.v5Publish p)) (hvalid : ¬ c.aliasRejected p)
    (hstatus : c₁.status = c.status) (hmax : c₁.sendMaximumReached = c.sendMaximumReached)
    (htable : c₁.topicAliasSend = (c.aliasApplied p).1) (release : Option Nat) :
    PublishAliases c p (c₁.sendReceiveMaximum (c.aliasApplied p).2 release).step := by
  obtain ⟨hkept, hsends⟩ := c₁.sendReceiveMaximum_table (c.aliasApplied p).2 release
  rw [htable] at hkept
  rw [hstatus, hmax, (c.aliasApplied_opts p).1] at hsends
  by_cases hconnected : c.status = .connected
  · by_cases hstop : isQos12 p.opts = true ∧ c.sendMaximumReached = true
    · rw [if_neg fun h => h.2 hstop] at hsends
      exact .stopped hconnected hstop.1 (henters hstop.1) hvalid hstop.2 hkept hsends
    · rw [if_pos ⟨hconnected, hstop⟩] at hsends
      exact .sent hconnected henters hvalid hkept hsends
  · rw [if_neg fun h => hconnected h.1] at hsends
    rw [aliasApplied_of_not_connected halias hconnected] at hkept
    exact .kept hkept hsends

/-- What a v5 PUBLISH does to the table, and with which alias it is sent -/
theorem sendPublishV5_aliases {c : Connection role pb} (hvalid : c.AliasesValid)
    (p : V5.PublishPacket pb) : PublishAliases c p (c.sendPublishV5 p).step := by
  -- a PUBLISH whose alias is refused sends nothing and touches at most the alias
  have hrejected : ∀ {c₁ : Connection role pb}, c.aliasRejected p = true →
      PublishAliases c p (Sent.failRelease
        { c₁ with
          topicAliasSend :=
            if p.topic = [] then c.touchedAliases (getTopicAlias p.props) else c.topicAliasSend }
        MqttError.packetNotAllowedToSend p.packetId).step := by
    intro c₁ hrej
    apply PublishAliases.kept
    · rw [failRelease_table]
      exact touchedAliases_of_rejected hvalid hrej
    · exact (failRelease_line _ _ _).2
  -- the cases are the checks of the source, in its order
  by_cases halias : c.status ≠ .connected ∧ (getTopicAlias p.props).isSome
  · rw [sendPublishV5, if_pos halias]
    exact .kept (failRelease_table _ _ _) (failRelease_line _ _ _).2
  by_cases hqos : isQos12 p.opts = true
  · by_cases henters : c.publishEnters (.v5Publish p) = true
    · rw [sendPublishV5_entered henters rfl]
      by_cases hrej : c.aliasRejected p = true
      · rw [if_pos hrej]
        exact hrejected hrej
      · rw [if_neg hrej, publishEntered_eq]
        apply publishAliases_of_applied halias (fun _ => henters) hrej <;> rfl
    · -- the packet is stopped before it enters the session
      rw [sendPublishV5, if_neg halias, if_pos hqos]
      by_cases hused : c.pidMan.isUsedId p.packetId
      · obtain ⟨hstores, hnone⟩ := storedPublishV5_none_of_not_enters henters halias hqos hused
        obtain ⟨r, hr, -⟩ := storePublishV5_none hnone
        rw [if_pos hused, if_pos hstores, hr]
        rcases storePublishV5_table hvalid hr with ⟨htopic, hfound⟩ | ⟨hkept, hsends⟩
        · have hsome : (getTopicAlias p.props).isSome := by
            cases hta : getTopicAlias p.props with
            | some ta => rfl
            | none => simp [hta, validateTopicAlias] at hfound
          have hstatus : c.status = .connected := by
            by_contra hstatus
            exact halias ⟨hstatus, hsome⟩
          exact .refused hstatus hqos hused hstores htopic hfound hnone
        · exact .kept hkept hsends
      · rw [if_neg hused]
        exact .kept rfl rfl
  · rw [sendPublishV5, if_neg halias, if_neg hqos, sendTopicAlias_eq]
    by_cases hrej : c.aliasRejected p = true
    · rw [if_pos hrej]
      exact hrejected hrej
    · rw [if_neg hrej]
      apply publishAliases_of_applied halias (fun h => absurd h hqos) hrej <;> rfl

/-! ### The other calls -/

/-- The table is absent, or it is a new one for aliases of two bytes. -/
def NewTable (tas : Option TopicAliasSend) : Prop :=
  ∀ t, tas = some t → t.max < 2 ^ 16 ∧ ∃ h, t = .make t.max h

/-- No table is a new one. -/
theorem newTable_none : NewTable none := nofun

/-- An empty table is a new one. -/
theorem newTable_make {max : Nat} (h : 1 ≤ max) (hmax : max < 2 ^ 16) :
    NewTable (some (.make max h)) := by
  rintro _ ⟨⟩
  exact ⟨hmax, h, rfl⟩

/-- The received packet makes a new table: it is a CONNECT, or a CONNACK that accepts the
    connection and announces a maximum. -/
def opensTable (c : Connection role pb) (is : List UInt8) : Bool :=
  match c.received is with
  | none => false
  | some pv =>
    pv.type = .connect && c.status = .disconnected ||
      c.acceptsConnack pv &&
        pv.view.props.any fun prop => prop.id = .topicAliasMaximum && prop.val ≠ 0

/-- A step that uses no alias: it keeps the table, or there is none or a new one after it. -/
inductive Unused (c : Connection role pb) (opens : Bool) (s : Step role pb) : Prop where
  | kept (hopens : opens = false) (htable : s.conn.topicAliasSend = c.topicAliasSend)
      (huses : usedAliases s.events = [])
  | none (htable : s.conn.topicAliasSend = none) (huses : usedAliases s.events = [])
  | new (hopens : opens = true) (htable : NewTable s.conn.topicAliasSend)
      (huses : usedAliases s.events = [])

/-- A quiet step leaves the table. -/
theorem Quiet.table {c c' : Connection role pb} (h : Quiet c c') :
    c'.topicAliasSend = c.topicAliasSend := by
  obtain ⟨_, _, _, _, _, -, rfl⟩ := h
  rfl

/-- A quiet step uses no alias. -/
theorem QuietStep.unused {c : Connection role pb} {s : Step role pb} (h : QuietStep c s) :
    Unused c false s := by
  refine .kept rfl h.1.table ?_
  rw [← usedAliases_exchanges, h.2]
  rfl

/-- A v3.1.1 PUBLISH leaves the table. -/
theorem sendPublishV311_table (c : Connection role pb) (p : V311.PublishPacket pb) :
    (c.sendPublishV311 p).step.conn.topicAliasSend = c.topicAliasSend := by
  unfold sendPublishV311
  split
  · split
    · dsimp only
      rw [(finishPublish_table _ _ _).1, waitAck_eq]
      split <;> rfl
    · rfl
  · exact (finishPublish_table _ _ _).1

/-- A packet that is no v5.0 PUBLISH is sent without an alias. -/
theorem send_unused {c : Connection role pb} {pv : PacketVariant pb}
    (hstore : pv.type = .connack → c.StoresTopics) (hpv : ∀ p, pv ≠ .v5Publish p) :
    Unused c false (c.send pv) := by
  have hexchanges : ∀ {s : Step role pb} {es : List (Event pb)}, exchanges s.events = es →
      usedAliases es = [] → usedAliases s.events = [] := by
    intro s es hes hnil
    rw [← usedAliases_exchanges, hes, hnil]
  have hnil : usedAliases ([] : List (Event pb)) = [] := rfl
  have hone : pv.type ≠ .publish → usedAliases [Event.send pv none] = [] := by
    intro htype
    simp [usedAliases, sends, usedAlias_of_type htype]
  cases send_cases pv c with
  | quiet h => exact h.unused
  | tooLarge _ _ _ _ hconn hevents =>
    exact .kept rfl (by rw [hconn]) (hexchanges hevents hnil)
  | connect _ htype _ _ hc₁ hconn hevents =>
    refine .none (by rw [hconn.table, hc₁]) (hexchanges hevents (hone ?_))
    rw [htype]
    rintro ⟨⟩
  | @connack _ htype _ _ _ _ _ _ _ _ c₁ _ hc₁ hconn hevents =>
    have hstore₁ : c₁.StoresTopics := by
      rw [hc₁]
      exact hstore htype
    refine .kept rfl ?_ (hexchanges hevents ?_)
    · rw [hconn.table, sendStored_conn, hc₁]
    · rw [usedAliases_exchanges]
      exact usedAliases_sendStored hstore₁
  | pubrecRefused _ _ hconn hevents => exact .kept rfl hconn.table (hexchanges hevents hnil)
  | pubrel _ htype _ _ _ hconn hevents =>
    refine .kept rfl hconn.table (hexchanges hevents (hone ?_))
    rw [htype]
    rintro ⟨⟩
  | subscribe _ _ hconn hevents => exact .kept rfl hconn.table (hexchanges hevents hnil)
  | unsubscribe _ _ hconn hevents => exact .kept rfl hconn.table (hexchanges hevents hnil)
  | publish hallowed htype h hconn hevents =>
    -- it is a v3.1.1 PUBLISH
    cases pv with
    | v5Publish p => exact absurd rfl (hpv p)
    | v311Publish p =>
      refine .kept rfl ?_ ?_
      · by_cases hsize : c.validateMaximumPacketSize (PacketVariant.v311Publish p).size
        · have hactual := (send_of_actual hallowed hsize (by rintro ⟨⟩)).1
          exact hactual.table.trans (c.sendPublishV311_table p)
        · rw [send_of_too_large hallowed hsize]
          exact failRelease_table _ _ _
      · apply usedAliases_of_sends
        intro pv' hpv'
        rcases (send_line_publish (c := c) htype).2 with hsends | ⟨-, -, hsends⟩
        · rw [hsends] at hpv'
          cases hpv'
        · rw [hsends] at hpv'
          obtain rfl := List.mem_singleton.mp hpv'
          rfl
    | _ => cases htype

/-- A maximum other than 0 makes a new table. -/
theorem emplaceTopicAliasSend_table (val : Nat) (c : Connection role pb) :
    (c.emplaceTopicAliasSend val).topicAliasSend =
      if h : 1 ≤ val then some (.make val h) else c.topicAliasSend := by
  unfold emplaceTopicAliasSend
  split <;> rfl

section

variable {props : Properties}
  (hprops : ∀ prop ∈ props, prop.id = .topicAliasMaximum → prop.val < 2 ^ 16)
include hprops

/-- The properties of a CONNECT leave a new table or make one. -/
theorem foldl_recvConnectProp_table {c : Connection role pb} (h : NewTable c.topicAliasSend) :
    NewTable (props.foldl recvConnectProp c).topicAliasSend := by
  induction props generalizing c with
  | nil => exact h
  | cons prop props ih =>
    apply ih fun p hp => hprops p (List.mem_cons_of_mem _ hp)
    have hprop := hprops prop List.mem_cons_self
    unfold recvConnectProp
    cases hid : prop.id with
    | topicAliasMaximum =>
      dsimp only
      rw [emplaceTopicAliasSend_table]
      split
      · exact newTable_make _ (hprop hid)
      · exact h
    | sessionExpiryInterval =>
      dsimp only
      split <;> exact h
    | _ => exact h

/-- The last maximum that is not 0 makes the table. -/
theorem recvConnackProps_table (c : Connection role pb) :
    if props.any fun prop => prop.id = .topicAliasMaximum && prop.val ≠ 0 then
      NewTable (recvConnackProps props c).conn.topicAliasSend
    else (recvConnackProps props c).conn.topicAliasSend = c.topicAliasSend := by
  induction props generalizing c with
  | nil => rfl
  | cons prop props ih =>
    have hprop := hprops prop List.mem_cons_self
    have hone : (recvConnackProp prop c).conn.topicAliasSend =
        if h : prop.id = .topicAliasMaximum ∧ 1 ≤ prop.val then some (.make prop.val h.2)
        else c.topicAliasSend := by
      unfold recvConnackProp setPingreqSendInterval
      -- only a Topic Alias Maximum other than 0 touches the table
      cases hid : prop.id with
      | topicAliasMaximum =>
        dsimp only
        rw [emplaceTopicAliasSend_table]
        split <;> simp_all
      | serverKeepAlive =>
        dsimp only
        split
        · split <;> rfl
        · rfl
      | _ => rfl
    have ih := ih (fun p hp => hprops p (List.mem_cons_of_mem _ hp)) (recvConnackProp prop c).conn
    show if _ then NewTable (recvConnackProps props (recvConnackProp prop c).conn).conn.topicAliasSend
      else (recvConnackProps props (recvConnackProp prop c).conn).conn.topicAliasSend = _
    rw [List.any_cons]
    -- a later maximum makes the table anew, whatever this one does
    by_cases hrest : (props.any fun prop => prop.id = .topicAliasMaximum && prop.val ≠ 0) = true
    · rw [if_pos hrest] at ih
      rw [if_pos (by rw [hrest, Bool.or_true])]
      exact ih
    · rw [if_neg hrest, hone] at ih
      rw [Bool.not_eq_true] at hrest
      rw [hrest, Bool.or_false, ih]
      by_cases hmax : prop.id = .topicAliasMaximum ∧ 1 ≤ prop.val
      · have hbool : (prop.id = .topicAliasMaximum && prop.val ≠ 0) = true := by
          simp only [hmax.1, decide_true, Bool.true_and, decide_eq_true_eq]
          omega
        rw [if_pos hbool, dif_pos hmax]
        exact newTable_make hmax.2 (hprop hmax.1)
      · have hbool : ¬ (prop.id = .topicAliasMaximum && prop.val ≠ 0) = true := by
          intro hbool
          simp only [Bool.and_eq_true, decide_eq_true_eq] at hbool
          exact hmax ⟨hbool.1, by omega⟩
        rw [if_neg hbool, dif_neg hmax]

end

/-- The calls before `on_receive` and the ones of `pingreq_recv_op` use no alias. -/
theorem usedAliases_receive (pv : PacketVariant pb) (c : Connection role pb) :
    usedAliases (c.receive pv).events = [] := by
  apply usedAliases_of_sends
  rw [sends_receive]
  exact nofun

/-- Resuming a session uses no alias. -/
theorem usedAliases_resumeSession {c : Connection role pb} (h : c.StoresTopics)
    (sessionPresent : Bool) : usedAliases (c.resumeSession sessionPresent).events = [] := by
  unfold resumeSession
  split
  · exact usedAliases_sendStored h
  · rfl

/-- Resuming a session leaves the table. -/
theorem resumeSession_table (c : Connection role pb) (sessionPresent : Bool) :
    (c.resumeSession sessionPresent).conn.topicAliasSend = c.topicAliasSend := by
  unfold resumeSession
  split
  · rw [sendStored_conn]
  · rfl

/-- A CONNECT makes a new table. -/
theorem recvConnect_table {c : Connection role pb} {pv : PacketVariant pb}
    (htype : pv.type = .connect) (hallowed : c.recvAllowed pv)
    (hprops : ∀ prop ∈ pv.view.props, prop.id = .topicAliasMaximum → prop.val < 2 ^ 16) :
    NewTable (c.processRecvDecoded pv).conn.topicAliasSend ∧
      usedAliases (c.processRecvDecoded pv).events = [] := by
  rw [processRecvDecoded, if_pos hallowed]
  cases pv with
  | v311Connect p =>
    refine ⟨?_, usedAliases_receive _ _⟩
    rw [processRecvActual, receive_conn, recvConnectV311]
    dsimp only
    rw [recvKeepAlive_eq]
    cases p.cleanSession <;> exact newTable_none
  | v5Connect p =>
    refine ⟨?_, usedAliases_receive _ _⟩
    rw [processRecvActual, receive_conn, recvConnectV5]
    dsimp only
    apply foldl_recvConnectProp_table hprops
    rw [recvKeepAlive_eq]
    cases p.cleanStart <;> exact newTable_none
  | _ => cases htype

/-- A CONNACK that accepts the connection makes a new table if it announces a maximum. -/
theorem recvConnack_table {c : Connection role pb} {pv : PacketVariant pb}
    (hstore : c.StoresTopics) (haccepts : c.acceptsConnack pv)
    (hprops : ∀ prop ∈ pv.view.props, prop.id = .topicAliasMaximum → prop.val < 2 ^ 16) :
    (if pv.view.props.any fun prop => prop.id = .topicAliasMaximum && prop.val ≠ 0 then
      NewTable (c.processRecvDecoded pv).conn.topicAliasSend
    else (c.processRecvDecoded pv).conn.topicAliasSend = c.topicAliasSend) ∧
      usedAliases (c.processRecvDecoded pv).events = [] := by
  obtain ⟨haccepts, hstatus⟩ := Bool.and_eq_true_iff.mp haccepts
  obtain ⟨htype, hcode⟩ := Bool.and_eq_true_iff.mp haccepts
  have hreceive : usedAliases [Event.receive pv] = [] := rfl
  -- a CONNACK of v3.1.1 has no properties, so it makes no table
  cases pv with
  | v311Connack p =>
    have hcode : p.code = 0 := of_decide_eq_true hcode
    have hstep : c.processRecvDecoded (.v311Connack p) =
        (resumeSession p.sessionPresent { c with status := .connected }).emit
          (.receive (.v311Connack p)) := by
      rw [processRecvDecoded, if_pos (by exact hstatus), processRecvActual, recvConnackV311,
        if_pos hcode]
    rw [hstep, Step.conn_emit, resumeSession_table, Step.events_emit, usedAliases_append,
      hreceive, usedAliases_resumeSession (by exact hstore)]
    exact ⟨rfl, rfl⟩
  | v5Connack p =>
    have hcode : p.code = ConnectReasonCode.success := of_decide_eq_true hcode
    have hstep : c.processRecvDecoded (.v5Connack p) =
        ((recvConnackProps p.props { c with status := .connected }).andThen
          (resumeSession p.sessionPresent)).emit (.receive (.v5Connack p)) := by
      rw [processRecvDecoded, if_pos (by exact hstatus), processRecvActual, recvConnackV5,
        if_pos hcode]
    rw [hstep, Step.conn_emit, Step.conn_andThen, resumeSession_table, Step.events_emit,
      usedAliases_append, hreceive, Step.events_andThen, usedAliases_append]
    -- the table is made, and filled by what is sent after it
    refine ⟨recvConnackProps_table hprops _, ?_⟩
    have hstored : (recvConnackProps p.props
        ({ c with status := .connected } : Connection role pb)).conn.StoresTopics := by
      obtain ⟨_, _, _, hconn, -⟩ :=
        recvConnackProps_conn p.props ({ c with status := .connected } : Connection role pb)
      rw [hconn]
      exact hstore
    rw [usedAliases_resumeSession hstored, usedAliases, sends_recvConnackProps]
    rfl
  | _ => cases htype

/-- A packet that makes no new table uses no alias either. -/
theorem recvOther_unused {c : Connection role pb} {pv : PacketVariant pb} {s : Step role pb}
    (h : RecvOutcome c pv s) (hconnect : ¬ (pv.type = .connect ∧ c.status = .disconnected))
    (hconnack : ¬ c.acceptsConnack pv) : Unused c false s := by
  have hexchanges : ∀ {es : List (Event pb)}, exchanges s.events = es →
      usedAliases es = [] → usedAliases s.events = [] := by
    intro es hes hnil
    rw [← usedAliases_exchanges, hes, hnil]
  have hnil : usedAliases ([] : List (Event pb)) = [] := rfl
  cases h with
  | quiet h => exact h.unused
  | connect htype hstatus => exact absurd ⟨htype, hstatus⟩ hconnect
  | connack haccepts hstatus => simp [acceptsConnack, haccepts, hstatus] at hconnack
  | publish _ hconn hevents =>
    refine .kept rfl hconn.table ?_
    rw [← usedAliases_exchanges]
    apply usedAliases_of_sends
    intro pv' hpv'
    obtain ⟨release, he⟩ := mem_sends.mp hpv'
    obtain ⟨_, heq, -⟩ := hevents _ he
    cases heq
  | publishDelivered _ _ _ hconn _ _ _ _ hevents =>
    exact .kept rfl hconn.table (hexchanges hevents rfl)
  | publishRejected _ _ _ _ _ _ hconn hevents =>
    exact .kept rfl hconn.table (hexchanges hevents hnil)
  | puback _ _ _ hconn hevents => exact .kept rfl (by rw [hconn]) (hexchanges hevents rfl)
  | pubrecFailed _ _ _ _ hconn hevents => exact .kept rfl (by rw [hconn]) (hexchanges hevents rfl)
  | @pubrec _ _ _ _ c₁ r hc₁ hr hconn hevents =>
    -- a PUBREL may answer it
    have htable : c₁.topicAliasSend = c.topicAliasSend := by rw [hc₁]
    have hpubrel : Unused c₁ false r := by
      rw [hr, respondIf]
      split
      · have htype := @pubrelOf_type pb pv.version pv.packetId
        apply send_unused
        · rw [htype]
          rintro ⟨⟩
        · intro p heq
          rw [heq] at htype
          cases htype
      · exact .kept rfl rfl rfl
    have huses : usedAliases s.events = usedAliases r.events := by
      rw [← usedAliases_exchanges, hevents, usedAliases_append, usedAliases_exchanges]
      exact List.append_nil _
    cases hpubrel with
    | kept _ hr huses' => exact .kept rfl (by rw [hconn, ← htable, ← hr]) (huses.trans huses')
    | none hr huses' => exact .none (by rw [hconn, ← hr]) (huses.trans huses')
    | new hopens => cases hopens
  | pubrel _ hconn hevents => exact .kept rfl hconn.table (hexchanges hevents hnil)
  | pubcomp _ _ _ hconn hevents => exact .kept rfl (by rw [hconn]) (hexchanges hevents rfl)
  | suback _ _ hconn hevents => exact .kept rfl (by rw [hconn]) (hexchanges hevents hnil)
  | unsuback _ _ hconn hevents => exact .kept rfl (by rw [hconn]) (hexchanges hevents hnil)

/-- Receiving uses no alias. -/
theorem recv_unused {c : Connection role pb} (hstore : c.StoresTopics) (is : List UInt8) :
    Unused c (c.opensTable is) (c.recv is).1 := by
  cases hreceived : c.received is with
  -- only a CONNECT and a CONNACK bring properties that make a new table
  | some pv =>
    have hprops : pv.type = .connect ∨ pv.type = .connack →
        ∀ prop ∈ pv.view.props, prop.id = .topicAliasMaximum → prop.val < 2 ^ 16 :=
      received_props (fun hprop hid => makePropertyOfId_val_lt hprop (.inr hid)) hreceived
    have hopens : c.opensTable is = (pv.type = .connect && c.status = .disconnected ||
        c.acceptsConnack pv &&
          pv.view.props.any fun prop => prop.id = .topicAliasMaximum && prop.val ≠ 0) := by
      rw [opensTable, hreceived]
    rw [recv_of_received hreceived]
    -- a new connection starts with the table that the CONNECT allows
    by_cases hconnect : pv.type = .connect ∧ c.status = .disconnected
    · have htrue : c.opensTable is = true := by simp [hopens, hconnect.1, hconnect.2]
      obtain ⟨htable, huses⟩ := @recvConnect_table role pb { c with rpb := (c.rpb.recv is).1 } pv
        hconnect.1 (by simp [recvAllowed, hconnect.1, hconnect.2]) (hprops (.inl hconnect.1))
      exact .new htrue htable huses
    · have hfirst : (decide (pv.type = .connect) && decide (c.status = .disconnected)) = false := by
        simpa using hconnect
      rw [hopens, hfirst, Bool.false_or]
      -- the client takes its table from the CONNACK
      by_cases hconnack : c.acceptsConnack pv = true
      · have htype : pv.type = .connack :=
          of_decide_eq_true (Bool.and_eq_true_iff.mp (Bool.and_eq_true_iff.mp hconnack).1).1
        obtain ⟨htable, huses⟩ := @recvConnack_table role pb
          { c with rpb := (c.rpb.recv is).1 } pv hstore hconnack (hprops (.inr htype))
        rw [hconnack, Bool.true_and]
        split at htable
        · next hmax => exact .new hmax htable huses
        · next hmax => exact .kept (by simpa using hmax) htable huses
      · rw [Bool.not_eq_true] at hconnack
        rw [hconnack, Bool.false_and]
        have hother := recvOther_unused (processRecvDecoded_cases pv
          ({ c with rpb := (c.rpb.recv is).1 } : Connection role pb)) hconnect
          (by simpa [acceptsConnack] using hconnack)
        cases hother with
        | kept _ htable huses => exact .kept rfl htable huses
        | none htable huses => exact .none htable huses
        | new hopens => cases hopens
  | none =>
    rw [opensTable, hreceived]
    rcases recv_cases is (c := c) rfl with h | ⟨pv, hpv, -⟩ | ⟨value, c₁, -, -, hc₁, hs⟩
    · cases h.unused with
      | kept _ htable huses => exact .kept rfl htable huses
      | none htable huses => exact .none htable huses
      | new hopens => cases hopens
    · rw [hreceived] at hpv
      cases hpv
    · -- a CONNACK that refuses a malformed CONNECT
      have hconnack := c.refusal_type value
      have hsent : Unused c₁ false (c₁.send (c.refusal value)) := by
        apply send_unused
        · intro _
          rw [hc₁]
          exact hstore
        · intro p heq
          rw [heq] at hconnack
          cases hconnack
      have htable : c₁.topicAliasSend = c.topicAliasSend := by rw [hc₁]
      have herror : usedAliases ([.error (.connect value)] : List (Event pb)) = [] := rfl
      rw [hs]
      cases hsent with
      | kept _ hkept huses =>
        refine .kept rfl (hkept.trans htable) ?_
        rw [Step.events_emit, usedAliases_append, huses, herror]
        rfl
      | none hnone huses =>
        refine .none hnone ?_
        rw [Step.events_emit, usedAliases_append, huses, herror]
        rfl
      | new hopens => cases hopens

/-- Only a call of `recv` makes a table. -/
def Op.opensTable (c : Connection role pb) : Op pb → Bool
  | .recv is => c.opensTable is
  | _ => false

/-- The call can send stored packets again. -/
def Op.resends : Op pb → Bool
  | .recv _ => true
  | .send pv => pv.type = .connack
  | _ => false

/-- The calls that do not send a v5.0 PUBLISH use no alias. -/
theorem call_unused {c : Connection role pb} {op : Op pb} (hop : ∀ p, op ≠ .send (.v5Publish p))
    (hstore : op.resends → c.StoresTopics) : Unused c (op.opensTable c) (c.call op) := by
  have hlocal : op.isLocal → usedAliases (c.call op).events = [] := by
    intro h
    rw [usedAliases, (call_line_local h c).2]
    rfl
  -- apart from sending and receiving, nothing uses an alias
  cases op with
  | recv is => exact recv_unused (hstore rfl) is
  | send pv =>
    apply send_unused
    · exact fun htype => hstore (decide_eq_true htype)
    · exact fun p heq => hop p (congrArg Op.send heq)
  | notifyTimerFired kind => exact (notifyTimerFired_quiet kind c).unused
  | notifyClosed =>
    apply Unused.none
    · rw [call, notifyClosed_conn]
    · rw [call, usedAliases, (notifyClosed_line c).2]
      rfl
  | restorePackets pvs =>
    obtain ⟨m, st, a, b, d, heq⟩ := c.restorePackets_eq pvs
    exact .kept rfl (by rw [call, heq]) rfl
  | releasePacketId packetId =>
    exact .kept rfl (by rw [call, releasePacketId_conn]) (hlocal rfl)
  | setPingreqSendInterval duration =>
    refine .kept rfl ?_ (hlocal rfl)
    rw [call, setPingreqSendInterval]
    split <;> rfl
  | _ => exact .kept rfl rfl (hlocal rfl)

/-! ### The condition -/

/-- The PUBLISH passes the checks that come before `// apply topic_alias`. -/
def reachesAliases (c : Connection role pb) (p : V5.PublishPacket pb) : Bool :=
  c.passesChecks (.v5Publish p) && c.status = .connected &&
    (! isQos12 p.opts || c.publishEnters (.v5Publish p))

/-- The PUBLISH looks up its alias, registers it, or gets an alias for a new topic. -/
def writesEntry (c : Connection role pb) (t : TopicAliasSend) (p : V5.PublishPacket pb) : Bool :=
  p.topic = [] || (getTopicAlias p.props).isSome ||
    c.autoMapTopicAliasSend && (t.findAlias p.topic).isNone

/-- The table is written exactly if an alias is used. -/
structure WritesUses (c : Connection role pb) (uses : List Nat) (t : TopicAliasSend)
    (p : V5.PublishPacket pb) : Prop where
  /-- only the alias that was used last is found automatically by its topic -/
  found : p.topic ≠ [] → getTopicAlias p.props = none →
    c.autoMapTopicAliasSend ∨ c.autoReplaceTopicAliasSend →
    ∀ ta, t.findAlias p.topic = some ta → uses.getLast? = some ta
  /-- no topic is registered that has another alias -/
  registered : p.topic ≠ [] → ∀ ta, getTopicAlias p.props = some ta →
    ∀ ta', t.findAlias p.topic = some ta' → ta' = ta
  /-- no PUBLISH is stopped by the receive maximum after the table was written -/
  sent : isQos12 p.opts → c.writesEntry t p → ¬ c.sendMaximumReached

/-- The copy of a PUBLISH without a topic is refused by the store after its alias was looked up. -/
def copyRefused (c : Connection role pb) (p : V5.PublishPacket pb) : Bool :=
  c.passesChecks (.v5Publish p) && c.status = .connected && isQos12 p.opts &&
    c.pidMan.isUsedId p.packetId && c.storesPublish && p.topic = [] &&
    (c.validateTopicAlias (getTopicAlias p.props)).1.isSome && (c.storedPublishV5 p).isNone

/-- The call writes the table exactly if it uses an alias; `uses` are the uses before it. -/
def KeepsOrder (c : Connection role pb) (uses : List Nat) : Op pb → Prop
  | .send (.v5Publish p) =>
    (c.reachesAliases p → ∀ t, c.topicAliasSend = some t → WritesUses c uses t p) ∧
      ¬ c.copyRefused p
  | op => op.resends → c.StoresTopics

/-! ### The table after a PUBLISH -/

/-- The alias that is added is the one that is found. -/
theorem getTopicAlias_concat {props : Properties} (h : getTopicAlias props = none) {ta : Nat}
    (hta : ta < 2 ^ 16) : getTopicAlias (props ++ [.topicAlias ta]) = some ta := by
  have hnone : props.find? (·.id = .topicAlias) = none := by
    simpa [getTopicAlias, Properties.find] using h
  have hval : (Property.topicAlias ta).val = ta := by
    show endianLoad 2 (endianStore 2 ta) = ta
    exact endianLoad_endianStore hta
  simp only [getTopicAlias, Properties.find, List.find?_append, hnone, Option.none_or]
  show some (Property.topicAlias ta).val = some ta
  rw [hval]

variable {c : Connection role pb} {p : V5.PublishPacket pb} {t : TopicAliasSend} {uses : List Nat}
  {clock : Nat}

/-- Without a table no alias is applied. -/
theorem aliasApplied_of_no_table (h : c.topicAliasSend = none) (hvalid : ¬ c.aliasRejected p) :
    c.aliasApplied p = (none, p) := by
  unfold aliasRejected at hvalid
  unfold aliasApplied
  by_cases htopic : p.topic = []
  · rw [if_pos htopic] at hvalid
    simp [validateTopicAlias, h] at hvalid
  · rw [if_neg htopic] at hvalid ⊢
    cases hta : getTopicAlias p.props with
    | some ta => simp [hta, validateTopicAliasRange, h] at hvalid
    | none => simp [autoTopicAlias, h]

/-- A PUBLISH that writes no entry leaves the table as it is. -/
theorem aliasApplied_of_not_writes (h : c.topicAliasSend = some t) (hw : ¬ c.writesEntry t p) :
    (c.aliasApplied p).1 = some t := by
  simp only [writesEntry, Bool.or_eq_true, decide_eq_true_eq, Bool.and_eq_true, not_or, not_and,
    Bool.not_eq_true, Option.isSome_eq_false_iff, Option.isNone_iff_eq_none] at hw
  obtain ⟨⟨htopic, hta⟩, hauto⟩ := hw
  unfold aliasApplied
  rw [if_neg htopic, hta]
  dsimp only
  split
  · rw [autoTopicAlias_aliases, h, Option.map_some, if_neg]
    intro hnew
    simpa [hnew.2] using hauto hnew.1
  · exact h

/-- No other alias stands for the topic. -/
theorem others_of_findAlias (hr : t.Recent uses clock) {topic : Buffer} {ta : Nat}
    (h : ∀ ta', t.findAlias topic = some ta' → ta' = ta) : ∀ e ∈ t.others ta, e.topic ≠ topic := by
  intro e he htopic
  obtain ⟨hmem, hne⟩ := TopicAliasSend.mem_others.mp he
  have hpair : (e.topicAlias, topic) ∈ TopicAliasSend.pairs t.entries :=
    List.mem_map.mpr ⟨e, hmem, by rw [htopic]⟩
  cases hfind : t.findAlias topic with
  | none => exact TopicAliasSend.findAlias_eq_none.mp hfind _ hpair
  | some ta' =>
    obtain rfl := h ta' hfind
    obtain ⟨hfound, htopic'⟩ := TopicAliasSend.find_of_findAlias hr.valid hfind
    have hpair' := (TopicAliasSend.find_eq_iff hr.valid htopic').mp hfound
    exact hr.topic_of_others hpair' e he htopic

/-- The table after a PUBLISH that is sent: the alias it is sent with is the one used last. -/
theorem aliasApplied_recent (ht : c.topicAliasSend = some t) (hr : t.Recent uses clock)
    (hmax : t.max < 2 ^ 16) (hclock : clock < c.now) (hstatus : c.status = .connected)
    (hvalid : ¬ c.aliasRejected p) (hw : WritesUses c uses t p) :
    ∃ t', (c.aliasApplied p).1 = some t' ∧ t'.max < 2 ^ 16 ∧
      t'.Recent (uses ++ (getTopicAlias (c.aliasApplied p).2.props).toList) c.now := by
  have hkept : t.Recent (uses ++ []) c.now := by
    rw [List.append_nil]
    exact hr.later (Nat.le_of_lt hclock)
  unfold aliasRejected at hvalid
  unfold aliasApplied
  by_cases htopic : p.topic = []
  · -- the alias is looked up
    rw [if_pos htopic] at hvalid ⊢
    cases hta : getTopicAlias p.props with
    | none => simp [hta, validateTopicAlias] at hvalid
    | some ta =>
      rw [hta] at hvalid
      simp only [validateTopicAlias, ht, touchedAliases] at hvalid ⊢
      split at hvalid
      · next hrange =>
        rw [if_pos hrange]
        have hfind : t.findWithoutTouch ta ≠ [] := by
          rw [← TopicAliasSend.findTopic_fst t ta c.now]
          intro hnil
          simp [hnil] at hvalid
        have hmax' := (t.pairs_findTopic ta c.now).2.1
        exact ⟨_, rfl, by rw [hmax']; exact hmax, hr.findTopic hclock hfind⟩
      · simp at hvalid
  · rw [if_neg htopic] at hvalid ⊢
    cases hta : getTopicAlias p.props with
    | some ta =>
      -- the alias is registered
      have hrange := (validateTopicAliasRange_iff ht ta).mp (by simpa [hta] using hvalid)
      have hother := others_of_findAlias hr (hw.registered htopic ta hta)
      have hmax' := (t.insertOrUpdate_max p.topic ta c.now).1
      refine ⟨t.insertOrUpdate p.topic ta c.now, ?_, by rw [hmax']; exact hmax, ?_⟩
      · show c.topicAliasSend.map _ = _
        rw [ht]
        rfl
      · rw [hta]
        exact hr.insertOrUpdate hclock hrange htopic hother
    | none =>
      dsimp only
      rw [if_pos hstatus]
      unfold autoTopicAlias
      rw [ht]
      dsimp only
      have hfound : ∀ ta, c.autoMapTopicAliasSend ∨ c.autoReplaceTopicAliasSend →
          t.findAlias p.topic = some ta → t.Recent (uses ++
            (getTopicAlias (p.removeTopicAddTopicAlias ta).props).toList) c.now := by
        intro ta hauto hfind
        have hlast := hw.found htopic hta hauto ta hfind
        obtain ⟨hmeans, hne⟩ := TopicAliasSend.find_of_findAlias hr.valid hfind
        have hpair := (TopicAliasSend.find_eq_iff hr.valid hne).mp hmeans
        have hrange := (hr.valid.range _ hpair).1
        have halias : getTopicAlias (p.props ++ [.topicAlias ta]) = some ta :=
          getTopicAlias_concat hta (by omega)
        show t.Recent (uses ++ (getTopicAlias (p.props ++ [.topicAlias ta])).toList) c.now
        rw [halias]
        exact (hr.last hlast).later (Nat.le_of_lt hclock)
      by_cases hauto : c.autoMapTopicAliasSend = true
      · rw [if_pos hauto]
        cases hfind : t.findAlias p.topic with
        | some ta => exact ⟨t, ht, hmax, hfound ta (.inl hauto) hfind⟩
        | none =>
          -- the topic is new
          have hrange := TopicAliasSend.getLruAlias_range hr.valid
          have hother : ∀ e ∈ t.others t.getLruAlias, e.topic ≠ p.topic :=
            others_of_findAlias hr (by rw [hfind]; rintro _ ⟨⟩)
          have hmax' := (t.insertOrUpdate_max p.topic t.getLruAlias c.now).1
          have halias : getTopicAlias (p.props ++ [.topicAlias t.getLruAlias]) =
              some t.getLruAlias := getTopicAlias_concat hta (by omega)
          refine ⟨_, rfl, by rw [hmax']; exact hmax, ?_⟩
          show TopicAliasSend.Recent _ (uses ++
            (getTopicAlias (p.props ++ [.topicAlias t.getLruAlias])).toList) _
          rw [halias]
          exact hr.insertOrUpdate hclock hrange htopic hother
      · rw [if_neg hauto]
        by_cases hreplace : c.autoReplaceTopicAliasSend = true
        · rw [if_pos hreplace]
          cases hfind : t.findAlias p.topic with
          | some ta => exact ⟨t, ht, hmax, hfound ta (.inr hreplace) hfind⟩
          | none => exact ⟨t, ht, hmax, by rw [hta]; exact hkept⟩
        · rw [if_neg hreplace]
          exact ⟨t, ht, hmax, by rw [hta]; exact hkept⟩

end Connection

end AsyncMqtt
