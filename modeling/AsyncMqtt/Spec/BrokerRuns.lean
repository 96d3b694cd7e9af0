import AsyncMqtt.Spec.ResponseRules
import AsyncMqtt.Spec.SubscriptionBooks
import AsyncMqtt.Spec.SubscriptionPairs

/-!
# Runs of the broker

Any calls of the broker, one after the other. The three places in which it has its subscriptions agree
with the books after every call. So they refer to sessions that there are, and a session that ends
takes with it all that refers to it.

## Key results

- `Broker.Agrees.perform`: what one call does
- `Broker.Runs.agrees`: what any run keeps
- `Broker.sessions_end`: no subscription outlives its session
-/

namespace AsyncMqtt

open scoped ByteOrder

namespace Subscriptions

/-- `do_publish` changes the order of the shared targets and their time points only. -/
theorem perm_publishSubs (source topic : Buffer) (clock : Nat → Nat) (s : Subscriptions) :
    ((s.publishSubs source topic clock).sharedTargets.map SharedTarget.Entry.untimed).Perm
      (s.sharedTargets.map SharedTarget.Entry.untimed) := by
  unfold publishSubs
  refine List.foldlRecOn (motive := fun st : PublishState => (st.sharedTargets.map _).Perm _) _ _
    (.refl _) ?_
  intro st hst i _
  unfold publishSub
  split
  · split
    · exact hst
    · exact hst
  · split
    · exact hst
    · exact SharedTarget.perm_getTarget.trans hst

end Subscriptions

namespace Broker

variable {b b' : Broker} {k : Books} {ss ss' : SessionRef} {s : BrokerSession}
  {sessions : AList fun _ : SessionRef => BrokerSession} {f : List PathEntryKey → List PathEntryKey}

theorem mapError_eq_ok {ε ε' α : Type} {x : Except ε α} {g : ε → ε'} {a : α} :
    x.mapError g = .ok a ↔ x = .ok a := by
  cases x with
  | error e => simp [Except.mapError]
  | ok a' => simp [Except.mapError]

/-! ### The handles of a session -/

theorem modifyHandles_mk {security : Security} {subscriptions : Subscriptions}
    {retained : RetainedMessages} {answerProps : AnswerProps} (hs : sessions.lookup ss = some s) :
    modifyHandles ss f ⟨security, sessions, subscriptions, retained, answerProps⟩ =
      ⟨security, sessions.insert ss { s with handles := f s.handles }, subscriptions, retained,
        answerProps⟩ := by
  unfold modifyHandles
  rw [hs]

/-- What the changes of subscriptions leave alone -/
structure SameRest (b b' : Broker) : Prop where
  security : b'.security = b.security
  retained : b'.retained = b.retained
  answerProps : b'.answerProps = b.answerProps
  mem_sessions : ∀ ss, ss ∈ b'.sessions ↔ ss ∈ b.sessions

namespace SameRest

theorem refl (b : Broker) : SameRest b b := ⟨rfl, rfl, rfl, fun _ => Iff.rfl⟩

theorem trans {b'' : Broker} (h : SameRest b b') (h' : SameRest b' b'') : SameRest b b'' :=
  ⟨h'.security.trans h.security, h'.retained.trans h.retained,
    h'.answerProps.trans h.answerProps, fun ss => (h'.mem_sessions ss).trans (h.mem_sessions ss)⟩

theorem live (h : SameRest b b') : {ss | ss ∈ b'.sessions} = {ss | ss ∈ b.sessions} :=
  Set.ext h.mem_sessions

end SameRest

/-! ### One call -/

/-- The containers of the broker hold what the books say. -/
structure Agrees (b : Broker) (k : Books) : Prop where
  distinct : Distinct b.sessions
  map : ∃ m, MapHolds b.sessions b.subscriptions.subsMap m k
  targets : TargetsHold {ss | ss ∈ b.sessions} b.subscriptions.sharedTargets k.targets
  known : k.Known {ss | ss ∈ b.sessions}

/-- The retained messages are asked for: with every subscription, or with one to a new filter. -/
def Books.asksRetained (k : Books) (ss : SessionRef) (topicFilter : Buffer) (opts : UInt8) : Bool :=
  SubOpts.getRetainHandling opts = 0b00000000 ||
    (SubOpts.getRetainHandling opts = 0b00010000 && (k.stored ss topicFilter).isNone)

/-- The entries for which the retained messages are asked for, when one after the other is
    subscribed -/
def Books.asked (ss : SessionRef) (sid : Option Nat) (k : Books) : List TopicSubopts → List TopicSubopts
  | [] => []
  | e :: es =>
    (if k.asksRetained ss e.topic e.opts then [e] else []) ++
      (k.subscribe ⟨ss, e.sharename, e.topic, e.opts, sid⟩).asked ss sid es

namespace Agrees

theorem make (security : Security) (answerProps : AnswerProps) :
    Agrees (.make security answerProps) .empty where
  distinct := by rintro ss ⟨⟩
  map := ⟨∅, MapHolds.make⟩
  targets := TargetsHold.make
  known := .empty

/-- The changes of the subscriptions of a session leave the other parts of the broker alone. -/
theorem of_sameRest {k' : Books} (ha : Agrees b k) (hrest : SameRest b b')
    (hmap : ∃ m, MapHolds b'.sessions b'.subscriptions.subsMap m k')
    (htargets : TargetsHold {ss | ss ∈ b.sessions} b'.subscriptions.sharedTargets k'.targets)
    (hknown : k'.Known {ss | ss ∈ b.sessions}) : Agrees b' k' := by
  refine ⟨?_, hmap, ?_, ?_⟩
  · rw [Distinct, hrest.live]
    exact ha.distinct
  · rw [hrest.live]
    exact htargets
  · rw [hrest.live]
    exact hknown

/-- `session_state::subscribe` asks for the retained messages as the books say. -/
theorem subscribe {now : Nat} {sn topicFilter : Buffer} {opts : UInt8} {sid : Option Nat} {r : Bool}
    (ha : Agrees b k) (hss : ss ∈ b.sessions)
    (hcall : b.subscribe now ss sn topicFilter opts sid = .ok (r, b')) :
    Agrees b' (k.subscribe ⟨ss, sn, topicFilter, opts, sid⟩) ∧ SameRest b b' ∧
      r = k.asksRetained ss topicFilter opts := by
  obtain ⟨m, hm⟩ := ha.map
  obtain ⟨s, hs⟩ := Option.isSome_iff_exists.mp (AList.lookup_isSome.mpr hss)
  have htargets : TargetsHold {ss | ss ∈ b.sessions}
      (if sn = [] then b.subscriptions.sharedTargets
        else b.subscriptions.sharedTargets.insert now sn topicFilter
          ⟨ss, sn, topicFilter, opts, sid⟩ ss)
      (k.subscribe ⟨ss, sn, topicFilter, opts, sid⟩).targets := by
    unfold Books.subscribe
    dsimp only
    split
    · exact ha.targets
    · refine ha.targets.perform ha.distinct now (.insert ..) ?_
      rintro ss' ⟨⟩
      exact hss
  have hknown := ha.known.subscribe ⟨ss, sn, topicFilter, opts, sid⟩ hss
  unfold Broker.subscribe at hcall
  dsimp only at hcall
  obtain ⟨⟨⟨h, inserted⟩, subsMap⟩, hinsert, hrest⟩ := Except.bind_eq_ok.mp hcall
  rw [mapError_eq_ok] at hinsert
  rcases hm.map.insertOrAssign topicFilter ss.clientId ⟨ss, sn, topicFilter, opts, sid⟩ with
    ⟨h', subsMap', hok, hm', hh, -, hext⟩ | ⟨herror, -⟩
  · rw [hok] at hinsert
    obtain ⟨hfst, rfl⟩ := Prod.mk.inj (Except.ok.inj hinsert)
    obtain ⟨rfl, rfl⟩ := Prod.mk.inj hfst
    have hnew := hm.insert ha.distinct ⟨ss, sn, topicFilter, opts, sid⟩ hs hm' hext hh
    dsimp only at hrest hnew
    have hnew_iff : (m.lookup (topicFilter, ss.clientId)).isNone =
        (k.stored ss topicFilter).isNone := by rw [hm.stored ss hss]
    split at hrest
    -- the filter is new for the session, which notes the handle
    · next hnone =>
      rw [if_pos hnone] at hnew
      obtain ⟨rfl, rfl⟩ := Prod.mk.inj (Except.ok.inj hrest)
      rw [modifyHandles_mk hs]
      have hsame : SameRest b { b with
          sessions := b.sessions.insert ss { s with handles := s.handles.insert h' }
          subscriptions := ⟨subsMap', if sn = [] then b.subscriptions.sharedTargets
            else b.subscriptions.sharedTargets.insert now sn topicFilter
              ⟨ss, sn, topicFilter, opts, sid⟩ ss⟩ } :=
        ⟨rfl, rfl, rfl, fun _ => MapHolds.mem_setHandles hs⟩
      refine ⟨ha.of_sameRest hsame ⟨_, hnew⟩ htargets hknown, hsame, ?_⟩
      rw [Books.asksRetained, ← hnew_iff, hnone, Bool.and_true]
    · next hsome =>
      rw [if_neg hsome] at hnew
      obtain ⟨rfl, rfl⟩ := Prod.mk.inj (Except.ok.inj hrest)
      have hsame : SameRest b { b with
          subscriptions := ⟨subsMap', if sn = [] then b.subscriptions.sharedTargets
            else b.subscriptions.sharedTargets.insert now sn topicFilter
              ⟨ss, sn, topicFilter, opts, sid⟩ ss⟩ } := ⟨rfl, rfl, rfl, fun _ => Iff.rfl⟩
      refine ⟨ha.of_sameRest hsame ⟨_, hnew.of_setHandles hs⟩ htargets hknown, hsame, ?_⟩
      rw [Books.asksRetained, ← hnew_iff, (Bool.not_eq_true _).mp hsome, Bool.and_false, Bool.or_false]
  · rw [herror] at hinsert
    cases hinsert

/-- `session_state::unsubscribe` -/
theorem unsubscribe {sn topicFilter : Buffer} (ha : Agrees b k) (hss : ss ∈ b.sessions)
    (hcall : b.unsubscribe ss sn topicFilter = .ok b') :
    Agrees b' (k.unsubscribe ss sn topicFilter) ∧ SameRest b b' := by
  obtain ⟨m, hm⟩ := ha.map
  obtain ⟨s, hs⟩ := Option.isSome_iff_exists.mp (AList.lookup_isSome.mpr hss)
  -- the shared targets lose the subscription of the share name
  have htargets : TargetsHold {ss | ss ∈ b.sessions}
      (if sn = [] then b.subscriptions.sharedTargets
        else b.subscriptions.sharedTargets.erase sn topicFilter ss)
      (k.unsubscribe ss sn topicFilter).targets := by
    unfold Books.unsubscribe
    dsimp only
    split
    · exact ha.targets
    · refine ha.targets.perform ha.distinct 0 (.erase ..) ?_
      rintro ss' ⟨⟩
      exact hss
  have hknown := ha.known.unsubscribe ss sn topicFilter
  unfold Broker.unsubscribe at hcall
  dsimp only at hcall
  cases hlookup : b.subscriptions.subsMap.lookup topicFilter with
  -- the session has no handle of the filter, and nothing more happens
  | none =>
    rw [hlookup] at hcall
    obtain rfl := Except.ok.inj hcall
    have hsame : SameRest b { b with
        subscriptions := ⟨b.subscriptions.subsMap, if sn = [] then b.subscriptions.sharedTargets
          else b.subscriptions.sharedTargets.erase sn topicFilter ss⟩ } :=
      ⟨rfl, rfl, rfl, fun _ => Iff.rfl⟩
    exact ⟨ha.of_sameRest hsame ⟨_, hm.erase_of_none hlookup⟩ htargets hknown, hsame⟩
  -- the handle leads to the entry of the client, which is erased
  | some handle =>
    rw [hlookup] at hcall
    dsimp only at hcall
    obtain ⟨⟨n, subsMap⟩, herase, hrest⟩ := Except.bind_eq_ok.mp hcall
    rw [mapError_eq_ok, modifyHandles_mk hs] at herase
    obtain ⟨subsMap', hok, hm', hext, -⟩ := hm.map.eraseHandle hlookup ss.clientId
    dsimp only at herase
    rw [hok] at herase
    obtain ⟨-, rfl⟩ := Prod.mk.inj (Except.ok.inj herase)
    obtain rfl := Except.ok.inj hrest
    rw [modifyHandles_mk hs]
    have hnew := hm.erase ha.distinct sn hs hm' hext hlookup
    have hsame : SameRest b { b with
        sessions := b.sessions.insert ss { s with handles := s.handles.erase handle }
        subscriptions := ⟨subsMap', if sn = [] then b.subscriptions.sharedTargets
          else b.subscriptions.sharedTargets.erase sn topicFilter ss⟩ } :=
      ⟨rfl, rfl, rfl, fun _ => MapHolds.mem_setHandles hs⟩
    exact ⟨ha.of_sameRest hsame ⟨_, hnew⟩ htargets hknown, hsame⟩

/-- `session_state::clean` never throws, and it leaves nothing of the session in the map. -/
theorem clean_ok (ha : Agrees b k) (hss : ss ∈ b.sessions) :
    ∃ b' m, b.clean ss = .ok b' ∧ SameRest b b' ∧
      MapHolds b'.sessions b'.subscriptions.subsMap m (k.clear ss) ∧
      (∀ f, m.lookup (f, ss.clientId) = none) ∧
      b'.subscriptions.sharedTargets = b.subscriptions.sharedTargets.eraseSession ss := by
  obtain ⟨m, hm⟩ := ha.map
  obtain ⟨s, hs⟩ := Option.isSome_iff_exists.mp (AList.lookup_isSome.mpr hss)
  have hhandles := hm.handles ss s hs
  obtain ⟨subsMap', m', hok, hm', hext, hnone, hother⟩ := eraseHandles_ok hm.map hhandles
  have hnew : MapHolds (b.sessions.insert ss { s with handles := [] }) subsMap' m' (k.clear ss) := by
    refine hm.update ha.distinct hs hm' (.inr hext) hother (fun f => ?_) (fun ss' f hne => ?_)
      (.nil hnone)
    · rw [hnone, Books.clear]
      exact (if_pos rfl).symm
    · unfold Books.clear
      exact if_neg hne
  have hclean : b.clean ss = .ok { b with
      sessions := b.sessions.insert ss { s with handles := [] }
      subscriptions := ⟨subsMap', b.subscriptions.sharedTargets.eraseSession ss⟩ } := by
    unfold Broker.clean
    dsimp only
    rw [hs, Option.map_some, Option.getD_some, mapError_eq_ok.mpr hok, Except.ok_bind,
      modifyHandles_mk hs]
  exact ⟨_, m', hclean, ⟨rfl, rfl, rfl, fun _ => MapHolds.mem_setHandles hs⟩, hnew, hnone, rfl⟩

/-- All subscriptions of a session end. -/
theorem clean (ha : Agrees b k) (hss : ss ∈ b.sessions) :
    ∃ b', b.clean ss = .ok b' ∧ SameRest b b' ∧ Agrees b' (k.clear ss) := by
  obtain ⟨b', m, hok, hrest, hm, -, htargets⟩ := ha.clean_ok hss
  refine ⟨b', hok, hrest, ha.of_sameRest hrest ⟨m, hm⟩ ?_ (ha.known.clear.mono fun _ h => h.1)⟩
  rw [htargets]
  refine ha.targets.perform ha.distinct 0 (.eraseSession ss) ?_
  rintro ss' ⟨⟩
  exact hss

/-- A session is destroyed. -/
theorem destroy (ha : Agrees b k) (hss : ss ∈ b.sessions) :
    ∃ b', b.destroy ss = .ok b' ∧ Agrees b' (k.clear ss) ∧
      ∀ ss', ss' ∈ b'.sessions ↔ ss' ∈ b.sessions ∧ ss' ≠ ss := by
  obtain ⟨b₁, m, hok, hrest, hm, hnone, htargets⟩ := ha.clean_ok hss
  have hmem (ss' : SessionRef) : ss' ∈ b₁.sessions.erase ss ↔ ss' ∈ b.sessions ∧ ss' ≠ ss := by
    rw [AList.mem_erase, hrest.mem_sessions, and_comm]
  have hlive : {ss' | ss' ∈ b₁.sessions.erase ss} = {ss' ∈ {ss | ss ∈ b.sessions} | ss' ≠ ss} :=
    Set.ext hmem
  -- the map without the session still holds what the other sessions have
  refine ⟨{ b₁ with sessions := b₁.sessions.erase ss }, ?_, ⟨?_, ⟨m, ?_⟩, ?_, ?_⟩, hmem⟩
  · unfold Broker.destroy
    rw [hok, Except.ok_bind]
  · rw [Distinct, hlive]
    exact ha.distinct.mono fun _ h => h.1
  · refine ⟨hm.map, fun ss' hss' f => ?_, fun f c hsome => ?_, fun ss' s' hs' => ?_⟩
    · exact hm.stored ss' (AList.mem_erase.mp hss').2 f
    · obtain ⟨ss', hss', rfl⟩ := hm.owner f c hsome
      refine ⟨ss', AList.mem_erase.mpr ⟨?_, hss'⟩, rfl⟩
      rintro rfl
      rw [hnone f] at hsome
      cases hsome
    · have hne : ss' ≠ ss := by
        rintro rfl
        rw [AList.lookup_erase] at hs'
        cases hs'
      rw [AList.lookup_erase_ne hne] at hs'
      exact hm.handles ss' s' hs'
  · rw [hlive]
    dsimp only
    rw [htargets]
    exact ha.targets.eraseSession ha.distinct hss
  · rw [hlive]
    exact ha.known.clear

/-- A session is created while no other one has its client identifier. -/
theorem create (ha : Agrees b k) (version : ProtocolVersion)
    (hnew : ∀ ss' ∈ b.sessions, ss'.clientId ≠ ss.clientId) : Agrees (b.create ss version) k := by
  have hlive : {ss' | ss' ∈ (b.create ss version).sessions} =
      Insert.insert ss {ss | ss ∈ b.sessions} := Set.ext fun ss' => AList.mem_insert _
  obtain ⟨m, hm⟩ := ha.map
  -- nothing is stored for the client identifier
  have hnone (f : Buffer) : m.lookup (f, ss.clientId) = none := by
    by_contra hsome
    obtain ⟨ss', hss', heq⟩ := hm.owner f _ (Option.isSome_iff_ne_none.mpr hsome)
    exact hnew ss' hss' heq
  have hbooks (f : Buffer) : k.stored ss f = none := by
    by_contra hsome
    obtain ⟨sub, hsub⟩ := Option.ne_none_iff_exists'.mp hsome
    exact hnew ss (ha.known.stored ss f sub hsub).1 rfl
  refine ⟨?_, ⟨m, hm.map, fun ss' hss' f => ?_, fun f c hsome => ?_, fun ss' s' hs' => ?_⟩, ?_, ?_⟩
  · rw [Distinct, hlive]
    rintro ss₁ (rfl | h₁) ss₂ (rfl | h₂) heq
    · rfl
    · exact absurd heq.symm (hnew ss₂ h₂)
    · exact absurd heq (hnew ss₁ h₁)
    · exact ha.distinct h₁ h₂ heq
  · rcases (AList.mem_insert _).mp hss' with rfl | hss'
    · rw [hnone, hbooks]
    · exact hm.stored ss' hss' f
  · obtain ⟨ss', hss', hc⟩ := hm.owner f c hsome
    exact ⟨ss', (AList.mem_insert _).mpr (.inr hss'), hc⟩
  · unfold Broker.create at hs'
    dsimp only at hs'
    by_cases heq : ss' = ss
    · subst heq
      rw [AList.lookup_insert] at hs'
      obtain rfl := Option.some.inj hs'
      exact .nil hnone
    · rw [AList.lookup_insert_ne heq] at hs'
      exact hm.handles ss' s' hs'
  · rw [hlive]
    exact ha.targets.insert hnew
  · rw [hlive]
    exact ha.known.mono (Set.subset_insert ss _)

/-- `do_publish` -/
theorem doPublish {source : SessionRef} {clock : Nat → Nat} {p : PublishParams}
    {given : List (SessionRef × OfflineMessage)} (ha : Agrees b k)
    (hcall : b.doPublish source clock p = .ok (given, b')) : Agrees b' k := by
  unfold Broker.doPublish at hcall
  dsimp only at hcall
  obtain ⟨retained, -, hrest⟩ := Except.bind_eq_ok.mp hcall
  obtain ⟨-, rfl⟩ := Prod.mk.inj (Except.ok.inj hrest)
  exact ⟨ha.distinct, ha.map, ha.targets.of_perm (Subscriptions.perm_publishSubs ..), ha.known⟩

/-- The loop of `subscribe_handler`: what is subscribed, what is left alone, the codes, and the
    retained messages that are asked for -/
theorem subscribeEntries {ver : ProtocolVersion} {sid : Option Nat} {clock : Nat → Nat}
    {es : List TopicSubopts} {codes : List UInt8} {rs : List (UInt8 × RetainType)}
    (ha : Agrees b k) (hss : ss ∈ b.sessions)
    (hcall : Broker.subscribeEntries ver ss sid clock es b = .ok (codes, rs, b')) :
    Agrees b' ((es.filter fun e => b.grants ver ss e).foldl
      (fun k e => k.subscribe ⟨ss, e.sharename, e.topic, e.opts, sid⟩) k) ∧
    SameRest b b' ∧ codes = es.map (fun e => b.subackCode ver ss e) ∧
    rs = (k.asked ss sid (es.filter fun e => b.grants ver ss e)).flatMap fun e =>
      (b.retained.retains.find e.topic).map fun r => (SubOpts.getQos e.opts, r) := by
  induction es generalizing b k clock codes rs with
  | nil =>
    obtain ⟨rfl, hrest⟩ := Prod.mk.inj (Except.ok.inj hcall)
    obtain ⟨rfl, rfl⟩ := Prod.mk.inj hrest
    exact ⟨ha, .refl b, rfl, rfl⟩
  | cons e es ih =>
    rw [Broker.subscribeEntries] at hcall
    dsimp only at hcall
    split at hcall
    · next hgrant =>
      obtain ⟨⟨r, b₁⟩, hsub, hrest⟩ := Except.bind_eq_ok.mp hcall
      obtain ⟨⟨codes', rs', b₂⟩, hloop, hret⟩ := Except.bind_eq_ok.mp hrest
      obtain ⟨rfl, hpair⟩ := Prod.mk.inj (Except.ok.inj hret)
      obtain ⟨rfl, rfl⟩ := Prod.mk.inj hpair
      obtain ⟨ha₁, hsame, rfl⟩ := ha.subscribe hss hsub
      obtain ⟨hagrees, hrest, hcodes, hrs⟩ := ih ha₁ ((hsame.mem_sessions ss).mpr hss) hloop
      -- the rules and the retained messages are the same
      have hgrants : (fun e => b₁.grants ver ss e) = fun e => b.grants ver ss e := by
        funext e
        unfold Broker.grants
        rw [hsame.security]
      have hcode : (fun e => b₁.subackCode ver ss e) = fun e => b.subackCode ver ss e := by
        funext e
        unfold Broker.subackCode
        rw [congrFun hgrants e]
      rw [hgrants] at hagrees hrs
      rw [hcode] at hcodes
      rw [hsame.retained] at hrs
      rw [List.filter_cons, if_pos hgrant, List.foldl_cons, List.map_cons, Books.asked]
      refine ⟨hagrees, hsame.trans hrest, by rw [hcodes], ?_⟩
      dsimp only
      rw [hrs, hsame.retained]
      split
      · rw [List.cons_append, List.nil_append, List.flatMap_cons]
      · rfl
    · next hgrant =>
      obtain ⟨⟨codes', rs', b₂⟩, hloop, hret⟩ := Except.bind_eq_ok.mp hcall
      obtain ⟨rfl, hpair⟩ := Prod.mk.inj (Except.ok.inj hret)
      obtain ⟨rfl, rfl⟩ := Prod.mk.inj hpair
      obtain ⟨hagrees, hrest, hcodes, hrs⟩ := ih ha hss hloop
      rw [List.filter_cons, if_neg hgrant, List.map_cons]
      exact ⟨hagrees, hrest, by rw [hcodes], hrs⟩

/-- The loop of `unsubscribe_handler` -/
theorem unsubscribeEntries {es : List TopicSharename} (ha : Agrees b k) (hss : ss ∈ b.sessions)
    (hcall : b.unsubscribeEntries ss es = .ok b') :
    Agrees b' (es.foldl (fun k e => k.unsubscribe ss e.sharename e.topic) k) := by
  induction es generalizing b k with
  | nil =>
    obtain rfl := Except.ok.inj hcall
    exact ha
  | cons e es ih =>
    obtain ⟨b₁, hunsub, hloop⟩ := Except.bind_eq_ok.mp hcall
    obtain ⟨ha₁, hsame⟩ := ha.unsubscribe hss hunsub
    exact ih ha₁ ((hsame.mem_sessions ss).mpr hss) hloop

end Agrees

/-! ### Runs -/

/-- The books after a call. A handler does nothing if the connection has no session. -/
def Books.step (b : Broker) (k : Books) : Call → Books
  | .create _ _ => k
  | .renew ss => k.clear ss
  | .destroy ss => k.clear ss
  | .subscribe ss ver _ entries props _ _ =>
    if ss ∈ b.sessions then
      (entries.filter fun e => b.grants ver ss e).foldl (fun k e => k.subscribe
        ⟨ss, e.sharename, e.topic, e.opts, if ver = .v5 then subscribeSid props else none⟩) k
    else k
  | .unsubscribe ss _ _ entries =>
    if ss ∈ b.sessions then
      entries.foldl (fun k e => k.unsubscribe ss e.sharename e.topic) k
    else k
  | .publish _ _ _ _ _ _ _ _ => k
  | .will _ _ _ => k
  | .elapse _ => k
  | .expiryBegins _ => k
  | .expiryEnds _ => k
  | .setSecurity _ => k

/-- The calls that are made. No session is created before the last one with its client identifier is
    destroyed, and only sessions that there are end. -/
def Allowed (b : Broker) : Call → Prop
  | .create ss _ => ∀ ss' ∈ b.sessions, ss'.clientId ≠ ss.clientId
  | .renew ss => ss ∈ b.sessions
  | .destroy ss => ss ∈ b.sessions
  | _ => True

/-- A run of the broker from its start, in which nothing has thrown, with the books -/
inductive Runs : Broker → Books → Prop
  | make (security : Security) (answerProps : AnswerProps) :
      Runs (.make security answerProps) .empty
  | step {b b' k out} (call : Call) (hr : Runs b k) (hok : b.Allowed call)
      (hcall : b.perform call = .ok (out, b')) : Runs b' (k.step b call)

/-- What one call does -/
theorem Agrees.perform {call : Call} {out : List BrokerOutput} (ha : Agrees b k)
    (hok : b.Allowed call) (hcall : b.perform call = .ok (out, b')) : Agrees b' (k.step b call) := by
  -- each call keeps the maps and the bookkeeping in step
  cases call with
  | create ss version =>
    obtain ⟨-, rfl⟩ := Prod.mk.inj (Except.ok.inj hcall)
    exact ha.create version hok
  | renew ss =>
    obtain ⟨b₁, hclean, hret⟩ := Except.bind_eq_ok.mp hcall
    obtain ⟨-, rfl⟩ := Prod.mk.inj (Except.ok.inj hret)
    obtain ⟨b₂, hclean', -, ha'⟩ := ha.clean hok
    obtain rfl := Except.ok.inj (hclean.symm.trans hclean')
    exact ha'
  | destroy ss =>
    obtain ⟨b₁, hdestroy, hret⟩ := Except.bind_eq_ok.mp hcall
    obtain ⟨-, rfl⟩ := Prod.mk.inj (Except.ok.inj hret)
    obtain ⟨b₂, hdestroy', ha', -⟩ := ha.destroy hok
    obtain rfl := Except.ok.inj (hdestroy.symm.trans hdestroy')
    exact ha'
  | subscribe ss ver packetId entries props clock left =>
    unfold Broker.perform subscribeHandler at hcall
    unfold Books.step
    dsimp only at hcall ⊢
    -- without the session nothing is done
    split at hcall
    · next hnone =>
      obtain ⟨-, rfl⟩ := Prod.mk.inj (Except.ok.inj hcall)
      rw [if_neg (AList.lookup_eq_none.mp hnone)]
      exact ha
    · next s hs =>
      have hss : ss ∈ b.sessions := AList.lookup_isSome.mp (by rw [hs]; rfl)
      obtain ⟨⟨codes, rs, b₁⟩, hloop, hrest⟩ := Except.bind_eq_ok.mp hcall
      obtain ⟨answer, -, hret⟩ := Except.bind_eq_ok.mp hrest
      obtain ⟨-, rfl⟩ := Prod.mk.inj (Except.ok.inj hret)
      rw [if_pos hss]
      exact (ha.subscribeEntries hss hloop).1
  | unsubscribe ss ver packetId entries =>
    unfold Broker.perform unsubscribeHandler at hcall
    unfold Books.step
    dsimp only at hcall ⊢
    -- the same for an UNSUBSCRIBE
    split at hcall
    · next hnone =>
      obtain ⟨-, rfl⟩ := Prod.mk.inj (Except.ok.inj hcall)
      rw [if_neg (AList.lookup_eq_none.mp hnone)]
      exact ha
    · next s hs =>
      have hss : ss ∈ b.sessions := AList.lookup_isSome.mp (by rw [hs]; rfl)
      obtain ⟨b₁, hloop, hrest⟩ := Except.bind_eq_ok.mp hcall
      obtain ⟨answer, -, hret⟩ := Except.bind_eq_ok.mp hrest
      obtain ⟨-, rfl⟩ := Prod.mk.inj (Except.ok.inj hret)
      rw [if_pos hss]
      exact ha.unsubscribeEntries hss hloop
  | publish ss ver packetId opts topic payload props clock =>
    unfold Broker.perform publishHandler at hcall
    unfold Books.step
    dsimp only at hcall ⊢
    -- a session that is gone, or a publisher without the right, changes nothing
    split at hcall
    · obtain ⟨-, rfl⟩ := Prod.mk.inj (Except.ok.inj hcall)
      exact ha
    · split at hcall
      · obtain ⟨out', -, hret⟩ := Except.bind_eq_ok.mp hcall
        obtain ⟨-, rfl⟩ := Prod.mk.inj (Except.ok.inj hret)
        exact ha
      · obtain ⟨⟨given, b₁⟩, hpublish, hrest⟩ := Except.bind_eq_ok.mp hcall
        obtain ⟨answer, -, hret⟩ := Except.bind_eq_ok.mp hrest
        obtain ⟨-, rfl⟩ := Prod.mk.inj (Except.ok.inj hret)
        exact ha.doPublish hpublish
  | will ss p clock =>
    obtain ⟨⟨given, b₁⟩, hpublish, hret⟩ := Except.bind_eq_ok.mp hcall
    obtain ⟨-, rfl⟩ := Prod.mk.inj (Except.ok.inj hret)
    exact ha.doPublish hpublish
  | elapse n | expiryBegins n | expiryEnds n =>
    obtain ⟨-, rfl⟩ := Prod.mk.inj (Except.ok.inj hcall)
    exact ⟨ha.distinct, ha.map, ha.targets, ha.known⟩
  | setSecurity security =>
    obtain ⟨-, rfl⟩ := Prod.mk.inj (Except.ok.inj hcall)
    exact ⟨ha.distinct, ha.map, ha.targets, ha.known⟩

/-- The books are right after any run. -/
theorem Runs.agrees (hr : Runs b k) : Agrees b k := by
  induction hr with
  | make security answerProps => exact .make security answerProps
  | step call _ hok hcall ih => exact ih.perform hok hcall

/-! ### The end of a session -/

/-- What `find` calls back is what the books have for a filter that matches. -/
theorem Agrees.mem_find (ha : Agrees b k) {topic c : Buffer} {sub : Subscription} :
    (c, sub) ∈ b.subscriptions.subsMap.find topic ↔
      sub.ss.clientId = c ∧ k.stored sub.ss sub.topic = some sub ∧
        topicFilterMatches false sub.topic topic := by
  obtain ⟨m, hm⟩ := ha.map
  rw [hm.map.mem_find]
  constructor
  · rintro ⟨f, hlookup, hmatch⟩
    obtain ⟨ss, hss, rfl⟩ := hm.owner f c (by rw [hlookup]; rfl)
    rw [hm.stored ss hss] at hlookup
    obtain ⟨-, rfl, rfl⟩ := ha.known.stored ss f sub hlookup
    exact ⟨rfl, hlookup, hmatch⟩
  · rintro ⟨rfl, hstored, hmatch⟩
    have hss := (ha.known.stored _ _ _ hstored).1
    exact ⟨sub.topic, by rw [hm.stored _ hss, hstored], hmatch⟩

/-- The broker can come to a reference to the session: `find` calls it back, or it is in an entry of
    the shared targets. -/
def Refers (b : Broker) (ss : SessionRef) : Prop :=
  (∃ topic, ∃ i ∈ b.subscriptions.subsMap.find topic, i.2.ss = ss) ∨
    ∃ e ∈ b.subscriptions.sharedTargets,
      e.ss = ss ∨ ∃ f sub, e.tfSubs.lookup f = some sub ∧ sub.ss = ss

/-- What is referred to is there. -/
theorem Agrees.mem_of_refers (ha : Agrees b k) (href : b.Refers ss) : ss ∈ b.sessions := by
  rcases href with ⟨topic, ⟨c, sub⟩, hmem, rfl⟩ | ⟨e, he, rfl | ⟨f, sub, hlookup, rfl⟩⟩
  · exact (ha.known.stored _ _ _ (ha.mem_find.mp hmem).2.1).1
  · exact ha.targets.owners e he
  · have htarget := (ha.targets.represents e.ss e.shareName f sub).mp ⟨e, he, rfl, rfl, hlookup⟩
    obtain ⟨hss, -, heq, -⟩ := ha.known.targets _ _ _ _ htarget
    rw [heq]
    exact hss

/-- A session that is selected is there, and the subscription is its own. -/
theorem Agrees.mem_of_selected (ha : Agrees b k) {source topic : Buffer} {clock : Nat → Nat}
    {i : Subscriptions.Selected}
    (hi : i ∈ (b.subscriptions.publishSubs source topic clock).selected) :
    i.ss ∈ b.sessions ∧ i.sub.ss = i.ss := by
  have hsound := Subscriptions.sound_publishSubs b.subscriptions i.ss source topic clock
  rcases hsound.selected i hi with ⟨-, hfound, -, hsub, -⟩ | ⟨-, hmember⟩
  · obtain ⟨⟨c, sub⟩, hmem, heq⟩ := List.mem_map.mp hfound
    obtain rfl : sub = i.sub := heq
    rw [hsub]
    exact ⟨(ha.known.stored _ _ _ (ha.mem_find.mp hmem).2.1).1, rfl⟩
  · obtain ⟨hss, -, heq, -⟩ := ha.known.targets _ _ _ _ ((ha.targets.represents ..).mp hmember)
    exact ⟨hss, heq⟩

/-- After any run, the broker refers only to sessions that there are, and `do_publish` gives nothing
    to others. A session can always be destroyed. Then nothing refers to it, and what the other
    sessions have subscribed is as it was. -/
theorem sessions_end (hr : Runs b k) :
    (∀ ss, b.Refers ss → ss ∈ b.sessions) ∧
    (∀ source topic clock, ∀ i ∈ (b.subscriptions.publishSubs source topic clock).selected,
      i.ss ∈ b.sessions ∧ i.sub.ss = i.ss) ∧
    ∀ ss ∈ b.sessions, ∃ b', b.perform (.destroy ss) = .ok ([], b') ∧ ¬ b'.Refers ss ∧
      (∀ ss', ss' ∈ b'.sessions ↔ ss' ∈ b.sessions ∧ ss' ≠ ss) ∧
      (∀ topic, ∀ i, i ∈ b'.subscriptions.subsMap.find topic ↔
        i ∈ b.subscriptions.subsMap.find topic ∧ i.2.ss ≠ ss) ∧
      ∀ ss' ≠ ss, ∀ sn f sub, b'.subscriptions.sharedTargets.Member ss' sn f sub ↔
        b.subscriptions.sharedTargets.Member ss' sn f sub := by
  have ha := hr.agrees
  refine ⟨fun _ => ha.mem_of_refers, fun _ _ _ _ => ha.mem_of_selected, fun ss hss => ?_⟩
  obtain ⟨b', hok, ha', hmem⟩ := ha.destroy hss
  refine ⟨b', ?_, ?_, hmem, ?_, fun ss' hne sn f sub => ?_⟩
  · unfold Broker.perform
    dsimp only
    rw [hok]
    rfl
  · intro href
    exact ((hmem ss).mp (ha'.mem_of_refers href)).2 rfl
  · rintro topic ⟨c, sub⟩
    rw [ha'.mem_find, ha.mem_find]
    unfold Books.clear
    dsimp only
    by_cases heq : sub.ss = ss
    · simp [heq]
    · simp [heq]
  · rw [ha'.targets.represents, ha.targets.represents]
    unfold Books.clear SharedTarget.Roster.perform
    dsimp only
    rw [if_neg hne]

/-- A session of the anonymous user -/
def client : SessionRef := ⟨ofLiteral "anonymous", [0x63]⟩

/-- A client with a shared subscription -/
theorem sessions_end_shared : ∃ (b : Broker) (ss : SessionRef), b.Refers ss ∧
    ∃ b', b.perform (.destroy ss) = .ok ([], b') ∧ ¬ b'.Refers ss := by
  have hcreate := Runs.step (.create client .v5)
    (.make ResponseTopics.defaultSecurity ⟨[], [], [], []⟩) (by rintro ss ⟨⟩) rfl
  have hsubscribe := Runs.step (.subscribe client .v5 1 [⟨⟨ofLiteral "$share/g/a"⟩, 1⟩] []
    (fun _ => 0) fun _ => 0) hcreate trivial rfl
  obtain ⟨b', hok, hgone, -⟩ := (sessions_end hsubscribe).2.2 client (by decide)
  exact ⟨_, client, .inl ⟨[0x61], ⟨_, _⟩, List.mem_cons_self, rfl⟩, b', hok, hgone⟩

/-- Two users have one client identifier and subscribe one filter. The entry of the filter is that of
    the second session, which has no handle for it, and so it outlives the session. -/
theorem outlives_its_session : ∃ (security : Security) (calls : List Call) (b : Broker)
    (ss : SessionRef), calls.foldlM (fun b call => Prod.snd <$> b.perform call)
      (make security ⟨[], [], [], []⟩) = .ok b ∧ b.Refers ss ∧ ss ∉ b.sessions := by
  let rule : Authorization := ⟨[ofLiteral "#"], ofLiteral "#", 0, .allow,
    ((∅ : OrdSet Buffer).insert [0x75]).insert [0x76], .allow, ∅⟩
  let subscribe (ss : SessionRef) : Call :=
    .subscribe ss .v311 1 [⟨⟨[0x61]⟩, 0⟩] [] (fun _ => 0) fun _ => 0
  have hcalls : [.create ⟨[0x75], [0x63]⟩ .v311, .create ⟨[0x76], [0x63]⟩ .v311,
      subscribe ⟨[0x75], [0x63]⟩, subscribe ⟨[0x76], [0x63]⟩, .destroy ⟨[0x76], [0x63]⟩].foldlM
      (fun b call => Prod.snd <$> b.perform call)
      (make { Security.make with authorization := [rule] } ⟨[], [], [], []⟩) = .ok _ := rfl
  exact ⟨_, _, _, ⟨[0x76], [0x63]⟩, hcalls, .inl ⟨[0x61], ⟨_, _⟩, List.mem_cons_self, rfl⟩,
    by decide⟩

end Broker

end AsyncMqtt
