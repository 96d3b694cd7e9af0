import AsyncMqtt.Spec.BrokerRuns

/-!
# The fan-out of a PUBLISH

Who is given a message. Every plain subscription with a filter that matches is served once, unless
it asks not to be sent the messages of its own client. Of every share group with such a filter one
member is served. What is given is what the rules allow to the user of the session.

The callback of `do_publish` keeps a list of the share groups that were served. It is called back for
each member of a group, and `getTarget` chooses at the first time only.

## Key results

- `Subscriptions.FanState.publishSub`: what one call of the callback does
- `Broker.Agrees.fanOut`: what `do_publish` gives to the sessions
- `Broker.publish_fans_out`: what `publish_handler` does after any run
-/

namespace AsyncMqtt

open MultipleSubscriptionMap (Stored Holds)

namespace Subscriptions

variable {s : Subscriptions} {source topic : Buffer} {now : Nat} {subs : List Subscription}
  {sub : Subscription} {st : PublishState} {clock : Nat → Nat}

/-- A plain subscription is served: it does not hold back the messages of its own client. -/
def Serves (source : Buffer) (sub : Subscription) : Prop :=
  sub.sharename = [] ∧ ¬ (SubOpts.getNl sub.opts = 0b00000100 ∧ sub.ss.clientId = source)

instance Serves.instDecidable (source : Buffer) (sub : Subscription) :
    Decidable (Serves source sub) := by
  unfold Serves
  infer_instance

/-- The share group of a shared subscription -/
def groupOf (sub : Subscription) : Buffer × Buffer := (sub.sharename, sub.topic)

/-- A plain subscription that is selected -/
def plain (sub : Subscription) : Selected := ⟨sub.ss, [], sub.topic, sub⟩

/-- The member that is selected of a share group -/
def member (pick : Buffer × Buffer → SessionRef × Subscription) (g : Buffer × Buffer) : Selected :=
  ⟨(pick g).1, g.1, g.2, (pick g).2⟩

/-- What the callback has done for the subscriptions for which it was called -/
structure FanState (s : Subscriptions) (source : Buffer) (subs : List Subscription)
    (st : PublishState) : Prop where
  nodup : st.sent.Nodup
  mem_sent : ∀ g, g ∈ st.sent ↔ ∃ sub ∈ subs, sub.sharename ≠ [] ∧ groupOf sub = g
  perm : (st.sharedTargets.map SharedTarget.Entry.untimed).Perm
    (s.sharedTargets.map SharedTarget.Entry.untimed)
  selected : ∃ pick : Buffer × Buffer → SessionRef × Subscription,
    (∀ g ∈ st.sent, s.sharedTargets.Member (pick g).1 g.1 g.2 (pick g).2) ∧
    st.selected.Perm ((subs.filter (Serves source ·)).map plain ++ st.sent.map (member pick))

namespace FanState

theorem init : FanState s source [] ⟨[], s.sharedTargets, []⟩ where
  nodup := List.nodup_nil
  mem_sent g := by simp
  perm := .refl _
  selected := by
    refine ⟨fun _ => (⟨[], []⟩, ⟨⟨[], []⟩, [], [], 0, none⟩), ?_, .refl _⟩
    rintro g ⟨⟩

/-- The groups are the same after a subscription that is plain, or of which the group was served. -/
theorem mem_sent_concat (h : FanState s source subs st)
    (hsub : sub.sharename ≠ [] → groupOf sub ∈ st.sent) (g : Buffer × Buffer) :
    g ∈ st.sent ↔ ∃ sub' ∈ subs ++ [sub], sub'.sharename ≠ [] ∧ groupOf sub' = g := by
  rw [h.mem_sent g]
  constructor
  · rintro ⟨sub', hmem, hrest⟩
    exact ⟨sub', List.mem_append_left _ hmem, hrest⟩
  · rintro ⟨sub', hmem, hshared, heq⟩
    rcases List.mem_append.mp hmem with hmem | hmem
    · exact ⟨sub', hmem, hshared, heq⟩
    · obtain rfl := List.mem_singleton.mp hmem
      rw [← h.mem_sent g, ← heq]
      exact hsub hshared

/-- A member is chosen of a group that has one. -/
theorem exists_chosen {t t' : SharedTarget} {ss : SessionRef} {sn f : Buffer} {sub : Subscription}
    (hperm : (t'.map SharedTarget.Entry.untimed).Perm (t.map SharedTarget.Entry.untimed))
    (hmember : t.Member ss sn f sub) (now : Nat) :
    ∃ ss' sub', (t'.getTarget now sn f).1 = some (ss', sub') := by
  obtain ⟨e, he, -, hname, hlookup⟩ := (SharedTarget.member_iff_of_perm hperm).mpr hmember
  rcases SharedTarget.getTarget_cases now sn f t' with
    ⟨before, elem, after, sub', -, -, -, -, heq⟩ | ⟨hnone, -⟩
  · exact ⟨elem.ss, sub', by rw [heq]⟩
  · have hhas : e.hasFilter sn f := by simp [SharedTarget.Entry.hasFilter, hname, hlookup]
    rw [hnone e he] at hhas
    cases hhas

/-- The callback is called for one more subscription. A shared subscription has a target. -/
theorem publishSub (h : FanState s source subs st) (now : Nat)
    (htarget : sub.sharename ≠ [] →
      ∃ ss sub', s.sharedTargets.Member ss sub.sharename sub.topic sub') :
    FanState s source (subs ++ [sub]) (publishSub source now st sub) := by
  obtain ⟨pick, hpick, hselected⟩ := h.selected
  unfold Subscriptions.publishSub
  split
  · next hplain =>
    have hsent := h.mem_sent_concat fun hshared : sub.sharename ≠ [] => absurd hplain hshared
    split
    -- it is the publisher's own
    · next hown =>
      refine ⟨h.nodup, hsent, h.perm, pick, hpick, ?_⟩
      have hnot : ¬ Serves source sub := fun hserves => hserves.2 hown
      rw [List.filter_append, List.filter_singleton]
      simpa [hnot] using hselected
    · next hown =>
      refine ⟨h.nodup, hsent, h.perm, pick, hpick, ?_⟩
      have hserves : Serves source sub := ⟨hplain, hown⟩
      have hfilter : (subs ++ [sub]).filter (Serves source ·) =
          subs.filter (Serves source ·) ++ [sub] := by
        rw [List.filter_append, List.filter_singleton]
        simp [hserves]
      rw [hfilter, List.map_append, List.append_assoc]
      refine (hselected.append_right _).trans ?_
      rw [List.append_assoc]
      exact List.perm_append_comm.append_left _
  · next hshared =>
    have hfilter : (subs ++ [sub]).filter (Serves source ·) = subs.filter (Serves source ·) := by
      rw [List.filter_append, List.filter_singleton]
      simp [Serves, hshared]
    split
    -- the group was served
    · next hmem =>
      refine ⟨h.nodup, h.mem_sent_concat fun _ => hmem, h.perm, pick, hpick, ?_⟩
      rw [hfilter]
      exact hselected
    · next hnew =>
      have hgroup : groupOf sub ∉ st.sent := hnew
      obtain ⟨ss, sub', hmember⟩ := htarget hshared
      obtain ⟨ss, sub', hchosen⟩ := exists_chosen h.perm hmember now
      have hheld := (SharedTarget.member_iff_of_perm h.perm).mp
        (SharedTarget.member_of_getTarget hchosen)
      refine ⟨List.nodup_cons.mpr ⟨hnew, h.nodup⟩, fun g => ?_,
        SharedTarget.perm_getTarget.trans h.perm,
        Function.update pick (groupOf sub) (ss, sub'), fun g hg => ?_, ?_⟩
      · rw [List.mem_cons, h.mem_sent g]
        constructor
        · rintro (rfl | ⟨sub', hmem, hrest⟩)
          · exact ⟨sub, by simp, hshared, rfl⟩
          · exact ⟨sub', List.mem_append_left _ hmem, hrest⟩
        · rintro ⟨sub', hmem, hshared', heq⟩
          rcases List.mem_append.mp hmem with hmem | hmem
          · exact .inr ⟨sub', hmem, hshared', heq⟩
          · obtain rfl := List.mem_singleton.mp hmem
            exact .inl heq.symm
      · rcases List.mem_cons.mp hg with rfl | hg
        · rw [show (sub.sharename, sub.topic) = groupOf sub from rfl, Function.update_self]
          exact hheld
        · have hne : g ≠ groupOf sub := fun heq => hgroup (heq ▸ hg)
          rw [Function.update_of_ne hne]
          exact hpick g hg
      · -- the groups that were served before keep their members
        have hsame : st.sent.map (member (Function.update pick (groupOf sub) (ss, sub'))) =
            st.sent.map (member pick) := by
          refine List.map_congr_left fun g hg => ?_
          have hne : g ≠ groupOf sub := fun heq => hgroup (heq ▸ hg)
          rw [member, Function.update_of_ne hne, member]
        have hnewest : member (Function.update pick (groupOf sub) (ss, sub'))
            (sub.sharename, sub.topic) = ⟨ss, sub.sharename, sub.topic, sub'⟩ := by
          rw [member, show (sub.sharename, sub.topic) = groupOf sub from rfl, Function.update_self]
          rfl
        dsimp only
        rw [hfilter, hchosen, List.map_cons, hsame, hnewest]
        exact (hselected.append_right _).trans
          ((List.perm_append_singleton _ _).trans List.perm_middle.symm)

/-- What the callback has done in the end -/
theorem publishSubs (source : Buffer) (clock : Nat → Nat)
    (htargets : ∀ i ∈ s.subsMap.find topic, i.2.sharename ≠ [] →
      ∃ ss sub, s.sharedTargets.Member ss i.2.sharename i.2.topic sub) :
    FanState s source ((s.subsMap.find topic).map Prod.snd) (s.publishSubs source topic clock) := by
  have hfold (is : List ((Buffer × Subscription) × Nat))
      (hi : ∀ i ∈ is, i.1 ∈ s.subsMap.find topic) :
      FanState s source (is.map fun i => i.1.2) (is.foldl
        (fun st i => Subscriptions.publishSub source (clock i.2) st i.1.2)
        ⟨[], s.sharedTargets, []⟩) := by
    induction is using List.reverseRecOn with
    | nil => exact .init
    | append_singleton is i ih =>
      rw [List.map_append, List.map_singleton, List.foldl_append, List.foldl_cons, List.foldl_nil]
      refine (ih fun i' hi' => hi i' (List.mem_append_left _ hi')).publishSub _ ?_
      exact htargets i.1 (hi i (by simp))
  have hall := hfold (s.subsMap.find topic).zipIdx fun i hi => List.fst_mem_of_mem_zipIdx hi
  have hmap : ((s.subsMap.find topic).zipIdx.map fun i => i.1.2) =
      (s.subsMap.find topic).map Prod.snd := by
    conv_rhs => rw [← List.zipIdx_map_fst 0 (s.subsMap.find topic), List.map_map]
    rfl
  rw [hmap] at hall
  exact hall

end FanState

end Subscriptions

namespace Broker

open Subscriptions (Serves groupOf plain member FanState)

variable {b b' : Broker} {k : Books} {ss : SessionRef} {s : BrokerSession}

/-- What the sessions are given for a PUBLISH of a client -/
structure FanOut (b : Broker) (k : Books) (source : Buffer) (p : PublishParams)
    (subs : List Subscription) (groups : List (Buffer × Buffer))
    (pick : Buffer × Buffer → SessionRef × Subscription)
    (given : List (SessionRef × OfflineMessage)) : Prop where
  /-- The plain subscriptions that match, without those that hold back the publisher's own -/
  nodup_subs : subs.Nodup
  mem_subs : ∀ sub, sub ∈ subs ↔ k.stored sub.ss sub.topic = some sub ∧
    topicFilterMatches false sub.topic p.topic ∧ sub.sharename = [] ∧
    ¬ (SubOpts.getNl sub.opts = 0b00000100 ∧ sub.ss.clientId = source)
  /-- The share groups that match -/
  nodup_groups : groups.Nodup
  mem_groups : ∀ sn f, (sn, f) ∈ groups ↔ sn ≠ [] ∧ topicFilterMatches false f p.topic ∧
    ∃ ss sub, k.stored ss f = some sub ∧ sub.sharename = sn
  /-- One member of each share group -/
  held : ∀ sn f, (sn, f) ∈ groups → k.targets (pick (sn, f)).1 sn f = some (pick (sn, f)).2
  /-- Each of them is given the message once, if its user may have it. -/
  given : given.Perm ((subs.map (fun sub => (sub.ss, sub)) ++ groups.map pick).filterMap
    fun i =>
    if b.security.authSubUser (b.security.authSub p.topic) i.1.username = .allow then
      some (i.1, deliverMessage p i.2)
    else none)

namespace Agrees

/-- `find` comes to no subscription twice. -/
theorem nodup_find (ha : Agrees b k) {topic : Buffer}
    (hts : NoWildcards (topicFilterTokens topic)) :
    ((b.subscriptions.subsMap.find topic).map Prod.snd).Nodup := by
  obtain ⟨m, hm⟩ := ha.map
  -- a subscription tells the filter and the client identifier
  refine List.Nodup.of_map (fun sub => (sub.topic, sub.ss.clientId)) ?_
  have hkeys : (((b.subscriptions.subsMap.find topic).map Prod.snd).map
      fun sub => (sub.topic, sub.ss.clientId)).Perm
      ((m.entries.filter fun i => topicFilterMatches false i.1.1 topic).map Sigma.fst) := by
    refine (((hm.map.perm_find hts).map Prod.snd).map _).trans (.of_eq ?_)
    rw [List.map_map, List.map_map]
    refine List.map_congr_left fun i hi => ?_
    have hlookup : m.lookup (i.1.1, i.1.2) = some i.2 :=
      AList.mem_lookup_iff.mpr (List.mem_filter.mp hi).1
    obtain ⟨ss, hss, hclient⟩ := hm.owner _ _ (by rw [hlookup]; rfl)
    rw [← hclient, hm.stored ss hss] at hlookup
    obtain ⟨-, hsub, htopic⟩ := ha.known.stored _ _ _ hlookup
    show (i.2.topic, i.2.ss.clientId) = (i.1.1, i.1.2)
    rw [htopic, hsub, hclient]
  rw [hkeys.nodup_iff]
  exact m.keys_nodup.sublist (List.filter_sublist.map _)

/-- What `do_publish` gives to the sessions -/
theorem fanOut (ha : Agrees b k) (source : SessionRef) (clock : Nat → Nat) {p : PublishParams}
    (hts : NoWildcards (topicFilterTokens p.topic)) :
    ∃ subs groups pick, FanOut b k source.clientId p subs groups pick
      (b.deliveries source clock p) := by
  -- a shared subscription that is stored has an entry in the targets
  have htargets : ∀ i ∈ b.subscriptions.subsMap.find p.topic, i.2.sharename ≠ [] →
      ∃ ss sub, b.subscriptions.sharedTargets.Member ss i.2.sharename i.2.topic sub := by
    rintro ⟨c, sub⟩ hi hshared
    obtain ⟨-, hstored, -⟩ := ha.mem_find.mp hi
    obtain ⟨sub', hsub'⟩ := Option.isSome_iff_exists.mp (ha.known.backed _ _ _ hstored hshared)
    exact ⟨sub.ss, sub', (ha.targets.represents ..).mpr hsub'⟩
  -- the subscriptions that are found are the ones whose filter matches
  have hmem (sub : Subscription) :
      sub ∈ (b.subscriptions.subsMap.find p.topic).map Prod.snd ↔
        k.stored sub.ss sub.topic = some sub ∧ topicFilterMatches false sub.topic p.topic := by
    constructor
    · intro hsub
      obtain ⟨⟨c, sub'⟩, hi, rfl⟩ := List.mem_map.mp hsub
      exact (ha.mem_find.mp hi).2
    · exact fun hsub => List.mem_map.mpr ⟨(sub.ss.clientId, sub), ha.mem_find.mpr ⟨rfl, hsub⟩, rfl⟩
  have hfan := FanState.publishSubs source.clientId clock htargets
  obtain ⟨pick, hpick, hselected⟩ := hfan.selected
  refine ⟨((b.subscriptions.subsMap.find p.topic).map Prod.snd).filter (Serves source.clientId ·),
    _, pick, (ha.nodup_find hts).filter _, fun sub => ?_, hfan.nodup, fun sn f => ?_,
    fun sn f hg => ?_, ?_⟩
  · rw [List.mem_filter, hmem, decide_eq_true_iff, Serves]
    tauto
  -- the direct deliveries are the subscriptions without a share name
  · rw [hfan.mem_sent]
    constructor
    · rintro ⟨sub, hsub, hshared, heq⟩
      obtain ⟨rfl, rfl⟩ := Prod.mk.inj heq
      obtain ⟨hstored, hmatch⟩ := (hmem sub).mp hsub
      exact ⟨hshared, hmatch, sub.ss, sub, hstored, rfl⟩
    · rintro ⟨hshared, hmatch, ss, sub, hstored, rfl⟩
      obtain ⟨-, rfl, rfl⟩ := ha.known.stored ss f sub hstored
      exact ⟨sub, (hmem sub).mpr ⟨hstored, hmatch⟩, hshared, rfl⟩
  · exact (ha.targets.represents ..).mp (hpick (sn, f) hg)
  · unfold deliveries
    refine (hselected.filterMap _).trans (.of_eq ?_)
    rw [List.filterMap_append, List.filterMap_append, List.filterMap_map, List.filterMap_map,
      List.filterMap_map, List.filterMap_map]
    rfl

end Agrees

end Broker

end AsyncMqtt
