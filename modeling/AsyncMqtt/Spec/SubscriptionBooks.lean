import AsyncMqtt.Native.Broker
import AsyncMqtt.Spec.SharedTargetRuns
import AsyncMqtt.Spec.SubscribedHandles

/-!
# Books of the subscriptions

What a broker has to know about its subscriptions: the subscription that a session stored last for a
filter, and the one with which it became a target of a share group. The broker has this in three
places. The subscription map knows the filter and the client identifier, a session knows its handles,
and the shared targets know the client identifier, the share name and the filters.

## Key results

- `Books.Known.subscribe`, `Books.Known.unsubscribe`, `Books.Known.clear`: what the books keep
- `MapHolds.insert`, `MapHolds.erase`, `MapHolds.clear`: the subscription map and the handles
- `TargetsHold.perform`: the shared targets
-/

namespace AsyncMqtt

open MultipleSubscriptionMap (Stored Holds HandlesOf)
open SubscriptionMapBase (Extends)

namespace Broker

variable {ss ss' : SessionRef} {sn f : Buffer} {sub : Subscription} {live live' : Set SessionRef}

/-! ### The books -/

/-- The subscription of a session and a filter, and the target of a session, a share name and a
    filter -/
structure Books where
  stored : SessionRef → Buffer → Option Subscription
  targets : SharedTarget.Roster

namespace Books

variable {k : Books}

/-- Nothing is subscribed. -/
def empty : Books := ⟨fun _ _ => none, fun _ _ _ => none⟩

/-- A subscription takes the place of the one for the filter. A target stays as it is. -/
def subscribe (sub : Subscription) (k : Books) : Books where
  stored ss f := if ss = sub.ss ∧ f = sub.topic then some sub else k.stored ss f
  targets :=
    if sub.sharename = [] then k.targets
    else k.targets.perform (.insert sub.sharename sub.topic sub sub.ss)

/-- The subscription for the filter ends, whatever its share name is. -/
def unsubscribe (ss : SessionRef) (shareName topicFilter : Buffer) (k : Books) : Books where
  stored ss' f := if ss' = ss ∧ f = topicFilter then none else k.stored ss' f
  targets :=
    if shareName = [] then k.targets else k.targets.perform (.erase shareName topicFilter ss)

/-- All subscriptions of a session end. -/
def clear (ss : SessionRef) (k : Books) : Books where
  stored ss' f := if ss' = ss then none else k.stored ss' f
  targets := k.targets.perform (.eraseSession ss)

/-- What stands in the books is about the sessions that there are, and a shared subscription has a
    target. -/
structure Known (live : Set SessionRef) (k : Books) : Prop where
  stored : ∀ ss f sub, k.stored ss f = some sub → ss ∈ live ∧ sub.ss = ss ∧ sub.topic = f
  targets : ∀ ss sn f sub, k.targets ss sn f = some sub →
    ss ∈ live ∧ sn ≠ [] ∧ sub.ss = ss ∧ sub.sharename = sn ∧ sub.topic = f
  backed : ∀ ss f sub, k.stored ss f = some sub → sub.sharename ≠ [] →
    (k.targets ss sub.sharename f).isSome

namespace Known

theorem empty : Known live .empty := by
  refine ⟨?_, ?_, ?_⟩
  · rintro ss f sub ⟨⟩
  · rintro ss sn f sub ⟨⟩
  · rintro ss f sub ⟨⟩

theorem mono (h : k.Known live) (hlive : live ⊆ live') : k.Known live' where
  stored ss f sub hsub := (h.stored ss f sub hsub).imp_left (hlive ·)
  targets ss sn f sub hsub := (h.targets ss sn f sub hsub).imp_left (hlive ·)
  backed := h.backed

theorem subscribe (h : k.Known live) (sub : Subscription) (hss : sub.ss ∈ live) : (k.subscribe sub).Known live := by
  -- a target that is there before is there after
  have hkept (ss : SessionRef) (sn f : Buffer) (hsome : (k.targets ss sn f).isSome) :
      ((k.subscribe sub).targets ss sn f).isSome := by
    unfold Books.subscribe
    dsimp only
    split
    · exact hsome
    · unfold SharedTarget.Roster.perform
      dsimp only
      split
      · next heq =>
        rw [← heq.1, Option.isSome_or, hsome, Bool.true_or]
      · exact hsome
  constructor
  · intro ss f sub' hsub
    unfold Books.subscribe at hsub
    dsimp only at hsub
    split at hsub
    · next heq =>
      obtain ⟨rfl, rfl⟩ := heq
      obtain rfl := Option.some.inj hsub
      exact ⟨hss, rfl, rfl⟩
    · exact h.stored ss f sub' hsub
  · intro ss sn f sub' hsub
    unfold Books.subscribe at hsub
    dsimp only at hsub
    split at hsub
    · exact h.targets ss sn f sub' hsub
    · next hshared =>
      unfold SharedTarget.Roster.perform at hsub
      dsimp only at hsub
      split at hsub
      · next heq =>
        obtain ⟨rfl, rfl, rfl⟩ := heq
        rcases Option.or_eq_some_iff.mp hsub with hsub | ⟨-, hsub⟩
        · exact h.targets _ _ _ sub' hsub
        · obtain rfl := Option.some.inj hsub
          exact ⟨hss, hshared, rfl, rfl, rfl⟩
      · exact h.targets ss sn f sub' hsub
  · intro ss f sub' hsub hshared
    unfold Books.subscribe at hsub
    dsimp only at hsub
    split at hsub
    · next heq =>
      obtain ⟨rfl, rfl⟩ := heq
      obtain rfl := Option.some.inj hsub
      simp [Books.subscribe, SharedTarget.Roster.perform, hshared]
    · exact hkept _ _ _ (h.backed ss f sub' hsub hshared)

theorem unsubscribe (h : k.Known live) (ss : SessionRef) (sn f : Buffer) :
    (k.unsubscribe ss sn f).Known live := by
  have hstored {ss' : SessionRef} {f' : Buffer} {sub : Subscription}
      (hsub : (k.unsubscribe ss sn f).stored ss' f' = some sub) :
      ¬ (ss' = ss ∧ f' = f) ∧ k.stored ss' f' = some sub := by
    unfold Books.unsubscribe at hsub
    dsimp only at hsub
    split at hsub
    · cases hsub
    · next hne => exact ⟨hne, hsub⟩
  constructor
  -- what is still stored was stored before, under another filter or session
  · exact fun ss' f' sub hsub => h.stored ss' f' sub (hstored hsub).2
  · intro ss' sn' f' sub hsub
    unfold Books.unsubscribe at hsub
    dsimp only at hsub
    split at hsub
    · exact h.targets ss' sn' f' sub hsub
    · unfold SharedTarget.Roster.perform at hsub
      dsimp only at hsub
      split at hsub
      · cases hsub
      · exact h.targets ss' sn' f' sub hsub
  · intro ss' f' sub hsub hshared
    obtain ⟨hne, hsub⟩ := hstored hsub
    -- a shared one needs its name in the roster, and only this pair leaves it
    have hbacked := h.backed ss' f' sub hsub hshared
    unfold Books.unsubscribe
    dsimp only
    split
    · exact hbacked
    · unfold SharedTarget.Roster.perform
      dsimp only
      rw [if_neg fun heq => hne ⟨heq.1, heq.2.2⟩]
      exact hbacked

/-- No book is left about a session whose subscriptions have ended. -/
theorem clear (h : k.Known live) : (k.clear ss).Known {ss' ∈ live | ss' ≠ ss} := by
  -- what is left belongs to the other sessions
  constructor
  · intro ss' f sub hsub
    unfold Books.clear at hsub
    dsimp only at hsub
    split at hsub
    · cases hsub
    · next hne =>
      obtain ⟨hlive, hrest⟩ := h.stored ss' f sub hsub
      exact ⟨⟨hlive, hne⟩, hrest⟩
  · intro ss' sn f sub hsub
    unfold Books.clear SharedTarget.Roster.perform at hsub
    dsimp only at hsub
    split at hsub
    · cases hsub
    · next hne =>
      obtain ⟨hlive, hrest⟩ := h.targets ss' sn f sub hsub
      exact ⟨⟨hlive, hne⟩, hrest⟩
  · intro ss' f sub hsub hshared
    unfold Books.clear SharedTarget.Roster.perform at hsub ⊢
    dsimp only at hsub ⊢
    split at hsub
    · cases hsub
    · next hne =>
      rw [if_neg hne]
      exact h.backed ss' f sub hsub hshared

end Known

end Books

/-! ### The subscription map and the handles -/

variable {sessions sessions' : AList fun _ : SessionRef => BrokerSession}
  {subsMap subsMap' : MultipleSubscriptionMap Buffer Subscription}
  {m m' : Stored Buffer Subscription} {k : Books} {s : BrokerSession} {h : PathEntryKey}

/-- The handles of a session are erased, and nothing of it is left in the map. -/
theorem eraseHandles_ok {c : Buffer} {handles : List PathEntryKey} (hm : Holds subsMap m)
    (hh : HandlesOf subsMap m c handles) :
    ∃ subsMap' m', eraseHandles c handles subsMap = .ok subsMap' ∧ Holds subsMap' m' ∧
      Extends subsMap' subsMap ∧ (∀ f, m'.lookup (f, c) = none) ∧
      ∀ f c', c' ≠ c → m'.lookup (f, c') = m.lookup (f, c') := by
  -- the induction is on the handles, with the map they lead into
  induction handles generalizing subsMap m with
  | nil =>
    refine ⟨subsMap, m, rfl, hm, .refl _, fun f => ?_, fun _ _ _ => rfl⟩
    by_contra hsome
    have hsome := Option.isSome_iff_ne_none.mpr hsome
    obtain ⟨h, hlookup⟩ := hm.exists_handle hsome
    have hmem := (hh.mem_iff h).mpr ⟨f, hsome, hlookup⟩
    cases hmem
  | cons h handles ih =>
    obtain ⟨f, -, hlookup⟩ := (hh.mem_iff h).mp List.mem_cons_self
    obtain ⟨subsMap₁, hok₁, hm₁, hext₁, -⟩ := hm.eraseHandle hlookup c
    have hh₁ := hh.erase hm hm₁ hext₁ hlookup
    rw [List.erase_cons_head] at hh₁
    obtain ⟨subsMap', m', hok, hm', hext, hnone, hother⟩ := ih hm₁ hh₁
    refine ⟨subsMap', m', ?_, hm', hext.trans hext₁, hnone, fun f' c' hne => ?_⟩
    · rw [eraseHandles, hok₁]
      exact hok
    · rw [hother f' c' hne, AList.lookup_erase_ne (by simp [hne])]

/-- The sessions have different client identifiers. -/
abbrev Distinct (sessions : AList fun _ : SessionRef => BrokerSession) : Prop :=
  Set.InjOn SessionRef.clientId {ss | ss ∈ sessions}

/-- The subscription map holds what the books say, and a session has the handles of its filters. -/
structure MapHolds (sessions : AList fun _ : SessionRef => BrokerSession)
    (subsMap : MultipleSubscriptionMap Buffer Subscription) (m : Stored Buffer Subscription)
    (k : Books) : Prop where
  map : Holds subsMap m
  stored : ∀ ss ∈ sessions, ∀ f, m.lookup (f, ss.clientId) = k.stored ss f
  owner : ∀ f c, (m.lookup (f, c)).isSome → ∃ ss ∈ sessions, ss.clientId = c
  handles : ∀ ss s, sessions.lookup ss = some s → HandlesOf subsMap m ss.clientId s.handles

namespace MapHolds

theorem make : MapHolds ∅ SubscriptionMapBase.make ∅ .empty := by
  refine ⟨Holds.make, ?_, ?_, ?_⟩
  · rintro ss ⟨⟩
  · rintro f c ⟨⟩
  · rintro ss s ⟨⟩

/-- A session that there is, with other handles -/
theorem mem_setHandles {handles : List PathEntryKey} (hs : sessions.lookup ss = some s) :
    ss' ∈ sessions.insert ss { s with handles } ↔ ss' ∈ sessions := by
  rw [AList.mem_insert]
  refine ⟨fun hor => hor.elim ?_ id, .inr⟩
  rintro rfl
  exact AList.lookup_isSome.mp (by rw [hs]; rfl)

/-- What changes for the filters of one session: the map, its handles, and the books. -/
theorem update {handles : List PathEntryKey} {k' : Books} (hm : MapHolds sessions subsMap m k)
    (hids : Distinct sessions) (hs : sessions.lookup ss = some s) (hmap : Holds subsMap' m')
    (hext : Extends subsMap subsMap' ∨ Extends subsMap' subsMap)
    (hother : ∀ f c, c ≠ ss.clientId → m'.lookup (f, c) = m.lookup (f, c))
    (hstored : ∀ f, m'.lookup (f, ss.clientId) = k'.stored ss f)
    (hbooks : ∀ ss' f, ss' ≠ ss → k'.stored ss' f = k.stored ss' f)
    (hhandles : HandlesOf subsMap' m' ss.clientId handles) :
    MapHolds (sessions.insert ss { s with handles }) subsMap' m' k' := by
  have hss : ss ∈ sessions := AList.lookup_isSome.mp (by rw [hs]; rfl)
  have hne {ss' : SessionRef} (hss' : ss' ∈ sessions) (hne : ss' ≠ ss) :
      ss'.clientId ≠ ss.clientId := fun heq => hne (hids hss' hss heq)
  refine ⟨hmap, fun ss' hss' f => ?_, fun f c hsome => ?_, fun ss' s' hs' => ?_⟩
  -- the session has what it was given, the others what they had
  · rw [mem_setHandles hs] at hss'
    by_cases heq : ss' = ss
    · rw [heq, hstored]
    · rw [hother f _ (hne hss' heq), hbooks ss' f heq, hm.stored ss' hss']
  · by_cases heq : c = ss.clientId
    · exact ⟨ss, (mem_setHandles hs).mpr hss, heq.symm⟩
    · rw [hother f c heq] at hsome
      obtain ⟨ss', hss', hc⟩ := hm.owner f c hsome
      exact ⟨ss', (mem_setHandles hs).mpr hss', hc⟩
  · by_cases heq : ss' = ss
    · subst heq
      rw [AList.lookup_insert] at hs'
      obtain rfl := Option.some.inj hs'
      exact hhandles
    · rw [AList.lookup_insert_ne heq] at hs'
      have hss' : ss' ∈ sessions := AList.lookup_isSome.mp (by rw [hs']; rfl)
      exact (hm.handles ss' s' hs').other hm.map hmap hext fun f => hother f _ (hne hss' heq)

/-- The handles of the session are those that it has. -/
theorem of_setHandles (hm : MapHolds (sessions.insert ss { s with handles := s.handles }) subsMap m k)
    (hs : sessions.lookup ss = some s) : MapHolds sessions subsMap m k where
  map := hm.map
  stored ss' hss' := hm.stored ss' ((mem_setHandles hs).mpr hss')
  owner f c hsome := by
    obtain ⟨ss', hss', hc⟩ := hm.owner f c hsome
    exact ⟨ss', (mem_setHandles hs).mp hss', hc⟩
  handles ss' s' hs' := by
    apply hm.handles ss' s'
    by_cases heq : ss' = ss
    · rw [heq, AList.lookup_insert, ← hs, ← heq, hs']
    · rw [AList.lookup_insert_ne heq, hs']

/-- A subscription is stored, and `h` is the handle of its filter. -/
theorem insert (hm : MapHolds sessions subsMap m k) (hids : Distinct sessions) (sub : Subscription)
    (hs : sessions.lookup sub.ss = some s)
    (hmap : Holds subsMap' (m.insert (sub.topic, sub.ss.clientId) sub))
    (hext : Extends subsMap subsMap') (hh : subsMap'.lookup sub.topic = some h) :
    MapHolds (sessions.insert sub.ss { s with
      handles := if (m.lookup (sub.topic, sub.ss.clientId)).isNone then List.insert h s.handles
        else s.handles }) subsMap' (m.insert (sub.topic, sub.ss.clientId) sub) (k.subscribe sub) := by
  have hss : sub.ss ∈ sessions := AList.lookup_isSome.mp (by rw [hs]; rfl)
  refine hm.update hids hs hmap (.inl hext) (fun f c hne => ?_) (fun f => ?_) (fun ss' f hne => ?_)
    ((hm.handles sub.ss s hs).insert hm.map hmap hext hh)
  · exact AList.lookup_insert_ne (by simp [hne])
  · unfold Books.subscribe
    dsimp only
    -- the pair is the new one, or it is held as before
    by_cases hf : f = sub.topic
    · rw [hf, AList.lookup_insert, if_pos ⟨rfl, rfl⟩]
    · rw [AList.lookup_insert_ne (by simp [hf]), if_neg fun heq => hf heq.2]
      exact hm.stored sub.ss hss f
  · unfold Books.subscribe
    exact if_neg fun heq => hne heq.1

/-- What is stored for a filter is erased. -/
theorem erase (hm : MapHolds sessions subsMap m k) (hids : Distinct sessions) (sn : Buffer)
    (hs : sessions.lookup ss = some s) (hmap : Holds subsMap' (m.erase (f, ss.clientId)))
    (hext : Extends subsMap' subsMap) (hh : subsMap.lookup f = some h) :
    MapHolds (sessions.insert ss { s with handles := s.handles.erase h }) subsMap'
      (m.erase (f, ss.clientId)) (k.unsubscribe ss sn f) := by
  have hss : ss ∈ sessions := AList.lookup_isSome.mp (by rw [hs]; rfl)
  refine hm.update hids hs hmap (.inr hext) (fun f' c hne => ?_) (fun f' => ?_)
    (fun ss' f' hne => ?_) ((hm.handles ss s hs).erase hm.map hmap hext hh)
  · exact AList.lookup_erase_ne (by simp [hne])
  · unfold Books.unsubscribe
    dsimp only
    by_cases hf : f' = f
    · rw [hf, AList.lookup_erase, if_pos ⟨rfl, rfl⟩]
    · rw [AList.lookup_erase_ne (by simp [hf]), if_neg fun heq => hf heq.2]
      exact hm.stored ss hss f'
  · unfold Books.unsubscribe
    exact if_neg fun heq => hne heq.1

/-- Nothing is stored for the filter. -/
theorem erase_of_none (hm : MapHolds sessions subsMap m k) (hnone : subsMap.lookup f = none) :
    MapHolds sessions subsMap m (k.unsubscribe ss sn f) := by
  refine ⟨hm.map, fun ss' hss' f' => ?_, hm.owner, hm.handles⟩
  rw [hm.stored ss' hss' f']
  unfold Books.unsubscribe
  dsimp only
  split
  · next heq => rw [← hm.stored ss' hss' f', heq.2, hm.map.lookup_eq_none hnone]
  · rfl

end MapHolds

/-! ### The shared targets -/

variable {t t' : SharedTarget} {r : SharedTarget.Roster}

/-- The shared targets hold what the books say, for the sessions that there are. -/
structure TargetsHold (live : Set SessionRef) (t : SharedTarget) (r : SharedTarget.Roster) :
    Prop where
  represents : t.Represents r
  owners : ∀ e ∈ t, e.ss ∈ live
  keys : ∀ ss ∈ live, t.Keys ss

namespace TargetsHold

theorem make : TargetsHold live [] fun _ _ _ => none := by
  refine ⟨fun ss sn f sub => ⟨?_, ?_⟩, ?_, fun ss _ => ⟨List.nodup_nil, ?_⟩⟩
  · rintro ⟨e, ⟨⟩, -⟩
  · rintro ⟨⟩
  · rintro e ⟨⟩
  · rintro e ⟨⟩

/-- The entries are the same, apart from their order and their time points. -/
theorem of_perm (h : TargetsHold live t r)
    (hperm : (t'.map SharedTarget.Entry.untimed).Perm (t.map SharedTarget.Entry.untimed)) :
    TargetsHold live t' r := by
  have howners : (t'.map SharedTarget.Entry.owner).Perm (t.map SharedTarget.Entry.owner) := by
    have hmap := hperm.map SharedTarget.Entry.owner
    rwa [List.map_map, List.map_map] at hmap
  refine ⟨fun ss sn f sub => ?_, fun e he => ?_, fun ss hss => ?_⟩
  · exact (SharedTarget.member_iff_of_perm hperm).trans (h.represents ss sn f sub)
  · obtain ⟨e', he', heq⟩ := List.mem_map.mp (howners.mem_iff.mp (List.mem_map_of_mem he))
    rw [← (Prod.mk.inj heq).1]
    exact h.owners e' he'
  · exact (h.keys ss hss).of_owners howners.subperm

/-- A call about a session that there is -/
theorem perform (h : TargetsHold live t r) (hids : Set.InjOn SessionRef.clientId live) (now : Nat)
    (call : SharedTarget.Call) (hcall : ∀ ss, call.session = some ss → ss ∈ live) :
    TargetsHold live (t.perform now call) (r.perform call) := by
  refine ⟨h.represents.perform fun ss hss => h.keys ss (hcall ss hss), fun e he => ?_, ?_⟩
  · rcases SharedTarget.mem_perform he with ⟨e', he', howner, -⟩ | ⟨-, -, hstamps⟩
    · rw [← (Prod.mk.inj howner).1]
      exact h.owners e' he'
    · cases call with
      | insert _ _ _ _ => exact hstamps.1 ▸ hcall _ rfl
      | erase _ _ _ => exact hstamps.elim
      | eraseSession _ => exact hstamps.elim
      | getTarget _ _ =>
        obtain ⟨e', he', hss⟩ := SharedTarget.exists_entry_of_chosen hstamps.2
        exact hss ▸ h.owners e' he'
  · exact fun ss hss => (h.keys ss hss).perform fun ss' hss' hclient =>
      hids (hcall ss' hss') hss hclient

/-- A session with a client identifier that no other session has -/
theorem insert (h : TargetsHold live t r) (hnew : ∀ ss' ∈ live, ss'.clientId ≠ ss.clientId) :
    TargetsHold (Insert.insert ss live) t r := by
  refine ⟨h.represents, fun e he => .inr (h.owners e he), ?_⟩
  rintro ss' (rfl | hss')
  · constructor
    · cases t with
      | nil => exact List.nodup_nil
      | cons e t => exact (h.keys e.ss (h.owners e List.mem_cons_self)).nodup
    · exact fun e he hclient => absurd hclient (hnew e.ss (h.owners e he))
  · exact h.keys ss' hss'

/-- No target is left of a session whose subscriptions have ended. -/
theorem eraseSession (h : TargetsHold live t r) (hids : Set.InjOn SessionRef.clientId live)
    (hss : ss ∈ live) :
    TargetsHold {ss' ∈ live | ss' ≠ ss} (t.eraseSession ss) (r.perform (.eraseSession ss)) := by
  have hcall : ∀ ss', (SharedTarget.Call.eraseSession ss).session = some ss' → ss' ∈ live := by
    rintro ss' ⟨⟩
    exact hss
  have hall := h.perform hids 0 _ hcall
  refine ⟨hall.represents, fun e he => ⟨hall.owners e he, ?_⟩, fun ss' hss' => hall.keys ss' hss'.1⟩
  rintro rfl
  simp [SharedTarget.eraseSession] at he

end TargetsHold

end Broker

end AsyncMqtt
