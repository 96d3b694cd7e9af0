import AsyncMqtt.ForStd.Run
import AsyncMqtt.Spec.SharedTargetTurns
import AsyncMqtt.Spec.SubscriptionMapCorrect

/-!
# Shared and plain subscriptions of a session

Which pairs of a share name and a filter `do_publish` can select a session for. The entry of the
subscription map belongs to the filter and the client, whatever the share name is, and so the pairs
are only those that are subscribed as long as the session has one share name for a filter at a time.

## Key results

- `Subscriptions.Agrees.perform`: what one call does
- `Subscriptions.selectable_iff_held`: the pairs that can be selected after a run
- `Subscriptions.unsubscribed_share_name_ends_plain`: a run with two share names for one filter
-/

namespace AsyncMqtt

open MultipleSubscriptionMap (Stored Holds)

namespace Subscriptions

/-- The QoS, Retain As Published and the subscription identifier -/
abbrev Options := UInt8 × UInt8 × Option Nat

/-- What `deliver` reads of the options -/
def options (opts : UInt8) (sid : Option Nat) : Options :=
  (SubOpts.getQos opts, SubOpts.getRap opts, sid)

/-- What `deliver` reads of a subscription -/
def optionsOf (sub : Subscription) : Options := options sub.opts sub.sid

/-- A call of a session -/
inductive Call where
  | subscribe (now : Nat) (shareName topicFilter : Buffer) (subopts : UInt8) (sid : Option Nat)
  | unsubscribe (shareName topicFilter : Buffer)
  | publish (topic : Buffer) (clock : Nat → Nat)

/-- The call is made. -/
def perform (ss : SessionRef) (s : Subscriptions) :
    Call → Except SubscriptionMapError Subscriptions
  | .subscribe now shareName topicFilter subopts sid => do
    let (_, s) ← s.subscribe now ss shareName topicFilter subopts sid
    .ok s
  | .unsubscribe shareName topicFilter => s.unsubscribe ss shareName topicFilter
  | .publish topic clock =>
    .ok { s with sharedTargets := (s.publishSubs ss.clientId topic clock).sharedTargets }

/-- A run of calls, of which none has thrown -/
inductive Runs : List (SessionRef × Call) → Subscriptions → Prop
  | make : Runs [] make
  | step {calls s s'} (ss call) (hr : Runs calls s) (hcall : s.perform ss call = .ok s') :
      Runs (calls ++ [(ss, call)]) s'

/-! ### What is subscribed -/

/-- The pairs of a share name and a filter that a session has subscribed and not unsubscribed since,
    with the options of the latest subscription -/
abbrev Held := Buffer × Buffer → Option Options

/-- What a call adds or removes. -/
def heldStep (ss : SessionRef) (h : Held) : SessionRef × Call → Held
  | (ss', .subscribe _ shareName topicFilter subopts sid) =>
    if ss' = ss then Function.update h (shareName, topicFilter) (some (options subopts sid)) else h
  | (ss', .unsubscribe shareName topicFilter) =>
    if ss' = ss then Function.update h (shareName, topicFilter) none else h
  | (_, .publish _ _) => h

/-- What is held after the calls. -/
def held (ss : SessionRef) (calls : List (SessionRef × Call)) : Held :=
  Run.final (heldStep ss) (fun _ => none) calls

/-- The session has no other share name for the filter. -/
def Held.OnlyName (h : Held) (shareName topicFilter : Buffer) : Prop :=
  ∀ sn o, h (sn, topicFilter) = some o → sn = shareName

/-- A session subscribes a filter under one share name at a time, and a shared subscription is not
    subscribed again with other options. No other session has its client identifier. -/
def Separate (ss : SessionRef) (h : Held) : SessionRef × Call → Prop
  | (ss', .subscribe _ shareName topicFilter subopts sid) =>
    if ss' = ss then
      h.OnlyName shareName topicFilter ∧
        (shareName ≠ [] → ∀ o, h (shareName, topicFilter) = some o → o = options subopts sid)
    else ss'.clientId ≠ ss.clientId
  | (ss', .unsubscribe shareName topicFilter) =>
    if ss' = ss then h.OnlyName shareName topicFilter else ss'.clientId ≠ ss.clientId
  | (_, .publish _ _) => True

/-! ### What can be selected -/

/-- `do_publish` can select the session for the share name and the filter when it publishes to the
    topic, with these options. For a shared subscription it calls `getTarget`, and the session has
    its turn after some calls of it. Calls of `do_publish` can run at the same time, since they hold
    the lock of `shared_targets_` in `getTarget` only. -/
def Selectable (s : Subscriptions) (ss : SessionRef) (topic shareName topicFilter : Buffer)
    (o : Options) : Prop :=
  ∃ sub, optionsOf sub = o ∧
    if shareName = [] then
      ∃ source clock, ⟨ss, [], topicFilter, sub⟩ ∈ (s.publishSubs source topic clock).selected
    else
      (∃ source clock, (shareName, topicFilter) ∈ (s.publishSubs source topic clock).sent) ∧
        ∃ n clock, StrictMono clock ∧ (∀ e ∈ s.sharedTargets, e.tp < clock 0) ∧
          ((s.sharedTargets.turns shareName topicFilter ((List.range n).map clock)).getTarget
            (clock n) shareName topicFilter).1 = some (ss, sub)

/-! ### The callback of `do_publish` -/

section PublishSubs

variable {source topic : Buffer} {now : Nat} {st : PublishState} {sub : Subscription}
  {ss : SessionRef} {s : Subscriptions} {clock : Nat → Nat}

/-- What the selections come from -/
structure Sound (s : Subscriptions) (found : List Subscription) (ss : SessionRef)
    (st : PublishState) : Prop where
  members : ∀ ss sn f sub, st.sharedTargets.Member ss sn f sub ↔ s.sharedTargets.Member ss sn f sub
  keys : s.sharedTargets.Keys ss → st.sharedTargets.Keys ss
  selected : ∀ i ∈ st.selected,
    (i.sharename = [] ∧ i.sub ∈ found ∧ i.sub.sharename = [] ∧ i.ss = i.sub.ss ∧
      i.topicFilter = i.sub.topic) ∨
    (i.sharename ≠ [] ∧ s.sharedTargets.Member i.ss i.sharename i.topicFilter i.sub)

theorem Sound.publishSub {found : List Subscription} (h : Sound s found ss st) (hsub : sub ∈ found) :
    Sound s found ss (publishSub source now st sub) := by
  unfold Subscriptions.publishSub
  split
  · next hplain =>
    split
    · exact h
    · refine ⟨h.members, h.keys, fun i hi => ?_⟩
      rcases List.mem_append.mp hi with hi | hi
      · exact h.selected i hi
      · obtain rfl := List.mem_singleton.mp hi
        exact .inl ⟨rfl, hsub, hplain, rfl, rfl⟩
  · next hshared =>
    split
    · exact h
    · refine ⟨?_, fun hkeys => (h.keys hkeys).getTarget, fun i hi => ?_⟩
      · intro ss sn f sub'
        exact SharedTarget.member_getTarget.trans (h.members ss sn f sub')
      · rcases List.mem_append.mp hi with hi | hi
        · exact h.selected i hi
        · obtain ⟨⟨target, sub'⟩, htarget, rfl⟩ := List.mem_map.mp hi
          have hmember := SharedTarget.member_of_getTarget (Option.mem_toList.mp htarget)
          exact .inr ⟨hshared, (h.members ..).mp hmember⟩

/-- What the selections of `do_publish` come from -/
theorem sound_publishSubs (s : Subscriptions) (ss : SessionRef) (source topic : Buffer)
    (clock : Nat → Nat) :
    Sound s ((s.subsMap.find topic).map Prod.snd) ss (s.publishSubs source topic clock) := by
  unfold publishSubs
  have hinit : Sound s ((s.subsMap.find topic).map Prod.snd) ss ⟨[], s.sharedTargets, []⟩ :=
    ⟨fun _ _ _ _ => Iff.rfl, id, nofun⟩
  have hfound : ∀ i ∈ (s.subsMap.find topic).zipIdx, i.1.2 ∈ (s.subsMap.find topic).map Prod.snd :=
    fun i hi => List.mem_map_of_mem (List.fst_mem_of_mem_zipIdx hi)
  generalize (s.subsMap.find topic).zipIdx = is at hfound
  generalize (⟨[], s.sharedTargets, []⟩ : PublishState) = st at hinit
  induction is generalizing st with
  | nil => exact hinit
  | cons i is ih =>
    obtain ⟨hi, his⟩ := List.forall_mem_cons.mp hfound
    exact ih his _ (hinit.publishSub hi)

/-- A callback keeps what has been selected and asked for. -/
theorem publishSub_grows (source : Buffer) (now : Nat) (st : PublishState) (sub : Subscription) :
    st.selected ⊆ (publishSub source now st sub).selected ∧
      st.sent ⊆ (publishSub source now st sub).sent := by
  unfold publishSub
  split
  · split
    · exact ⟨List.Subset.refl _, List.Subset.refl _⟩
    · exact ⟨List.subset_append_left .., List.Subset.refl _⟩
  · split
    · exact ⟨List.Subset.refl _, List.Subset.refl _⟩
    · exact ⟨List.subset_append_left .., List.subset_cons_self ..⟩

/-- The callback has been called for a subscription. -/
def CalledBack (source : Buffer) (sub : Subscription) (st : PublishState) : Prop :=
  (sub.sharename = [] → sub.ss.clientId ≠ source →
    ⟨sub.ss, [], sub.topic, sub⟩ ∈ st.selected) ∧
  (sub.sharename ≠ [] → (sub.sharename, sub.topic) ∈ st.sent)

theorem calledBack_publishSub (source : Buffer) (now : Nat) (st : PublishState)
    (sub : Subscription) : CalledBack source sub (publishSub source now st sub) := by
  unfold publishSub
  split
  · next hplain =>
    refine ⟨fun _ hne => ?_, fun hshared => absurd hplain hshared⟩
    rw [if_neg fun h => hne h.2]
    simp
  · next hshared =>
    refine ⟨fun hplain => absurd hplain hshared, fun _ => ?_⟩
    split
    · next hsent => exact hsent
    · simp

/-- Every subscription that is found is called back. -/
theorem calledBack_publishSubs (source : Buffer) (clock : Nat → Nat)
    (hsub : sub ∈ (s.subsMap.find topic).map Prod.snd) :
    CalledBack source sub (s.publishSubs source topic clock) := by
  obtain ⟨i, hi, rfl⟩ := List.mem_map.mp hsub
  obtain ⟨n, hn⟩ := List.mem_iff_getElem?.mp hi
  have hmem : (i, n) ∈ (s.subsMap.find topic).zipIdx := List.mem_zipIdx_iff_getElem?.mpr hn
  unfold publishSubs
  obtain ⟨before, after, hsplit⟩ := List.append_of_mem hmem
  rw [hsplit, List.foldl_append, List.foldl_cons]
  -- what comes after the callback keeps what it did
  have hgrows (st : PublishState) : st.selected ⊆ (after.foldl
      (fun st i => publishSub source (clock i.2) st i.1.2) st).selected ∧
      st.sent ⊆ (after.foldl (fun st i => publishSub source (clock i.2) st i.1.2) st).sent := by
    clear hsplit
    induction after generalizing st with
    | nil => exact ⟨List.Subset.refl _, List.Subset.refl _⟩
    | cons i after ih =>
      have hstep := publishSub_grows source (clock i.2) st i.1.2
      have hrest := ih (publishSub source (clock i.2) st i.1.2)
      exact ⟨List.Subset.trans hstep.1 hrest.1, List.Subset.trans hstep.2 hrest.2⟩
  obtain ⟨hplain, hshared⟩ := calledBack_publishSub source (clock n)
    (before.foldl (fun st i => publishSub source (clock i.2) st i.1.2) ⟨[], s.sharedTargets, []⟩) i.2
  exact ⟨fun h hne => (hgrows _).1 (hplain h hne), fun h => (hgrows _).2 (hshared h)⟩

end PublishSubs

/-! ### One call -/

variable {s s' : Subscriptions} {ss ss' : SessionRef} {h : Held} {sn f : Buffer} {opts : UInt8}
  {sid : Option Nat} {now : Nat} {o : Options}

/-- The subscription map holds what the session has subscribed, one share name for a filter. -/
structure MapAgrees (m : Stored Buffer Subscription) (ss : SessionRef) (h : Held) : Prop where
  topic : ∀ f k sub, m.lookup (f, k) = some sub → sub.topic = f ∧ sub.ss.clientId = k
  held : ∀ f sub, m.lookup (f, ss.clientId) = some sub →
    sub.ss = ss ∧ h (sub.sharename, f) = some (optionsOf sub)
  stored : ∀ sn f o, h (sn, f) = some o →
    ∃ sub, m.lookup (f, ss.clientId) = some sub ∧ sub.sharename = sn

namespace MapAgrees

variable {m : Stored Buffer Subscription}

theorem insert (hm : MapAgrees m ss h) (hname : h.OnlyName sn f) :
    MapAgrees (m.insert (f, ss.clientId) ⟨ss, sn, f, opts, sid⟩) ss
      (Function.update h (sn, f) (some (options opts sid))) := by
  -- the value belongs to the session, and under its filter it is the new one
  constructor
  · intro f' k sub hsub
    by_cases heq : (f', k) = (f, ss.clientId)
    · rw [heq, AList.lookup_insert] at hsub
      obtain ⟨rfl, rfl⟩ := Prod.mk.inj heq
      obtain rfl := Option.some.inj hsub
      exact ⟨rfl, rfl⟩
    · rw [AList.lookup_insert_ne heq] at hsub
      exact hm.topic f' k sub hsub
  · intro f' sub hsub
    by_cases hf : f' = f
    · subst hf
      rw [AList.lookup_insert] at hsub
      obtain rfl := Option.some.inj hsub
      exact ⟨rfl, by simp [optionsOf]⟩
    · rw [AList.lookup_insert_ne (by simpa using hf)] at hsub
      obtain ⟨hss, hheld⟩ := hm.held f' sub hsub
      rw [Function.update_of_ne (by simp [hf])]
      exact ⟨hss, hheld⟩
  · intro sn' f' o ho
    by_cases hf : f' = f
    -- under the filter the session holds only this name
    · subst hf
      have hsn : sn' = sn := by
        by_contra hne
        rw [Function.update_of_ne (by simp [hne])] at ho
        exact hne (hname sn' o ho)
      exact ⟨_, AList.lookup_insert m, hsn.symm⟩
    · rw [Function.update_of_ne (by simp [hf])] at ho
      rw [AList.lookup_insert_ne (by simpa using hf)]
      exact hm.stored sn' f' o ho

theorem erase (hm : MapAgrees m ss h) (hname : h.OnlyName sn f) :
    MapAgrees (m.erase (f, ss.clientId)) ss (Function.update h (sn, f) none) := by
  have hne {f' : Buffer} {k : Buffer} {sub : Subscription}
      (hsub : (m.erase (f, ss.clientId)).lookup (f', k) = some sub) :
      (f', k) ≠ (f, ss.clientId) := by
    intro heq
    rw [heq, AList.lookup_erase] at hsub
    exact nomatch hsub
  -- what is still there is of another filter or client
  constructor
  · intro f' k sub hsub
    have hkey := hne hsub
    rw [AList.lookup_erase_ne hkey] at hsub
    exact hm.topic f' k sub hsub
  · intro f' sub hsub
    have hf : f' ≠ f := by simpa using hne hsub
    rw [AList.lookup_erase_ne (by simpa using hf)] at hsub
    rw [Function.update_of_ne (by simp [hf])]
    exact hm.held f' sub hsub
  · intro sn' f' o ho
    by_cases hf : f' = f
    -- the pair that held the filter is gone
    · subst hf
      by_cases hsn : sn' = sn
      · rw [hsn, Function.update_self] at ho
        exact nomatch ho
      · rw [Function.update_of_ne (by simp [hsn])] at ho
        exact absurd (hname sn' o ho) hsn
    · rw [Function.update_of_ne (by simp [hf])] at ho
      rw [AList.lookup_erase_ne (by simpa using hf)]
      exact hm.stored sn' f' o ho

/-- A session with another client identifier -/
theorem insert_other (hm : MapAgrees m ss h) (hne : ss'.clientId ≠ ss.clientId) :
    MapAgrees (m.insert (f, ss'.clientId) ⟨ss', sn, f, opts, sid⟩) ss h := by
  have hkey (f' : Buffer) : (f', ss.clientId) ≠ (f, ss'.clientId) := fun heq =>
    hne (Prod.mk.inj heq).2.symm
  constructor
  · intro f' k sub hsub
    by_cases heq : (f', k) = (f, ss'.clientId)
    · rw [heq, AList.lookup_insert] at hsub
      obtain ⟨rfl, rfl⟩ := Prod.mk.inj heq
      obtain rfl := Option.some.inj hsub
      exact ⟨rfl, rfl⟩
    · rw [AList.lookup_insert_ne heq] at hsub
      exact hm.topic f' k sub hsub
  · intro f' sub hsub
    rw [AList.lookup_insert_ne (hkey f')] at hsub
    exact hm.held f' sub hsub
  · intro sn' f' o ho
    rw [AList.lookup_insert_ne (hkey f')]
    exact hm.stored sn' f' o ho

theorem erase_other (hm : MapAgrees m ss h) (hne : ss'.clientId ≠ ss.clientId) :
    MapAgrees (m.erase (f, ss'.clientId)) ss h := by
  have hkey (f' : Buffer) : (f', ss.clientId) ≠ (f, ss'.clientId) := fun heq =>
    hne (Prod.mk.inj heq).2.symm
  constructor
  · intro f' k sub hsub
    by_cases heq : (f', k) = (f, ss'.clientId)
    · rw [heq, AList.lookup_erase] at hsub
      exact nomatch hsub
    · rw [AList.lookup_erase_ne heq] at hsub
      exact hm.topic f' k sub hsub
  · intro f' sub hsub
    rw [AList.lookup_erase_ne (hkey f')] at hsub
    exact hm.held f' sub hsub
  · intro sn' f' o ho
    rw [AList.lookup_erase_ne (hkey f')]
    exact hm.stored sn' f' o ho

end MapAgrees

/-- The shared targets hold the shared subscriptions of the session. -/
structure TargetsAgree (t : SharedTarget) (ss : SessionRef) (h : Held) : Prop where
  keys : t.Keys ss
  held : ∀ sn f sub, t.Member ss sn f sub → sn ≠ [] ∧ h (sn, f) = some (optionsOf sub)
  member : ∀ sn f o, sn ≠ [] → h (sn, f) = some o → ∃ sub, t.Member ss sn f sub

namespace TargetsAgree

variable {t t' : SharedTarget}

/-- Plain subscriptions do not stand in the shared targets. -/
theorem update_plain (ht : TargetsAgree t ss h) (x : Option Options) :
    TargetsAgree t ss (Function.update h ([], f) x) := by
  refine ⟨ht.keys, fun sn' f' sub hsub => ?_, fun sn' f' o hne ho => ?_⟩
  · obtain ⟨hne, hheld⟩ := ht.held sn' f' sub hsub
    rw [Function.update_of_ne (by simp [hne])]
    exact ⟨hne, hheld⟩
  · rw [Function.update_of_ne (by simp [hne])] at ho
    exact ht.member sn' f' o hne ho

theorem insert (ht : TargetsAgree t ss h) (hsn : sn ≠ [])
    (hsame : ∀ o, h (sn, f) = some o → o = options opts sid) :
    TargetsAgree (t.insert now sn f ⟨ss, sn, f, opts, sid⟩ ss) ss
      (Function.update h (sn, f) (some (options opts sid))) := by
  have hmember (sn' f' : Buffer) (sub' : Subscription) :
      (t.insert now sn f ⟨ss, sn, f, opts, sid⟩ ss).Member ss sn' f' sub' ↔ _ :=
    SharedTarget.member_insert ht.keys.nodup ht.keys.own
  refine ⟨ht.keys.insert fun _ => rfl, fun sn' f' sub hsub => ?_, fun sn' f' o hne ho => ?_⟩
  · rcases (hmember sn' f' sub).mp hsub with hsub | ⟨rfl, rfl, rfl, -⟩
    · obtain ⟨hne, hheld⟩ := ht.held sn' f' sub hsub
      refine ⟨hne, ?_⟩
      by_cases heq : (sn', f') = (sn, f)
      · -- the first subscription stays, and has the same options
        rw [heq] at hheld ⊢
        rw [Function.update_self, hsame _ hheld]
      · rw [Function.update_of_ne heq, hheld]
    · exact ⟨hsn, by simp [optionsOf]⟩
  · by_cases heq : (sn', f') = (sn, f)
    · obtain ⟨rfl, rfl⟩ := Prod.mk.inj heq
      by_cases hex : ∃ sub, t.Member ss sn' f' sub
      · obtain ⟨sub, hsub⟩ := hex
        exact ⟨sub, (hmember ..).mpr (.inl hsub)⟩
      · exact ⟨_, (hmember ..).mpr (.inr ⟨rfl, rfl, rfl, fun sub hsub => hex ⟨sub, hsub⟩⟩)⟩
    · rw [Function.update_of_ne heq] at ho
      obtain ⟨sub, hsub⟩ := ht.member sn' f' o hne ho
      exact ⟨sub, (hmember ..).mpr (.inl hsub)⟩

theorem erase (ht : TargetsAgree t ss h) :
    TargetsAgree (t.erase sn f ss) ss (Function.update h (sn, f) none) := by
  refine ⟨ht.keys.erase, fun sn' f' sub hsub => ?_, fun sn' f' o hne ho => ?_⟩
  · obtain ⟨hsub, hpair⟩ := SharedTarget.member_erase.mp hsub
    rw [Function.update_of_ne (by simpa using hpair)]
    exact ht.held sn' f' sub hsub
  · have hpair : ¬ (sn' = sn ∧ f' = f) := by
      rintro ⟨rfl, rfl⟩
      rw [Function.update_self] at ho
      exact nomatch ho
    rw [Function.update_of_ne (by simpa using hpair)] at ho
    obtain ⟨sub, hsub⟩ := ht.member sn' f' o hne ho
    exact ⟨sub, SharedTarget.member_erase.mpr ⟨hsub, hpair⟩⟩

/-- The session keeps its members. -/
theorem of_member_iff (ht : TargetsAgree t ss h) (hkeys : t'.Keys ss)
    (hmember : ∀ sn f sub, t'.Member ss sn f sub ↔ t.Member ss sn f sub) :
    TargetsAgree t' ss h := by
  refine ⟨hkeys, fun sn' f' sub hsub => ht.held sn' f' sub ((hmember ..).mp hsub), ?_⟩
  intro sn' f' o hne ho
  obtain ⟨sub, hsub⟩ := ht.member sn' f' o hne ho
  exact ⟨sub, (hmember ..).mpr hsub⟩

end TargetsAgree

/-- The subscription map and the shared targets hold what the session has subscribed. -/
structure Agrees (s : Subscriptions) (ss : SessionRef) (h : Held) : Prop where
  map : ∃ m, Holds s.subsMap m ∧ MapAgrees m ss h
  targets : TargetsAgree s.sharedTargets ss h

namespace Agrees

theorem make : Agrees make ss fun _ => none :=
  ⟨⟨∅, Holds.make, nofun, nofun, nofun⟩, ⟨List.nodup_nil, nofun⟩, nofun, nofun⟩

/-- What `subscribe` does to the two containers -/
theorem subscribe_ok {m : Stored Buffer Subscription} {r : Bool} (hm : Holds s.subsMap m)
    (hcall : s.subscribe now ss' sn f opts sid = .ok (r, s')) :
    Holds s'.subsMap (m.insert (f, ss'.clientId) ⟨ss', sn, f, opts, sid⟩) ∧
      s'.sharedTargets = if sn = [] then s.sharedTargets
        else s.sharedTargets.insert now sn f ⟨ss', sn, f, opts, sid⟩ ss' := by
  unfold Subscriptions.subscribe at hcall
  dsimp only at hcall
  rcases hm.insertOrAssign f ss'.clientId ⟨ss', sn, f, opts, sid⟩ with
    ⟨handle, m', hok, hm', -⟩ | ⟨herror, -⟩
  · rw [hok] at hcall
    obtain ⟨-, rfl⟩ := Prod.mk.inj (Except.ok.inj hcall)
    exact ⟨hm', rfl⟩
  · rw [herror] at hcall
    exact nomatch hcall

/-- What `unsubscribe` does to the two containers -/
theorem unsubscribe_ok {m : Stored Buffer Subscription} (hm : Holds s.subsMap m)
    (hcall : s.unsubscribe ss' sn f = .ok s') :
    Holds s'.subsMap (m.erase (f, ss'.clientId)) ∧
      s'.sharedTargets = if sn = [] then s.sharedTargets
        else s.sharedTargets.erase sn f ss' := by
  unfold Subscriptions.unsubscribe at hcall
  dsimp only at hcall
  cases hlookup : s.subsMap.lookup f with
  | none =>
    rw [hlookup] at hcall
    obtain rfl := Except.ok.inj hcall
    -- the filter has no node, and so nothing is stored for it
    have hnone : m.lookup (f, ss'.clientId) = none := by
      by_contra hsome
      have hmem := MultipleSubscriptionMap.mem_filters.mpr
        ⟨ss'.clientId, Option.isSome_iff_ne_none.mpr hsome⟩
      have hnode := hm.isSome_lookup.mpr ⟨_, hmem, List.prefix_rfl⟩
      rw [hlookup] at hnode
      exact nomatch hnode
    rw [AList.erase_of_none hnone]
    exact ⟨hm, rfl⟩
  | some handle =>
    rw [hlookup] at hcall
    obtain ⟨m', hok, hm', -⟩ := hm.eraseHandle hlookup ss'.clientId
    dsimp only at hcall
    rw [hok] at hcall
    obtain rfl := Except.ok.inj hcall
    exact ⟨hm', rfl⟩

/-- What one call does. -/
theorem perform {call : Call} (ha : Agrees s ss h) (hok : Separate ss h (ss', call))
    (hcall : s.perform ss' call = .ok s') : Agrees s' ss (heldStep ss h (ss', call)) := by
  obtain ⟨m, hm, hmap⟩ := ha.map
  cases call with
  | subscribe now sn f opts sid =>
    obtain ⟨⟨r, s''⟩, hsub, hret⟩ := Except.bind_eq_ok.mp hcall
    obtain rfl := Except.ok.inj hret
    obtain ⟨hm', htargets⟩ := subscribe_ok hm hsub
    unfold Separate at hok
    unfold heldStep
    dsimp only at hok ⊢
    split at hok
    -- the session that is looked at
    · next heq =>
      subst heq
      rw [if_pos rfl]
      refine ⟨⟨_, hm', hmap.insert hok.1⟩, ?_⟩
      rw [htargets]
      split
      · next hsn =>
        subst hsn
        exact ha.targets.update_plain _
      · next hsn => exact ha.targets.insert hsn (hok.2 hsn)
    -- another session, whose subscriptions are other pairs
    · next hss =>
      rw [if_neg hss]
      refine ⟨⟨_, hm', hmap.insert_other hok⟩, ?_⟩
      rw [htargets]
      split
      · exact ha.targets
      · exact ha.targets.of_member_iff (ha.targets.keys.insert fun heq => absurd heq hok)
          fun _ _ _ => SharedTarget.member_insert_other hok.symm
  | unsubscribe sn f =>
    obtain ⟨hm', htargets⟩ := unsubscribe_ok hm hcall
    unfold Separate at hok
    unfold heldStep
    dsimp only at hok ⊢
    split at hok
    · next heq =>
      subst heq
      rw [if_pos rfl]
      refine ⟨⟨_, hm', hmap.erase hok⟩, ?_⟩
      rw [htargets]
      split
      · next hsn =>
        subst hsn
        exact ha.targets.update_plain _
      · exact ha.targets.erase
    · next hss =>
      rw [if_neg hss]
      refine ⟨⟨_, hm', hmap.erase_other hok⟩, ?_⟩
      rw [htargets]
      split
      · exact ha.targets
      · exact ha.targets.of_member_iff ha.targets.keys.erase
          fun _ _ _ => SharedTarget.member_erase_other hok.symm
  | publish topic clock =>
    obtain rfl := Except.ok.inj hcall
    have hsound := sound_publishSubs s ss ss'.clientId topic clock
    exact ⟨⟨m, hm, hmap⟩, ha.targets.of_member_iff (hsound.keys ha.targets.keys)
      fun sn f sub => hsound.members ss sn f sub⟩

end Agrees

/-! ### After a run -/

variable {calls : List (SessionRef × Call)}

theorem Runs.agrees (hr : Runs calls s) (hok : Run.All (heldStep ss) (Separate ss) (fun _ => none) calls) :
    Agrees s ss (held ss calls) := by
  induction hr with
  | make => exact Agrees.make
  | step ss' call _ hcall ih =>
    obtain ⟨hall, hlast⟩ := Run.all_append.mp hok
    rw [held, Run.final_append]
    exact (ih hall).perform hlast hcall

/-- The steady clock can be later than all time points. -/
theorem exists_clock (t : SharedTarget) :
    ∃ clock : Nat → Nat, StrictMono clock ∧ ∀ e ∈ t, e.tp < clock 0 := by
  obtain ⟨b, hb⟩ : ∃ b, ∀ e ∈ t, e.tp < b := by
    induction t with
    | nil => exact ⟨0, nofun⟩
    | cons e t ih =>
      obtain ⟨b, hb⟩ := ih
      refine ⟨max b (e.tp + 1), fun e' he' => ?_⟩
      rcases List.mem_cons.mp he' with rfl | he'
      · omega
      · have hlt := hb e' he'
        omega
  exact ⟨fun n => b + n, fun m n hmn => Nat.add_lt_add_left hmn b, hb⟩

namespace Agrees

/-- What is selected is held. -/
theorem held_of_selected (ha : Agrees s ss h) {source topic : Buffer} {clock : Nat → Nat}
    {i : Selected} (hi : i ∈ (s.publishSubs source topic clock).selected) (hss : i.ss = ss) :
    h (i.sharename, i.topicFilter) = some (optionsOf i.sub) := by
  obtain ⟨m, hm, hmap⟩ := ha.map
  have hsound := sound_publishSubs s ss source topic clock
  rcases hsound.selected i hi with ⟨hplain, hfound, hsharename, hsub, htopic⟩ | ⟨-, hmember⟩
  · obtain ⟨⟨k, sub⟩, hk, heq⟩ := List.mem_map.mp hfound
    obtain rfl : sub = i.sub := heq
    obtain ⟨f, hlookup, -⟩ := hm.mem_find.mp hk
    obtain ⟨hf, hclient⟩ := hmap.topic f k _ hlookup
    have hk : k = ss.clientId := by rw [← hclient, ← hsub, hss]
    rw [hk] at hlookup
    have hheld := (hmap.held f _ hlookup).2
    rwa [hsharename, ← hplain, ← hf, ← htopic] at hheld
  · rw [hss] at hmember
    exact (ha.targets.held _ _ _ hmember).2

/-- What is held can be selected, for a topic that the filter matches. -/
theorem selectable_of_held (ha : Agrees s ss h) {topic : Buffer}
    (hmatch : topicFilterMatches false f topic) (ho : h (sn, f) = some o) :
    s.Selectable ss topic sn f o := by
  obtain ⟨m, hm, hmap⟩ := ha.map
  obtain ⟨sub, hlookup, hname⟩ := hmap.stored sn f o ho
  obtain ⟨hss, hheld⟩ := hmap.held f sub hlookup
  have htopic := (hmap.topic f _ sub hlookup).1
  -- `do_publish` finds the entry of the filter and the client
  have hfound : sub ∈ (s.subsMap.find topic).map Prod.snd :=
    List.mem_map.mpr ⟨_, hm.mem_find.mpr ⟨f, hlookup, hmatch⟩, rfl⟩
  have hcalled := fun source clock =>
    calledBack_publishSubs source clock hfound
  unfold Selectable
  by_cases hsn : sn = []
  · -- a publisher with another client identifier
    have hne : sub.ss.clientId ≠ 0 :: sub.ss.clientId := fun heq => by
      have hlength := congrArg List.length heq
      simp at hlength
    have hplain := (hcalled _ fun _ => 0).1 (hname.trans hsn) hne
    rw [hname, ho] at hheld
    rw [hss, htopic] at hplain
    refine ⟨sub, (Option.some.inj hheld).symm, ?_⟩
    rw [if_pos hsn]
    exact ⟨_, _, hplain⟩
  · obtain ⟨target, htarget⟩ := ha.targets.member sn f o hsn ho
    have hoptions := (ha.targets.held sn f target htarget).2
    rw [ho] at hoptions
    obtain ⟨clock, hclock, htp⟩ := exists_clock s.sharedTargets
    obtain ⟨n, hn⟩ := SharedTarget.exists_turn htarget hclock htp
    have hsent := (hcalled [] fun _ => 0).2 (by rwa [hname])
    rw [hname, htopic] at hsent
    refine ⟨target, (Option.some.inj hoptions).symm, ?_⟩
    rw [if_neg hsn]
    exact ⟨⟨_, _, hsent⟩, n, clock, hclock, htp, hn⟩

theorem held_of_selectable (ha : Agrees s ss h) {topic : Buffer}
    (hsel : s.Selectable ss topic sn f o) : h (sn, f) = some o := by
  obtain ⟨sub, rfl, hsel⟩ := hsel
  split at hsel
  · next hsn =>
    obtain ⟨source, clock, hmem⟩ := hsel
    subst hsn
    exact ha.held_of_selected hmem rfl
  · obtain ⟨-, n, clock, -, -, hturn⟩ := hsel
    have hmember := SharedTarget.member_turns.mp (SharedTarget.member_of_getTarget hturn)
    exact (ha.targets.held sn f sub hmember).2

end Agrees

/-- After a run in which a session has one share name for a filter at a time, `do_publish` can select
    it for exactly the pairs that it has subscribed and not unsubscribed since, with the options of
    the latest subscription, and every selection of it is of this kind. -/
theorem selectable_iff_held (hr : Runs calls s)
    (hok : Run.All (heldStep ss) (Separate ss) (fun _ => none) calls) :
    (∀ topic sn f o, topicFilterMatches false f topic →
      (s.Selectable ss topic sn f o ↔ held ss calls (sn, f) = some o)) ∧
    ∀ source topic clock, ∀ i ∈ (s.publishSubs source topic clock).selected, i.ss = ss →
      held ss calls (i.sharename, i.topicFilter) = some (optionsOf i.sub) := by
  have ha := hr.agrees hok
  constructor
  · intro topic sn f o hmatch
    exact ⟨ha.held_of_selectable, ha.selectable_of_held hmatch⟩
  · exact fun source topic clock i hi hss => ha.held_of_selected hi hss

/-- A plain and a shared subscription to different filters -/
theorem selectable_iff_held_two_filters :
    ∃ (calls : List (SessionRef × Call)) (s : Subscriptions) (ss : SessionRef),
      Runs calls s ∧ s.Selectable ss [0x61] [] [0x61] (1, 0, some 7) ∧
        s.Selectable ss [0x62] [0x67] [0x62] (2, 0, none) := by
  have hr := Runs.step ⟨[], [0x63]⟩ (.subscribe 1 [0x67] [0x62] 2 none)
    (Runs.step ⟨[], [0x63]⟩ (.subscribe 0 [] [0x61] 1 (some 7)) .make rfl) rfl
  have hok : Run.All (heldStep ⟨[], [0x63]⟩) (Separate ⟨[], [0x63]⟩) (fun _ => none)
      [(⟨[], [0x63]⟩, .subscribe 0 [] [0x61] 1 (some 7)),
        (⟨[], [0x63]⟩, .subscribe 1 [0x67] [0x62] 2 none)] := by
    refine Run.all_cons.mpr ⟨⟨nofun, fun _ => nofun⟩, Run.all_cons.mpr ⟨⟨?_, ?_⟩, Run.all_nil⟩⟩
    · intro sn o ho
      rw [heldStep, if_pos rfl, Function.update_of_ne (by simp)] at ho
      exact nomatch ho
    · intro _ o ho
      rw [heldStep, if_pos rfl, Function.update_of_ne (by simp)] at ho
      exact nomatch ho
  obtain ⟨hiff, -⟩ := selectable_iff_held hr hok
  refine ⟨_, _, _, hr, (hiff _ _ _ _ (by decide)).mpr ?_, (hiff _ _ _ _ (by decide)).mpr ?_⟩
  · decide
  · decide

/-- A plain subscription is not selected any more after the same filter has been subscribed and
    unsubscribed under a share name. -/
theorem unsubscribed_share_name_ends_plain :
    ¬ ∀ (calls : List (SessionRef × Call)) (s : Subscriptions) (ss : SessionRef), Runs calls s →
      ∀ topic sn f o, topicFilterMatches false f topic →
        (s.Selectable ss topic sn f o ↔ held ss calls (sn, f) = some o) := by
  intro hclaim
  have hr := Runs.step ⟨[], [0x63]⟩ (.unsubscribe [0x67] [0x61])
    (Runs.step ⟨[], [0x63]⟩ (.subscribe 1 [0x67] [0x61] 0 none)
      (Runs.step ⟨[], [0x63]⟩ (.subscribe 0 [] [0x61] 1 none) .make rfl) rfl) rfl
  have hiff := hclaim _ _ ⟨[], [0x63]⟩ hr [0x61] [] [0x61] (1, 0, none) (by decide)
  obtain ⟨sub, -, source, clock, hmem⟩ := hiff.mpr (by decide)
  -- the entry of the filter and the client is gone
  exact nomatch hmem

end Subscriptions

end AsyncMqtt
