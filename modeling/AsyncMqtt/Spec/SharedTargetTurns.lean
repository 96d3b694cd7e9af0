import Mathlib.Data.List.TakeWhile
import Mathlib.Order.Monotone.Basic
import AsyncMqtt.ForStd.Keyed
import AsyncMqtt.Native.SharedTarget

/-!
# The turns of a share group

What the operations of `shared_target` do to the subscriptions that it holds, and whose turn it is.
The order of the entries is that of their last use. `getTarget` takes the first one that has the
filter and puts it behind the others, and so each one has its turn as long as the clock advances.

## Key results

- `SharedTarget.member_insert`, `SharedTarget.member_erase`, `SharedTarget.member_getTarget`: what is
  held after each operation
- `SharedTarget.exists_turn`: every subscription of a filter is chosen after finitely many calls
-/

namespace AsyncMqtt

namespace SharedTarget

variable {t : SharedTarget} {e elem : Entry} {before after : SharedTarget} {now : Nat}
  {shareName topicFilter sn f : Buffer} {ss ss' : SessionRef} {sub sub' : Subscription}

/-- The session is a target for the share name and the filter, with this subscription. -/
def Member (t : SharedTarget) (ss : SessionRef) (sn f : Buffer) (sub : Subscription) : Prop :=
  ∃ e ∈ t, e.ss = ss ∧ e.shareName = sn ∧ e.tfSubs.lookup f = some sub

/-- What an entry is besides its time point -/
def Entry.untimed (e : Entry) : Entry := { e with tp := 0 }

/-! ### The time points -/

/-- An insertion adds the entry. -/
theorem perm_insertByTp : (insertByTp e t).Perm (e :: t) := Keyed.perm_insertBefore

/-- A modification moves the entry and sets its time. -/
theorem perm_modifyTp :
    (modifyTp now before elem after).Perm ({ elem with tp := now } :: (before ++ after)) := by
  unfold modifyTp
  dsimp only
  split
  · exact List.perm_middle
  · exact perm_insertByTp

/-- `getTarget` changes the time point of an entry, and the order. -/
theorem perm_getTarget :
    ((t.getTarget now shareName topicFilter).2.map Entry.untimed).Perm (t.map Entry.untimed) := by
  unfold getTarget
  dsimp only
  cases hdrop : t.dropWhile fun e => ! e.hasFilter shareName topicFilter with
  | nil => exact .refl _
  | cons elem after =>
    have hsplit := List.takeWhile_append_dropWhile (p := fun e => ! e.hasFilter shareName topicFilter)
      (l := t)
    rw [hdrop] at hsplit
    refine (perm_modifyTp.map _).trans ?_
    conv_rhs => rw [← hsplit, List.map_append, List.map_cons]
    rw [List.map_cons, List.map_append]
    exact List.perm_middle.symm

/-- The order of the entries and their times do not matter. -/
theorem member_iff_of_perm {t' : SharedTarget}
    (h : (t'.map Entry.untimed).Perm (t.map Entry.untimed)) :
    t'.Member ss sn f sub ↔ t.Member ss sn f sub := by
  have hiff (t : SharedTarget) : t.Member ss sn f sub ↔ ∃ e ∈ t.map Entry.untimed,
      e.ss = ss ∧ e.shareName = sn ∧ e.tfSubs.lookup f = some sub := by
    simp [Member, Entry.untimed]
  rw [hiff, hiff]
  simp only [h.mem_iff]

/-- The same targets are there after `getTarget`. -/
theorem member_getTarget :
    (t.getTarget now shareName topicFilter).2.Member ss sn f sub ↔ t.Member ss sn f sub :=
  member_iff_of_perm perm_getTarget

/-! ### Insertion and removal -/

/-- The subscriptions of a new entry are added. -/
theorem member_insertByTp : (insertByTp e t).Member ss sn f sub ↔
    (e.ss = ss ∧ e.shareName = sn ∧ e.tfSubs.lookup f = some sub) ∨ t.Member ss sn f sub := by
  unfold Member
  simp only [perm_insertByTp.mem_iff, List.mem_cons, exists_eq_or_imp]

/-- No entry of another session has the client identifier. -/
def Own (t : SharedTarget) (ss : SessionRef) : Prop :=
  ∀ e ∈ t, e.ss.clientId = ss.clientId → e.ss = ss

/-- The subscriptions of a client under a share name are in one entry. -/
theorem member_iff_of_mem (hkey : (t.map Entry.key).Nodup) (he : e ∈ t) :
    t.Member e.ss e.shareName f sub ↔ e.tfSubs.lookup f = some sub := by
  constructor
  · rintro ⟨e', he', hss, hname, hsub⟩
    have heq : e'.key = e.key := by rw [Entry.key, Entry.key, hss, hname]
    rwa [← Keyed.eq_of_key hkey he' he heq]
  · exact fun hsub => ⟨e, he, rfl, rfl, hsub⟩

/-- The entries with one key are changed. -/
theorem member_map (g : Entry → Entry) {k : Buffer × Buffer} (hss : ∀ e, (g e).ss = e.ss)
    (hname : ∀ e, (g e).shareName = e.shareName) :
    Member (t.map fun e => if e.key = k then g e else e) ss sn f sub ↔
      if (ss.clientId, sn) = k then
        ∃ e ∈ t, e.ss = ss ∧ e.shareName = sn ∧ (g e).tfSubs.lookup f = some sub
      else t.Member ss sn f sub := by
  have hkey (e : Entry) (h : e.ss = ss ∧ e.shareName = sn) : e.key = (ss.clientId, sn) := by
    rw [Entry.key, h.1, h.2]
  unfold Member
  simp only [List.mem_map, exists_exists_and_eq_and]
  -- the entry with the key changes its members, the others keep theirs
  split
  · next hk =>
    refine exists_congr fun e => and_congr_right fun _ => ?_
    by_cases he : e.key = k
    · simp [he, hss, hname]
    · have hne : ¬ (e.ss = ss ∧ e.shareName = sn) := fun h => he ((hkey e h).trans hk)
      simp only [if_neg he]
      exact ⟨fun h => absurd ⟨h.1, h.2.1⟩ hne, fun h => absurd ⟨h.1, h.2.1⟩ hne⟩
  · next hk =>
    refine exists_congr fun e => and_congr_right fun _ => ?_
    by_cases he : e.key = k
    · have hne : ¬ (e.ss = ss ∧ e.shareName = sn) := fun h => hk ((hkey e h).symm.trans he)
      simp only [if_pos he, hss, hname]
      exact ⟨fun h => absurd ⟨h.1, h.2.1⟩ hne, fun h => absurd ⟨h.1, h.2.1⟩ hne⟩
    · simp only [if_neg he]

/-- A subscription is added, unless there is one of the filter. -/
theorem lookup_emplaceSub {f' : Buffer} :
    (emplaceSub f sub e).tfSubs.lookup f' = some sub' ↔
      e.tfSubs.lookup f' = some sub' ∨ (f' = f ∧ sub' = sub ∧ e.tfSubs.lookup f = none) := by
  unfold emplaceSub
  dsimp only
  split
  · next hsome =>
    have hne : e.tfSubs.lookup f ≠ none := by simpa [Option.isSome_iff_ne_none] using hsome
    simp [hne]
  · next hnone =>
    have hnone : e.tfSubs.lookup f = none := by simpa using hnone
    by_cases hf : f' = f
    · subst hf
      simp [hnone, eq_comm]
    · simp [AList.lookup_insert_ne hf, hf]

/-- A subscription of the session is added if there is none for the share name and the filter. -/
theorem member_insert (hkey : (t.map Entry.key).Nodup) (hown : t.Own ss) :
    (t.insert now shareName topicFilter sub ss).Member ss sn f sub' ↔
      t.Member ss sn f sub' ∨ (sn = shareName ∧ f = topicFilter ∧ sub' = sub ∧
        ∀ sub, ¬ t.Member ss shareName topicFilter sub) := by
  unfold insert
  split
  · next hany =>
    obtain ⟨e, he, hk⟩ : ∃ e ∈ t, e.key = (ss.clientId, shareName) := by simpa using hany
    obtain rfl : e.ss = ss := hown e he (Prod.mk.inj hk).1
    obtain rfl : e.shareName = shareName := (Prod.mk.inj hk).2
    rw [member_map (emplaceSub topicFilter sub) (fun _ => rfl) fun _ => rfl]
    split
    · next hsn =>
      obtain rfl : sn = e.shareName := (Prod.mk.inj hsn).2
      -- the entry with this key is the only one
      have hiff : (∃ e' ∈ t, e'.ss = e.ss ∧ e'.shareName = e.shareName ∧
          (emplaceSub topicFilter sub e').tfSubs.lookup f = some sub') ↔
          (emplaceSub topicFilter sub e).tfSubs.lookup f = some sub' := by
        constructor
        · rintro ⟨e', he', hss, hname, hsub⟩
          have heq : e'.key = e.key := by rw [Entry.key, Entry.key, hss, hname]
          rwa [← Keyed.eq_of_key hkey he' he heq]
        · exact fun hsub => ⟨e, he, rfl, rfl, hsub⟩
      have hnone : (∀ sub, ¬ t.Member e.ss e.shareName topicFilter sub) ↔
          e.tfSubs.lookup topicFilter = none := by
        simp only [member_iff_of_mem hkey he, Option.eq_none_iff_forall_ne_some, ne_eq]
      rw [hiff, lookup_emplaceSub, member_iff_of_mem hkey he, hnone]
      simp
    · next hsn =>
      have hne : sn ≠ e.shareName := fun heq => hsn (by rw [heq])
      simp [hne]
  · next hany =>
    have hnone : ∀ sub, ¬ t.Member ss shareName topicFilter sub := by
      rintro sub ⟨e, he, hss, hname, -⟩
      exact hany (List.any_eq_true.mpr ⟨e, he, by simp [Entry.key, hss, hname]⟩)
    rw [member_insertByTp]
    dsimp only
    by_cases hf : f = topicFilter
    · subst hf
      rw [AList.lookup_insert]
      simp [hnone, or_comm, eq_comm]
    · rw [AList.lookup_insert_ne hf]
      simp [hf]

/-- A session with another client identifier keeps what it has. -/
theorem member_insert_other (hne : ss'.clientId ≠ ss.clientId) :
    (t.insert now shareName topicFilter sub ss).Member ss' sn f sub' ↔
      t.Member ss' sn f sub' := by
  unfold insert
  split
  · rw [member_map (emplaceSub topicFilter sub) (fun _ => rfl) fun _ => rfl,
      if_neg fun heq => hne (Prod.mk.inj heq).1]
  · rw [member_insertByTp]
    have hss : ss ≠ ss' := fun heq => hne (congrArg SessionRef.clientId heq.symm)
    simp [hss]

/-- Entries without subscriptions do not count. -/
theorem member_filter_nonempty {p : Entry → Bool} (hp : ∀ e ∈ t, p e = false → e.tfSubs = ∅) :
    Member (t.filter p) ss sn f sub ↔ t.Member ss sn f sub := by
  constructor
  · rintro ⟨e, he, hrest⟩
    exact ⟨e, (List.mem_filter.mp he).1, hrest⟩
  · rintro ⟨e, he, hss, hname, hsub⟩
    refine ⟨e, List.mem_filter.mpr ⟨he, ?_⟩, hss, hname, hsub⟩
    by_contra hpe
    rw [hp e he (by simpa using hpe), AList.lookup_empty] at hsub
    exact nomatch hsub

/-- An erasure takes one subscription from one entry. -/
theorem member_erase_iff_map : (t.erase shareName topicFilter ss).Member ss' sn f sub ↔
    Member (t.map fun e => if e.key = (ss.clientId, shareName) then
      { e with tfSubs := e.tfSubs.erase topicFilter } else e) ss' sn f sub := by
  unfold erase
  refine member_filter_nonempty fun e _ he => ?_
  have hempty : e.tfSubs.entries = [] := by
    simp only [Bool.not_eq_false', Bool.and_eq_true, List.isEmpty_iff] at he
    exact he.2
  exact AList.ext hempty

/-- The subscription for the share name and the filter is gone. -/
theorem member_erase : (t.erase shareName topicFilter ss).Member ss sn f sub ↔
    t.Member ss sn f sub ∧ ¬ (sn = shareName ∧ f = topicFilter) := by
  rw [member_erase_iff_map,
    member_map (fun e => { e with tfSubs := e.tfSubs.erase topicFilter }) (fun _ => rfl) fun _ => rfl]
  by_cases hsn : sn = shareName
  · subst hsn
    rw [if_pos rfl]
    by_cases hf : f = topicFilter
    · subst hf
      simp
    · simp [AList.lookup_erase_ne hf, hf, Member]
  · have hne : (ss.clientId, sn) ≠ (ss.clientId, shareName) := fun heq => hsn (Prod.mk.inj heq).2
    simp [hne, hsn]

/-- A session with another client identifier keeps what it has. -/
theorem member_erase_other (hne : ss'.clientId ≠ ss.clientId) :
    (t.erase shareName topicFilter ss).Member ss' sn f sub ↔ t.Member ss' sn f sub := by
  rw [member_erase_iff_map,
    member_map (fun e => { e with tfSubs := e.tfSubs.erase topicFilter }) (fun _ => rfl) fun _ => rfl,
    if_neg fun heq => hne (Prod.mk.inj heq).1]

/-! ### The keys -/

/-- The session of an entry and its share name, of which the key consists -/
def Entry.owner (e : Entry) : SessionRef × Buffer := (e.ss, e.shareName)

/-- A change of an entry leaves its owner. -/
theorem map_owner_map (g : Entry → Entry) {k : Buffer × Buffer} (hss : ∀ e, (g e).ss = e.ss)
    (hname : ∀ e, (g e).shareName = e.shareName) :
    (t.map fun e => if e.key = k then g e else e).map Entry.owner = t.map Entry.owner := by
  rw [List.map_map]
  refine List.map_congr_left fun e _ => ?_
  show Entry.owner (if e.key = k then g e else e) = e.owner
  split
  · rw [Entry.owner, hss, hname, Entry.owner]
  · rfl

/-- Each owner has one entry, and no client identifier has two sessions with the session `ss`. -/
structure Keys (t : SharedTarget) (ss : SessionRef) : Prop where
  nodup : (t.map Entry.key).Nodup
  own : t.Own ss

namespace Keys

/-- Fewer owners keep the keys apart. -/
theorem of_owners {t' : SharedTarget} (h : t.Keys ss)
    (hsub : (t'.map Entry.owner).Subperm (t.map Entry.owner)) : t'.Keys ss := by
  constructor
  · have hkeys (t : SharedTarget) :
        t.map Entry.key = (t.map Entry.owner).map fun i => (i.1.clientId, i.2) := by
      rw [List.map_map]
      rfl
    have hnodup := h.nodup
    rw [hkeys] at hnodup ⊢
    obtain ⟨owners, hperm, hsublist⟩ := hsub
    exact (hperm.map _).nodup_iff.mp ((hsublist.map _).nodup hnodup)
  · intro e he hclient
    have hmem := hsub.subset (List.mem_map_of_mem he)
    obtain ⟨e', he', heq⟩ := List.mem_map.mp hmem
    have hss : e'.ss = e.ss := (Prod.mk.inj heq).1
    rw [← hss] at hclient ⊢
    exact h.own e' he' hclient

/-- An insertion keeps the keys apart. -/
theorem insert (h : t.Keys ss) (hother : ss'.clientId = ss.clientId → ss' = ss) :
    (t.insert now shareName topicFilter sub ss').Keys ss := by
  unfold SharedTarget.insert
  split
  · refine h.of_owners ?_
    rw [map_owner_map (emplaceSub topicFilter sub) (fun _ => rfl) fun _ => rfl]
  · next hany =>
    have hperm := perm_insertByTp (t := t)
      (e := ⟨shareName, ss', now, (∅ : AList _).insert topicFilter sub⟩)
    -- the new entry has a key of its own
    constructor
    · rw [(hperm.map _).nodup_iff, List.map_cons, List.nodup_cons]
      refine ⟨fun hmem => hany ?_, h.nodup⟩
      obtain ⟨e, he, heq⟩ := List.mem_map.mp hmem
      exact List.any_eq_true.mpr ⟨e, he, decide_eq_true heq⟩
    · intro e he
      rcases List.mem_cons.mp (hperm.mem_iff.mp he) with rfl | he
      · exact hother
      · exact h.own e he

/-- An erasure keeps the keys apart. -/
theorem erase (h : t.Keys ss) : (t.erase shareName topicFilter ss').Keys ss := by
  unfold SharedTarget.erase
  refine h.of_owners ?_
  have howner := map_owner_map (t := t) (k := (ss'.clientId, shareName))
    (fun e => { e with tfSubs := e.tfSubs.erase topicFilter }) (fun _ => rfl) fun _ => rfl
  rw [← howner]
  exact (List.filter_sublist.map _).subperm

/-- A selection keeps the keys apart. -/
theorem getTarget (h : t.Keys ss) : (t.getTarget now shareName topicFilter).2.Keys ss := by
  refine h.of_owners ?_
  have howner (t : SharedTarget) : t.map Entry.owner = (t.map Entry.untimed).map Entry.owner := by
    rw [List.map_map]
    rfl
  rw [howner, howner t]
  exact (perm_getTarget.map _).subperm

end Keys

/-! ### Whose turn it is -/

/-- The first entry with the filter is chosen. -/
theorem getTarget_of_first (now : Nat) (after : SharedTarget)
    (hbefore : ∀ e ∈ before, e.hasFilter shareName topicFilter = false)
    (helem : elem.hasFilter shareName topicFilter) :
    getTarget now shareName topicFilter (before ++ elem :: after) =
      ((elem.tfSubs.lookup topicFilter).map fun sub => (elem.ss, sub),
        modifyTp now before elem after) := by
  have hskip : ∀ e ∈ before, (! e.hasFilter shareName topicFilter) = true := by simpa using hbefore
  unfold getTarget
  dsimp only
  rw [List.dropWhile_append_of_pos hskip, List.takeWhile_append_of_pos hskip]
  simp [helem]

/-- Where the first entry with the filter stands -/
theorem exists_first (he : e ∈ t) (hfilter : e.hasFilter shareName topicFilter) :
    ∃ before elem after, t = before ++ elem :: after ∧ elem.hasFilter shareName topicFilter ∧
      ∀ e ∈ before, e.hasFilter shareName topicFilter = false := by
  cases hfind : t.find? fun e => e.hasFilter shareName topicFilter with
  | none =>
    have hnone := List.find?_eq_none.mp hfind e he
    exact absurd hfilter hnone
  | some elem =>
    obtain ⟨helem, before, after, rfl, hbefore⟩ := List.find?_eq_some_iff_append.mp hfind
    exact ⟨before, elem, after, rfl, helem, by simpa using hbefore⟩

/-- What `getTarget` does: the first entry with the filter is chosen, or there is none. -/
theorem getTarget_cases (now : Nat) (shareName topicFilter : Buffer) (t : SharedTarget) :
    (∃ before elem after sub, t = before ++ elem :: after ∧
      (∀ e ∈ before, e.hasFilter shareName topicFilter = false) ∧ elem.shareName = shareName ∧
      elem.tfSubs.lookup topicFilter = some sub ∧
      t.getTarget now shareName topicFilter =
        (some (elem.ss, sub), modifyTp now before elem after)) ∨
    ((∀ e ∈ t, e.hasFilter shareName topicFilter = false) ∧
      t.getTarget now shareName topicFilter = (none, t)) := by
  -- the first entry with the filter is chosen, if there is one
  by_cases hex : ∃ e ∈ t, e.hasFilter shareName topicFilter
  · obtain ⟨e, he, hfilter⟩ := hex
    obtain ⟨before, elem, after, rfl, helem, hbefore⟩ := exists_first he hfilter
    have hname : elem.shareName = shareName := by simpa using (Bool.and_eq_true_iff.mp helem).1
    obtain ⟨sub, hsub⟩ := Option.isSome_iff_exists.mp (Bool.and_eq_true_iff.mp helem).2
    refine .inl ⟨before, elem, after, sub, rfl, hbefore, hname, hsub, ?_⟩
    rw [getTarget_of_first now after hbefore helem, hsub]
    rfl
  · have hnone : ∀ e ∈ t, e.hasFilter shareName topicFilter = false := by
      intro e he
      simpa using fun hfilter => hex ⟨e, he, hfilter⟩
    have hnil : t.dropWhile (fun e => ! e.hasFilter shareName topicFilter) = [] := by
      rw [List.dropWhile_eq_nil_iff]
      simpa using hnone
    refine .inr ⟨hnone, ?_⟩
    unfold getTarget
    dsimp only
    rw [hnil]

/-- What is chosen is held. -/
theorem member_of_getTarget
    (h : (t.getTarget now shareName topicFilter).1 = some (ss, sub)) :
    t.Member ss shareName topicFilter sub := by
  rcases getTarget_cases now shareName topicFilter t with
    ⟨before, elem, after, sub', rfl, -, hname, hsub, heq⟩ | ⟨-, heq⟩
  · rw [heq] at h
    obtain ⟨rfl, rfl⟩ := Prod.mk.inj (Option.some.inj h)
    exact ⟨elem, by simp, rfl, hname, hsub⟩
  · rw [heq] at h
    exact nomatch h

/-- A time point that is later than all others comes last. -/
theorem insertByTp_of_later (htp : ∀ e' ∈ t, e'.tp < e.tp) : insertByTp e t = t ++ [e] := by
  have hlater : ∀ e' ∈ t, (! (decide (e'.shareName = e.shareName) && decide (e.tp < e'.tp))) = true := by
    intro e' he'
    have hlt := htp e' he'
    simp
    omega
  unfold insertByTp
  dsimp only
  rw [List.takeWhile_eq_self_iff.mpr hlater, List.dropWhile_eq_nil_iff.mpr hlater]

/-- The clock has advanced since an entry of the same share name was used, and so the entry that is
    used now goes behind all others. -/
theorem modifyTp_of_advanced (hafter : ∃ e ∈ after, e.shareName = elem.shareName)
    (htp : ∀ e ∈ before ++ after, e.tp < now) :
    modifyTp now before elem after = before ++ after ++ [{ elem with tp := now }] := by
  unfold modifyTp
  dsimp only
  have hstays : ((after.filter fun e => decide (e.shareName = elem.shareName)).head?.all
      fun e => decide (now ≤ e.tp)) = false := by
    -- an entry of the name follows, and its time is before now
    cases hhead : (after.filter fun e => decide (e.shareName = elem.shareName)).head? with
    | none =>
      obtain ⟨e, he, hname⟩ := hafter
      simp only [List.head?_eq_none_iff, List.filter_eq_nil_iff] at hhead
      exact absurd (decide_eq_true hname) (hhead e he)
    | some e =>
      have he := (List.mem_filter.mp (List.mem_of_head? hhead)).1
      have hlt := htp e (List.mem_append_right before he)
      simpa using hlt
  rw [hstays, Bool.and_false, if_neg Bool.false_ne_true]
  exact insertByTp_of_later htp

/-- The targets after calls of `getTarget` at readings of the clock -/
def turns (shareName topicFilter : Buffer) (nows : List Nat) (t : SharedTarget) : SharedTarget :=
  nows.foldl (fun t now => (t.getTarget now shareName topicFilter).2) t

/-- Selections leave the subscriptions. -/
theorem member_turns {nows : List Nat} :
    (t.turns shareName topicFilter nows).Member ss sn f sub ↔ t.Member ss sn f sub := by
  induction nows generalizing t with
  | nil => rfl
  | cons now nows ih => exact ih.trans member_getTarget

/-- An entry has its turn when those before it have had theirs. -/
theorem exists_turn_of_getElem? {i : Nat} {clock : Nat → Nat} (he : t[i]? = some e)
    (hfilter : e.hasFilter shareName topicFilter) (hclock : StrictMono clock)
    (htp : ∀ e ∈ t, e.tp < clock 0) :
    ∃ n, ((t.turns shareName topicFilter ((List.range n).map clock)).getTarget (clock n) shareName
      topicFilter).1 = (e.tfSubs.lookup topicFilter).map fun sub => (e.ss, sub) := by
  -- the induction is on the place of the entry in the list
  induction i generalizing t clock with
  | zero =>
    obtain ⟨after, rfl⟩ : ∃ after, t = e :: after := by
      cases t with
      | nil => exact nomatch he
      | cons e' after => exact ⟨after, congrArg (· :: after) (Option.some.inj he)⟩
    have hnil : ∀ e ∈ ([] : SharedTarget), e.hasFilter shareName topicFilter = false := nofun
    have hfirst := getTarget_of_first (clock 0) after hnil hfilter
    exact ⟨0, congrArg Prod.fst hfirst⟩
  | succ i ih =>
    obtain ⟨before, elem, after, rfl, helem, hbefore⟩ := exists_first (List.mem_of_getElem? he) hfilter
    have hfirst := getTarget_of_first (clock 0) after hbefore helem
    rcases Nat.lt_trichotomy (i + 1) before.length with hlt | heq | hgt
    · -- no entry before the first one has the filter
      rw [List.getElem?_append_left hlt] at he
      rw [hbefore e (List.mem_of_getElem? he)] at hfilter
      exact nomatch hfilter
    -- the entry is the first one with the filter
    · rw [List.getElem?_append_right (by omega), heq, Nat.sub_self] at he
      obtain rfl : elem = e := Option.some.inj he
      exact ⟨0, congrArg Prod.fst hfirst⟩
    · -- another entry has its turn, and this one moves up
      have hafter : after[i - before.length]? = some e := by
        rw [List.getElem?_append_right (by omega)] at he
        rwa [show i + 1 - before.length = i - before.length + 1 by omega] at he
      have hname {e : Entry} (h : e.hasFilter shareName topicFilter) : e.shareName = shareName := by
        simpa using (Bool.and_eq_true_iff.mp h).1
      have hrest : ∀ e ∈ before ++ after, e.tp < clock 0 := by
        intro e he
        apply htp
        simp only [List.mem_append, List.mem_cons] at he ⊢
        tauto
      rw [modifyTp_of_advanced ⟨e, List.mem_of_getElem? hafter, (hname hfilter).trans
        (hname helem).symm⟩ hrest] at hfirst
      have he' : (before ++ after ++ [{ elem with tp := clock 0 }])[i]? = some e := by
        rw [List.append_assoc, List.getElem?_append_right (by omega),
          List.getElem?_append_left (List.getElem?_eq_some_iff.mp hafter).1, hafter]
      -- the entry that had its turn goes to the end, and no entry is later than the clock
      have htp' : ∀ e ∈ before ++ after ++ [{ elem with tp := clock 0 }], e.tp < clock 1 := by
        have hnext : clock 0 < clock 1 := hclock Nat.zero_lt_one
        intro e he
        rcases List.mem_append.mp he with he | he
        · exact (hrest e he).trans hnext
        · rw [List.mem_singleton.mp he]
          exact hnext
      obtain ⟨n, hn⟩ := @ih _ (fun n => clock (n + 1)) he'
        (fun m n hmn => hclock (Nat.succ_lt_succ hmn)) htp'
      have hturns (nows : List Nat) :
          turns shareName topicFilter (clock 0 :: nows) (before ++ elem :: after) =
            turns shareName topicFilter nows (before ++ after ++ [{ elem with tp := clock 0 }]) := by
        rw [turns, List.foldl_cons, hfirst]
        rfl
      refine ⟨n + 1, ?_⟩
      rw [← hn, List.range_succ_eq_map, List.map_cons, List.map_map, hturns]
      rfl

/-- Every subscription of a filter is chosen after finitely many calls of `getTarget`, if the clock
    advances between them. -/
theorem exists_turn {clock : Nat → Nat} (hmember : t.Member ss shareName topicFilter sub)
    (hclock : StrictMono clock) (htp : ∀ e ∈ t, e.tp < clock 0) :
    ∃ n, ((t.turns shareName topicFilter ((List.range n).map clock)).getTarget (clock n) shareName
      topicFilter).1 = some (ss, sub) := by
  obtain ⟨e, he, rfl, rfl, hsub⟩ := hmember
  obtain ⟨i, hi⟩ := List.mem_iff_getElem?.mp he
  have hfilter : e.hasFilter e.shareName topicFilter := by simp [Entry.hasFilter, hsub]
  obtain ⟨n, hn⟩ := exists_turn_of_getElem? hi hfilter hclock htp
  exact ⟨n, by rw [hn, hsub]; rfl⟩

end SharedTarget

end AsyncMqtt
