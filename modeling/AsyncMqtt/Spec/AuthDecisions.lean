import AsyncMqtt.Spec.ResponseRules

/-!
# The decisions of a configuration

`auth_pub`, `auth_sub` and `auth_sub_user` look for the rule with the highest number among those that
the maps hold for a topic, in whatever order the maps call them back. So the decisions are the same
for two configurations that list the same rules, if the maps of both hold them.

`remove_auth` erases the filter and the names of a rule from the maps, and another rule that shares
them is listed and no longer held.

## Key results

- `Security.decisions_eq`: the decisions depend on the listed rules
- `Security.restores_iff_alone`: what `add_auth` followed by `remove_auth` restores
- `Security.remove_auth_loses`: the rule that is lost
-/

namespace AsyncMqtt

open scoped ByteOrder

namespace Security

open MultipleSubscriptionMap (Holds Stored)

variable {c c' : Security} {i : Authorization} {d : Side} {f n topic u : Buffer}
  {rules rules' : List Authorization} {map map' : AuthMap} {names : OrdSet Buffer} {e e' : AuthType × Nat}
  {l l' : List (Buffer × AuthType × Nat)}

/-! ### The rule with the highest number -/

section Best

variable {p : Buffer → Prop} [DecidablePred p]

/-- The entry with the highest number so far, among those whose names satisfy `p`. Of two with the
    same number, the later one is taken. -/
def better (p : Buffer → Prop) [DecidablePred p] (o : Option (AuthType × Nat))
    (i : Buffer × AuthType × Nat) : Option (AuthType × Nat) :=
  if p i.1 then if o.all fun e => e.2 ≤ i.2.2 then some i.2 else o else o

def best (p : Buffer → Prop) [DecidablePred p] (l : List (Buffer × AuthType × Nat)) :
    Option (AuthType × Nat) := l.foldl (better p) none

theorem best_concat (l : List (Buffer × AuthType × Nat)) (i : Buffer × AuthType × Nat) :
    best p (l ++ [i]) = better p (best p l) i := by
  rw [best, List.foldl_append]
  rfl

/-- There is a best entry if any name satisfies `p`. -/
theorem best_eq_none_iff : best p l = none ↔ ∀ i ∈ l, ¬ p i.1 := by
  induction l using List.reverseRecOn with
  | nil => exact ⟨fun _ => nofun, fun _ => rfl⟩
  | append_singleton l i ih =>
    rw [best_concat, better, List.forall_mem_append, List.forall_mem_singleton, ← ih]
    by_cases hp : p i.1
    · rw [if_pos hp]
      split
      · simp [hp]
      · next hnot =>
        cases hbest : best p l with
        | none => simp [hbest] at hnot
        | some e => simp
    · simp [hp]

/-- The best entry is there, and none has a higher number. -/
theorem best_spec (h : best p l = some e) :
    (∃ n, p n ∧ (n, e) ∈ l) ∧ ∀ i ∈ l, p i.1 → i.2.2 ≤ e.2 := by
  induction l using List.reverseRecOn generalizing e with
  | nil => exact nomatch h
  | append_singleton l i ih =>
    rw [best_concat, better] at h
    -- the best entry so far
    have hold (h : best p l = some e) (hi : p i.1 → i.2.2 ≤ e.2) :
        (∃ n, p n ∧ (n, e) ∈ l ++ [i]) ∧ ∀ j ∈ l ++ [i], p j.1 → j.2.2 ≤ e.2 := by
      obtain ⟨⟨n, hn, hmem⟩, hle⟩ := ih h
      refine ⟨⟨n, hn, List.mem_append_left _ hmem⟩, ?_⟩
      rw [List.forall_mem_append, List.forall_mem_singleton]
      exact ⟨hle, hi⟩
    split at h
    · next hp =>
      split at h
      · next hall =>
        obtain rfl := Option.some.inj h
        refine ⟨⟨i.1, hp, by simp⟩, ?_⟩
        rw [List.forall_mem_append, List.forall_mem_singleton]
        refine ⟨fun j hj hpj => ?_, fun _ => Nat.le_refl _⟩
        cases hbest : best p l with
        | none => exact absurd hpj (best_eq_none_iff.mp hbest j hj)
        | some e' =>
          rw [hbest] at hall
          have hle : e'.2 ≤ i.2.2 := by simpa using hall
          exact ((ih hbest).2 j hj hpj).trans hle
      · next hall =>
        refine hold h fun _ => ?_
        rw [h] at hall
        have hlt : ¬ e.2 ≤ i.2.2 := by simpa using hall
        omega
    · next hp => exact hold h fun hp' => absurd hp' hp

/-- Entries with the same number are of one type. -/
def OneType (l : List (Buffer × AuthType × Nat)) : Prop :=
  ∀ i ∈ l, ∀ j ∈ l, i.2.2 = j.2.2 → i.2 = j.2

/-- The order of the entries does not matter, and neither does it matter how often one comes. -/
theorem best_eq (hl : OneType l) (hiff : ∀ i, i ∈ l ↔ i ∈ l') : best p l = best p l' := by
  cases h : best p l with
  | none =>
    have hnone := best_eq_none_iff.mp h
    exact (best_eq_none_iff.mpr fun i hi => hnone i ((hiff i).mpr hi)).symm
  | some e =>
    obtain ⟨⟨n, hn, hmem⟩, hle⟩ := best_spec h
    cases h' : best p l' with
    | none => exact absurd hn (best_eq_none_iff.mp h' (n, e) ((hiff _).mp hmem))
    | some e' =>
      obtain ⟨⟨n', hn', hmem'⟩, hle'⟩ := best_spec h'
      have hmem' := (hiff _).mpr hmem'
      have heq := hl _ hmem _ hmem' (Nat.le_antisymm (hle' _ ((hiff _).mp hmem) hn) (hle _ hmem' hn'))
      exact congrArg some heq

end Best

/-! ### The decisions -/

/-- The callback of `auth_pub` keeps the best entry. -/
theorem authPub_eq (c : Security) (topic u : Buffer) :
    c.authPub topic u =
      ((best (· ∈ c.usernameAndGroups u) (c.authPubMap.find topic)).getD (.deny, 0)).1 := by
  unfold authPub
  generalize c.authPubMap.find topic = l
  congr 1
  -- the rules are called back in order, and the last one of the highest priority decides
  induction l using List.reverseRecOn with
  | nil => rfl
  | append_singleton l i ih =>
    rw [List.foldl_append, List.foldl_cons, List.foldl_nil, ih, best_concat, authPubEntry, better]
    by_cases hi : i.1 ∈ c.usernameAndGroups u
    · rw [if_pos hi, if_pos hi]
      cases best (· ∈ c.usernameAndGroups u) l with
      | none => simp
      | some e =>
        by_cases hle : e.2 ≤ i.2.2
        · simp [hle]
        · simp [hle]
    · rw [if_neg hi, if_neg hi]

/-- The callback of `auth_sub` keeps the best entry for each name. -/
theorem lookup_authSub (c : Security) (topic n : Buffer) :
    (c.authSub topic).lookup n = best (· = n) (c.authSubMap.find topic) := by
  unfold authSub
  generalize c.authSubMap.find topic = l
  -- the same for the map that the callback fills, one name at a time
  induction l using List.reverseRecOn with
  | nil => rfl
  | append_singleton l i ih =>
    rw [List.foldl_append, List.foldl_cons, List.foldl_nil, best_concat, ← ih, authSubEntry, better]
    by_cases hi : i.1 = n
    · subst hi
      rw [if_pos rfl]
      cases hlookup : (l.foldl authSubEntry ∅).lookup i.1 with
      | none => simp
      | some e =>
        by_cases hle : e.2 ≤ i.2.2
        · simp [hle]
        · simp [hle, hlookup]
    · rw [if_neg hi]
      split
      · exact AList.lookup_insert_ne (Ne.symm hi)
      · split
        · exact AList.lookup_insert_ne (Ne.symm hi)
        · rfl

/-! ### Rules and decisions -/

/-- What is called back for a topic, in terms of the rules -/
theorem Spread.mem_find (h : Spread d map rules) :
    (n, e) ∈ map.find topic ↔ ∃ f, ((rules.filter (d.has f n)).getLast?).map d.entry = some e ∧
      topicFilterMatches false f topic := by
  obtain ⟨s, hm, hs⟩ := h
  rw [hm.mem_find]
  exact exists_congr fun f => by rw [hs]

/-- An entry is that of a rule. -/
theorem Spread.exists_rule (h : Spread d map rules) (he : (n, e) ∈ map.find topic) :
    ∃ i ∈ rules, e = d.entry i := by
  obtain ⟨f, hlast, -⟩ := h.mem_find.mp he
  obtain ⟨i, hi, rfl⟩ := Option.map_eq_some_iff.mp hlast
  have hmem := List.mem_of_getLast? hi
  exact ⟨i, (List.mem_filter.mp hmem).1, rfl⟩

theorem Spread.oneType (h : Spread d map rules) (hrules : Numbered rules) :
    OneType (map.find topic) := by
  intro i hi j hj heq
  obtain ⟨a, ha, hia⟩ := h.exists_rule hi
  obtain ⟨b, hb, hjb⟩ := h.exists_rule hj
  rw [hia, hjb] at heq ⊢
  rw [hrules.eq_of_ruleNr ha hb heq]

/-- Two maps that hold the same rules have the same best entries. -/
theorem Spread.best_eq {p : Buffer → Prop} [DecidablePred p] (h : Spread d map rules)
    (h' : Spread d map' rules) (hrules : Numbered rules) :
    best p (map.find topic) = best p (map'.find topic) := by
  apply Security.best_eq (h.oneType hrules)
  rintro ⟨n, e⟩
  rw [h.mem_find, h'.mem_find]

/-- The configurations decide the same. -/
structure SameDecisions (c c' : Security) : Prop where
  pub : ∀ topic username, c.authPub topic username = c'.authPub topic username
  sub : ∀ topic username,
    c.authSubUser (c.authSub topic) username = c'.authSubUser (c'.authSub topic) username
  subscribe : ∀ username topicFilter,
    c.isSubscribeAuthorized username topicFilter = c'.isSubscribeAuthorized username topicFilter

/-- The decisions depend on the groups and on the listed rules. -/
theorem decisions_eq (h : Consistent c) (h' : Consistent c') (hgroups : c.groups = c'.groups)
    (hrules : c.authorization = c'.authorization) : SameDecisions c c' := by
  -- the groups of the user and the rules are all that a decision reads
  have huserGroups : c.userGroups = c'.userGroups := by
    funext u
    rw [userGroups, userGroups, hgroups]
  have hnames : c.usernameAndGroups = c'.usernameAndGroups := by
    funext u
    rw [usernameAndGroups, usernameAndGroups, huserGroups]
  have hpub := h'.pub
  have hsub := h'.sub
  rw [← hrules] at hpub hsub
  constructor
  · intro topic u
    rw [authPub_eq, authPub_eq, hnames, h.pub.best_eq hpub h.numbered]
  · intro topic u
    have hlookup (n : Buffer) : (c.authSub topic).lookup n = (c'.authSub topic).lookup n := by
      rw [lookup_authSub, lookup_authSub, h.sub.best_eq hsub h.numbered]
    unfold authSubUser
    simp only [hlookup, huserGroups]
  · intro u tf
    unfold isSubscribeAuthorized getAuthSubTopics getAuthSubByUser
    rw [hnames, hrules]

/-! ### Adding and removing a rule -/

/-- Under a filter and a name, the map holds the rule with the highest number that has both. -/
def HoldsHighest (d : Side) (map : AuthMap) (rules : List Authorization) : Prop :=
  ∃ s, Holds map s ∧
    ∀ f n, s.lookup (f, n) = (highestRule (rules.filter (d.has f n))).map d.entry

/-- The two maps hold the listed rules. -/
structure HoldsRules (c : Security) : Prop where
  pub : HoldsHighest pubSide c.authPubMap c.authorization
  sub : HoldsHighest subSide c.authSubMap c.authorization

theorem Numbered.holdsHighest_iff (h : Numbered rules) :
    HoldsHighest d map rules ↔ Spread d map rules := by
  have hlast (f n : Buffer) :
      highestRule (rules.filter (d.has f n)) = (rules.filter (d.has f n)).getLast? :=
    (h.filter (d.has f n)).highestRule_eq
  unfold HoldsHighest Spread
  simp only [hlast]

theorem Consistent.holdsRules (h : Consistent c) : HoldsRules c where
  pub := h.numbered.holdsHighest_iff.mpr h.pub
  sub := h.numbered.holdsHighest_iff.mpr h.sub

/-- A rule with the filter and the name of another one is not held after the names of the other one
    have been erased. -/
theorem not_holdsHighest_erase {i j : Authorization} (hm : Spread d map rules) (hj : j ∈ rules')
    (hi : d.has f n i) (hhas : d.has f n j) :
    ¬ HoldsHighest d (eraseNames i.topic (d.names i).elems map) rules' := by
  rintro ⟨s, hs, hlookup⟩
  obtain ⟨r, hr, -⟩ := hm
  obtain ⟨s', hs', herase⟩ := holds_eraseNames i.topic (d.names i).elems hr
  obtain ⟨hf, hn, -⟩ := Side.has_iff.mp hi
  have hnone : s'.lookup (f, n) = none := by
    rw [herase, if_pos ⟨hf, hn⟩]
  -- what `erase` would return
  have hzero := (hs'.erase f n).1
  rw [hnone, (hs.erase f n).1, hlookup] at hzero
  have hempty : rules'.filter (d.has f n) = [] := by
    cases hhighest : highestRule (rules'.filter (d.has f n)) with
    | none => exact List.argmax_eq_none.mp hhighest
    | some i => simp [hhighest] at hzero
  exact List.filter_eq_nil_iff.mp hempty j hj hhas

/-- The rule with the number shares no filter and name with another rule. -/
def RemovesAlone (c : Security) (ruleNr : Nat) : Prop :=
  ∀ i ∈ c.authorization, i.ruleNr = ruleNr → Alone i c.authorization

/-- What a removal leaves, if the rule is alone -/
theorem Consistent.removeAuth_alone {ruleNr : Nat} (h : Consistent c)
    (halone : RemovesAlone c ruleNr) : Consistent (c.removeAuth ruleNr) := by
  by_cases hex : ∃ i ∈ c.authorization, i.ruleNr = ruleNr
  · obtain ⟨i, hi, rfl⟩ := hex
    exact (h.removeAuth hi (halone i hi rfl)).1
  · -- there is no rule with the number
    have hfind : c.authorization.find? (fun i => i.ruleNr = ruleNr) = none := by
      rw [List.find?_eq_none]
      intro i hi hnr
      exact hex ⟨i, hi, by simpa using hnr⟩
    have hsame : c.removeAuth ruleNr = c := by
      unfold Security.removeAuth
      rw [hfind]
    exact hsame.symm ▸ h

/-- The maps hold the rules after a removal only if the removed rule is alone. -/
theorem Consistent.holdsRules_removeAuth_iff {ruleNr : Nat} (h : Consistent c) :
    HoldsRules (c.removeAuth ruleNr) ↔ RemovesAlone c ruleNr := by
  constructor
  · rintro hrules i hi rfl j hj hne f n
    obtain ⟨before, after, hsplit, heq⟩ := h.numbered.removeAuth_eq hi
    have hj' : j ∈ before ++ after := by
      rw [hsplit] at hj
      simp only [List.mem_append, List.mem_cons] at hj ⊢
      tauto
    rw [heq] at hrules
    constructor
    · exact fun hhas hhas' => not_holdsHighest_erase h.pub hj' hhas hhas' hrules.pub
    · exact fun hhas hhas' => not_holdsHighest_erase h.sub hj' hhas hhas' hrules.sub
  · exact fun halone => (h.removeAuth_alone halone).holdsRules

section Restore

variable {tf : Buffer} {pub sub : OrdSet Buffer} {pubType subType : AuthType} {ruleNr : Nat}

theorem addAuth_groups (hok : c.addAuth tf pub pubType sub subType = .ok (ruleNr, c')) :
    c'.groups = c.groups := by
  obtain ⟨_, -, hok⟩ := Except.bind_eq_ok.mp hok
  obtain ⟨_, -, hok⟩ := Except.bind_eq_ok.mp hok
  obtain ⟨_, -, hok⟩ := Except.bind_eq_ok.mp hok
  obtain ⟨_, -, hok⟩ := Except.bind_eq_ok.mp hok
  obtain ⟨-, rfl⟩ := Prod.mk.inj (Except.ok.inj hok)
  rfl

theorem removeAuth_groups (c : Security) (ruleNr : Nat) : (c.removeAuth ruleNr).groups = c.groups := by
  unfold removeAuth
  split
  · rfl
  · rfl

/-- The list is what it was before. -/
theorem addAuth_removeAuth (h : Consistent c)
    (hok : c.addAuth tf pub pubType sub subType = .ok (ruleNr, c')) :
    (c'.removeAuth ruleNr).authorization = c.authorization := by
  have hnumbered := (h.addAuth hok).numbered
  obtain ⟨i, hrules, -, rfl⟩ := addAuth_authorization hok
  rw [hrules] at hnumbered
  have hlt := (List.pairwise_append.mp hnumbered.increasing).2.2
  -- the new number is that of no other rule
  have hnew : ∀ j ∈ c.authorization, ¬ j.ruleNr = i.ruleNr := fun j hj =>
    Nat.ne_of_lt (hlt j hj i (List.mem_singleton.mpr rfl))
  have hfind : c'.authorization.find? (fun j => j.ruleNr = i.ruleNr) = some i := by
    rw [hrules, List.find?_append, List.find?_eq_none.mpr (by simpa using hnew)]
    simp
  unfold removeAuth
  rw [hfind, hrules]
  dsimp only
  rw [List.eraseP_append_right _ (by simpa using hnew), List.eraseP_cons_of_pos (by simp),
    List.append_nil]

/-- What is restored by the removal of a rule that has been added -/
structure Restores (c c' : Security) : Prop where
  holds : HoldsRules c'
  decisions : SameDecisions c' c

/-- The configurations that the calls build, when the calls of `remove_auth` meet a condition -/
inductive Configured (ok : Security → Nat → Prop) : Security → Prop
  | make : Configured ok make
  | defaultConfig {c c' : Security} (hc : Configured ok c) (hok : c.defaultConfig = .ok c') :
      Configured ok c'
  | loadJson {c c' : Security} {readJson : Buffer → Except SecurityError PTree} {input : Buffer}
      (hc : Configured ok c) (hok : c.loadJson readJson input = .ok c') : Configured ok c'
  | addAuth {c c' : Security} {tf : Buffer} {pub sub : OrdSet Buffer} {pubType subType : AuthType}
      {ruleNr : Nat} (hc : Configured ok c)
      (hok : c.addAuth tf pub pubType sub subType = .ok (ruleNr, c')) : Configured ok c'
  | removeAuth {c : Security} {ruleNr : Nat} (hc : Configured ok c) (hok : ok c ruleNr) :
      Configured ok (c.removeAuth ruleNr)

theorem Configured.consistent (hc : Configured RemovesAlone c) : Consistent c := by
  induction hc with
  | make => exact consistent_make
  | defaultConfig _ hok ih => exact ih.defaultConfig hok
  | loadJson _ hok ih => exact ih.loadJson hok
  | addAuth _ hok ih => exact ih.addAuth hok
  | removeAuth _ hok ih => exact ih.removeAuth_alone hok

/-- The maps hold the listed rules after every run whose removals are of rules that share no filter
    and name with another rule, and then the removal of a rule that has just been added restores
    what was before if and only if it is such a rule. -/
theorem restores_iff_alone (hc : Configured RemovesAlone c) :
    HoldsRules c ∧ ∀ tf pub pubType sub subType ruleNr c',
      c.addAuth tf pub pubType sub subType = .ok (ruleNr, c') →
        (Restores c (c'.removeAuth ruleNr) ↔ RemovesAlone c' ruleNr) := by
  have h := hc.consistent
  refine ⟨h.holdsRules, fun tf pub pubType sub subType ruleNr c' hok => ?_⟩
  have h' := h.addAuth hok
  rw [← h'.holdsRules_removeAuth_iff]
  constructor
  · exact Restores.holds
  · intro hholds
    have hconsistent := h'.removeAuth_alone (h'.holdsRules_removeAuth_iff.mp hholds)
    have hgroups := (removeAuth_groups c' ruleNr).trans (addAuth_groups hok)
    exact ⟨hholds, decisions_eq hconsistent h hgroups (addAuth_removeAuth h hok)⟩

open ResponseTopics (defaultSecurity)

theorem configured_defaultSecurity (ok : Security → Nat → Prop) : Configured ok defaultSecurity :=
  .defaultConfig .make rfl

/-- A new broker, with one more rule about the anonymous user -/
def withRule (tf : Buffer) : Security :=
  ((defaultSecurity.addAuth tf ((∅ : OrdSet Buffer).insert (ofLiteral "anonymous")) .deny ∅
    .deny).toOption.getD (0, defaultSecurity)).2

/-- A rule about another filter is added and removed. -/
theorem restores_iff_alone_other :
    Restores defaultSecurity ((withRule (ofLiteral "a")).removeAuth 2) := by
  have hc : Configured RemovesAlone defaultSecurity := configured_defaultSecurity _
  have hok : defaultSecurity.addAuth (ofLiteral "a")
      ((∅ : OrdSet Buffer).insert (ofLiteral "anonymous")) .deny ∅ .deny =
        .ok (2, withRule (ofLiteral "a")) := rfl
  have hspec := (restores_iff_alone hc).2 _ _ _ _ _ _ _ hok
  refine hspec.mpr fun i hi hnr j hj hne f n => ?_
  have hnr' : j.ruleNr ≠ 2 := fun h =>
    hne ((hc.consistent.addAuth hok).numbered.eq_of_ruleNr hj hi (h.trans hnr.symm))
  have hothers : ∀ i ∈ (withRule (ofLiteral "a")).authorization, i.ruleNr = 2 →
      ∀ j ∈ (withRule (ofLiteral "a")).authorization, j.ruleNr ≠ 2 → i.topic ≠ j.topic := by
    decide +kernel
  have htopics := hothers i hi hnr j hj hnr'
  constructor
  · exact fun hhas hhas' => htopics (Side.topic_eq hhas hhas')
  · exact fun hhas hhas' => htopics (Side.topic_eq hhas hhas')

/-- A rule about the filter of the default rule is added and removed. After that nobody may publish
    or be delivered to. -/
theorem remove_auth_loses :
    ¬ ∀ c, Configured (fun _ _ => True) c → HoldsRules c ∧
      ∀ tf pub pubType sub subType ruleNr c',
        c.addAuth tf pub pubType sub subType = .ok (ruleNr, c') →
          Restores c (c'.removeAuth ruleNr) := by
  intro hclaim
  have hok : defaultSecurity.addAuth (ofLiteral "#")
      ((∅ : OrdSet Buffer).insert (ofLiteral "anonymous")) .deny ∅ .deny =
        .ok (2, withRule (ofLiteral "#")) := rfl
  have hrestores := (hclaim _ (configured_defaultSecurity _)).2 _ _ _ _ _ _ _ hok
  have hpub := hrestores.decisions.pub (ofLiteral "x") (ofLiteral "anonymous")
  exact absurd hpub (by decide +kernel)

end Restore

end Security

end AsyncMqtt
