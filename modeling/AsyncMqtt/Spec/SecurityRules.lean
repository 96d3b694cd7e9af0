import Mathlib.Data.List.MinMax
import AsyncMqtt.ForStd.Keyed
import AsyncMqtt.Native.Security
import AsyncMqtt.Spec.SubscriptionMapCorrect

/-!
# The rules of a configuration

The calls that build a configuration number the rules in the order in which they are declared, and
spread them over the two subscription maps: under a filter and a name stands the last rule that has
both, however often `validate` inserts the rules again.

## Key results

- `Security.Consistent`: the numbers of the rules, and what the two maps hold
- `Security.Built.consistent`: every configuration that is built is consistent
- `Security.Consistent.removeAuth`: what a removal keeps, and when
-/

namespace AsyncMqtt

open scoped ByteOrder

namespace Security

open MultipleSubscriptionMap (Holds Stored)

variable {c c' : Security} {rules old : List Authorization} {i j : Authorization}
  {map map' : AuthMap} {s : Stored Buffer (AuthType × Nat)} {f n t u : Buffer}
  {v : AuthType × Nat} {names : List Buffer}

/-- The rule with the highest number -/
def highestRule (rules : List Authorization) : Option Authorization :=
  rules.argmax Authorization.ruleNr

/-- The rules are numbered in the order in which they are declared. -/
structure Numbered (rules : List Authorization) : Prop where
  increasing : rules.Pairwise fun i j => i.ruleNr < j.ruleNr
  pos : ∀ i ∈ rules, 0 < i.ruleNr

namespace Numbered

/-- The last rule has the highest number. -/
theorem highestRule_eq (h : Numbered rules) : highestRule rules = rules.getLast? := by
  unfold highestRule
  induction rules using List.reverseRecOn with
  | nil => rfl
  | append_singleton rules i ih =>
    obtain ⟨hrules, -, hlt⟩ := List.pairwise_append.mp h.increasing
    have ih := ih ⟨hrules, fun j hj => h.pos j (List.mem_append_left _ hj)⟩
    rw [List.argmax_concat, List.getLast?_concat, ih]
    cases hlast : rules.getLast? with
    | none => rfl
    | some j =>
      have hj := List.mem_of_mem_getLast? hlast
      exact if_pos (hlt j hj i (List.mem_singleton.mpr rfl))

/-- Rules that are left keep their numbers apart. -/
theorem filter (h : Numbered rules) (p : Authorization → Bool) : Numbered (rules.filter p) :=
  ⟨h.increasing.filter p, fun i hi => h.pos i (List.mem_filter.mp hi).1⟩

/-- Rules with the same number are the same. -/
theorem eq_of_ruleNr (h : Numbered rules) (hi : i ∈ rules) (hj : j ∈ rules)
    (heq : i.ruleNr = j.ruleNr) : i = j := by
  have hnodup : (rules.map Authorization.ruleNr).Nodup :=
    List.pairwise_map.mpr (h.increasing.imp fun hlt => Nat.ne_of_lt hlt)
  exact List.inj_on_of_nodup_map hnodup hi hj heq

end Numbered

/-- The largest number is at least each of them. -/
theorem foldl_max_le {k : Nat} :
    k ≤ rules.foldl (fun ruleNr i => max ruleNr i.ruleNr) k ∧
      ∀ i ∈ rules, i.ruleNr ≤ rules.foldl (fun ruleNr i => max ruleNr i.ruleNr) k := by
  induction rules generalizing k with
  | nil => exact ⟨Nat.le_refl k, nofun⟩
  | cons j rules ih =>
    obtain ⟨hk, hrules⟩ := ih (k := max k j.ruleNr)
    rw [List.foldl_cons]
    refine ⟨(Nat.le_max_left ..).trans hk, fun i hi => ?_⟩
    rcases List.mem_cons.mp hi with rfl | hi
    · exact (Nat.le_max_right ..).trans hk
    · exact hrules i hi

/-- A new rule gets the next number. -/
theorem Numbered.concat (h : Numbered c.authorization) (hi : i.ruleNr = c.getNextRuleNr) :
    Numbered (c.authorization ++ [i]) := by
  have hlt : ∀ j ∈ c.authorization, j.ruleNr < i.ruleNr := by
    intro j hj
    rw [hi]
    exact Nat.lt_succ_of_le (foldl_max_le.2 j hj)
  constructor
  · rw [List.pairwise_append]
    refine ⟨h.increasing, List.pairwise_singleton _ i, fun j hj i' hi' => ?_⟩
    rw [List.mem_singleton.mp hi']
    exact hlt j hj
  · intro j hj
    rcases List.mem_append.mp hj with hj | hj
    · exact h.pos j hj
    · rw [List.mem_singleton.mp hj, hi]
      exact Nat.succ_pos _

/-! ### The two maps -/

/-- What a rule says about publishing, or about subscribing -/
structure Side where
  names : Authorization → OrdSet Buffer
  type : Authorization → AuthType

/-- What the rules say about publishing -/
def pubSide : Side := ⟨Authorization.pub, Authorization.pubType⟩

/-- What the rules say about subscribing -/
def subSide : Side := ⟨Authorization.sub, Authorization.subType⟩

/-- What stands in the map for a rule -/
def Side.entry (d : Side) (i : Authorization) : AuthType × Nat := (d.type i, i.ruleNr)

/-- The rule has the filter and the name. -/
def Side.has (d : Side) (f n : Buffer) (i : Authorization) : Bool :=
  i.topic = f && n ∈ d.names i && n ≠ []

/-- A rule has a name for a filter if both are its own. -/
theorem Side.has_iff {d : Side} :
    d.has f n i ↔ f = i.topic ∧ n ∈ (d.names i).elems ∧ n ≠ [] := by
  unfold Side.has
  rw [Bool.and_eq_true_iff, Bool.and_eq_true_iff, decide_eq_true_iff, decide_eq_true_iff,
    decide_eq_true_iff, and_assoc, eq_comm]
  exact Iff.rfl

/-- A rule has one filter. -/
theorem Side.topic_eq {d : Side} (hi : d.has f n i) (hj : d.has f n j) : i.topic = j.topic :=
  (Side.has_iff.mp hi).1.symm.trans (Side.has_iff.mp hj).1

/-- Under a filter and a name, the map holds the last rule that has both. -/
def Spread (d : Side) (map : AuthMap) (rules : List Authorization) : Prop :=
  ∃ s, Holds map s ∧ ∀ f n, s.lookup (f, n) = ((rules.filter (d.has f n)).getLast?).map d.entry

variable {d : Side}

/-- A name is one of a user or of a group unless it is empty. -/
theorem isValidName_iff : (isValidUserName n || isValidGroupName n) = true ↔ n ≠ [] := by
  unfold isValidUserName isValidGroupName
  cases n with
  | nil => simp
  | cons a n => by_cases ha : a = 0x40 <;> simp [ha]

/-- What is stored after the names of a rule have been inserted. -/
structure Inserts (s s' : Stored Buffer (AuthType × Nat)) (f : Buffer) (names : List Buffer)
    (v : AuthType × Nat) : Prop where
  lookup : ∀ g n, s'.lookup (g, n) = if g = f ∧ n ∈ names ∧ n ≠ [] then some v else s.lookup (g, n)

namespace Inserts

variable {s' : Stored Buffer (AuthType × Nat)}

/-- No names, no entries -/
theorem nil : Inserts s s f [] v := ⟨fun g n => by simp⟩

/-- A name is inserted before the others. -/
theorem cons (h : Inserts (s.insert (f, n) v) s' f names v) (hn : n ≠ []) :
    Inserts s s' f (n :: names) v := by
  constructor
  intro g n'
  rw [h.lookup]
  by_cases heq : g = f ∧ n' = n
  · obtain ⟨rfl, rfl⟩ := heq
    simp [hn]
  · have hne : (g, n') ≠ (f, n) := fun hpair => heq (Prod.mk.inj hpair)
    rw [AList.lookup_insert_ne hne]
    by_cases hg : g = f
    · have hn' : n' ≠ n := fun h => heq ⟨hg, h⟩
      simp [hn']
    · simp [hg]

/-- An empty name is left out. -/
theorem cons_nil (h : Inserts s s' f names v) : Inserts s s' f ([] :: names) v := by
  constructor
  intro g n'
  rw [h.lookup]
  by_cases hn : n' = []
  · simp [hn]
  · simp [hn]

end Inserts

/-- One entry is set. -/
theorem holds_assign (hm : Holds map s) (hok : assign f n v map = .ok map') :
    Holds map' (s.insert (f, n) v) := by
  unfold assign at hok
  rcases hm.insertOrAssign f n v with ⟨h, m', hcall, hm', -⟩ | ⟨hcall, -⟩
  · rw [hcall] at hok
    exact Except.ok.inj hok ▸ hm'
  · rw [hcall] at hok
    exact nomatch hok

/-- The entries of the names are set, and each name was valid. -/
theorem holds_validateNames (hm : Holds map s)
    (hok : c.validateNames f v names map = .ok map') :
    ∃ s', Holds map' s' ∧ Inserts s s' f names v := by
  induction names generalizing map s with
  | nil =>
    obtain rfl := Except.ok.inj hok
    exact ⟨s, hm, .nil⟩
  | cons n names ih =>
    rw [validateNames] at hok
    obtain ⟨_, -, hok⟩ := Except.bind_eq_ok.mp hok
    -- the name is valid and inserted, or it is empty and left out
    split at hok
    · next hn =>
      obtain ⟨map₁, hassign, hok⟩ := Except.bind_eq_ok.mp hok
      obtain ⟨s', hm', hs'⟩ := ih (holds_assign hm hassign) hok
      exact ⟨s', hm', hs'.cons (isValidName_iff.mp hn)⟩
    · next hn =>
      obtain rfl : n = [] := by simpa using mt isValidName_iff.mpr hn
      obtain ⟨s', hm', hs'⟩ := ih hm hok
      exact ⟨s', hm', hs'.cons_nil⟩

/-- The entries of the names are set. -/
theorem holds_assignNames (hm : Holds map s) (hnames : ∀ n ∈ names, n ≠ [])
    (hok : assignNames f v names map = .ok map') :
    ∃ s', Holds map' s' ∧ Inserts s s' f names v := by
  induction names generalizing map s with
  | nil =>
    obtain rfl := Except.ok.inj hok
    exact ⟨s, hm, .nil⟩
  | cons n names ih =>
    rw [assignNames] at hok
    obtain ⟨map₁, hassign, hok⟩ := Except.bind_eq_ok.mp hok
    obtain ⟨s', hm', hs'⟩ :=
      ih (holds_assign hm hassign) (fun n' hn' => hnames n' (List.mem_cons_of_mem _ hn')) hok
    exact ⟨s', hm', hs'.cons (hnames n (List.mem_cons_self ..))⟩

/-- The names of one more rule are inserted. -/
theorem Spread.concat (hspread : ∀ f n, s.lookup (f, n) =
      ((rules.filter (d.has f n)).getLast?).map d.entry) {s' : Stored Buffer (AuthType × Nat)}
    (hm' : Holds map' s') (hs' : Inserts s s' i.topic (d.names i).elems (d.entry i)) :
    Spread d map' (rules ++ [i]) := by
  refine ⟨s', hm', fun f n => ?_⟩
  rw [hs'.lookup, List.filter_append]
  by_cases hhas : d.has f n i
  · have hone : [i].filter (d.has f n) = [i] := by simp [hhas]
    rw [if_pos (Side.has_iff.mp hhas), hone, List.getLast?_concat]
    rfl
  · have hnone : [i].filter (d.has f n) = [] := by simp [hhas]
    rw [if_neg (mt Side.has_iff.mpr hhas), hspread, hnone, List.append_nil]

/-- Rules that are inserted again change nothing. -/
theorem Spread.absorb (h : Spread d map (old ++ rules)) (hold : old <+: rules) :
    Spread d map rules := by
  obtain ⟨s, hm, hs⟩ := h
  refine ⟨s, hm, fun f n => ?_⟩
  rw [hs, List.filter_append]
  obtain ⟨new, rfl⟩ := hold
  cases hlast : ((old ++ new).filter (d.has f n)).getLast? with
  | none =>
    have hnil := List.getLast?_eq_none_iff.mp hlast
    rw [List.filter_append, List.append_eq_nil_iff] at hnil
    rw [List.filter_append, hnil.1, hnil.2]
    rfl
  | some i => rw [List.getLast?_append, hlast, Option.some_or]

/-! ### Building a configuration -/

/-- What a configuration lists -/
structure Declared (c : Security) : Prop where
  numbered : Numbered c.authorization
  tokens : ∀ i ∈ c.authorization, i.topicTokens = topicFilterTokens i.topic
  users : ∀ u, (c.authentication.lookup u).isSome → u ≠ []
  groups : ∀ g, (c.groups.lookup g).isSome → g ≠ []

/-- What a configuration lists, and that the two maps hold the rules -/
structure Consistent (c : Security) : Prop extends Declared c where
  any : ∀ u, (c.authentication.lookup u).isSome → (c.groups.lookup anyGroupName).isSome
  sub : Spread subSide c.authSubMap c.authorization
  pub : Spread pubSide c.authPubMap c.authorization

/-- A rule with the next number is declared last. -/
theorem Declared.concat (h : Declared c) (hi : i.ruleNr = c.getNextRuleNr)
    (htokens : i.topicTokens = topicFilterTokens i.topic) :
    Declared { c with authorization := c.authorization ++ [i] } where
  numbered := h.numbered.concat hi
  tokens j hj := by
    rcases List.mem_append.mp hj with hj | hj
    · exact h.tokens j hj
    · exact List.mem_singleton.mp hj ▸ htokens
  users := h.users
  groups := h.groups

/-- A key is there after an insertion if it was there or is the new one. -/
theorem isSome_lookup_insert {β : Type} {m : OrdMap Buffer β} {k k' : Buffer} {b : β} :
    ((m.insert k b).lookup k').isSome ↔ k' = k ∨ (m.lookup k').isSome := by
  rw [OrdMap.lookup_insert]
  by_cases heq : k' = k
  · simp [heq]
  · simp [heq]

/-- A user is declared. -/
theorem Declared.insertUser (h : Declared c) (hu : u ≠ []) (auth : Authentication) :
    Declared { c with authentication := c.authentication.insert u auth } where
  numbered := h.numbered
  tokens := h.tokens
  users u' hu' := by
    rcases isSome_lookup_insert.mp hu' with rfl | hu'
    · exact hu
    · exact h.users u' hu'
  groups := h.groups

/-- A group is declared. -/
theorem Declared.insertGroup (h : Declared c) (hg : n ≠ []) (group : Group) :
    Declared { c with groups := c.groups.insert n group } where
  numbered := h.numbered
  tokens := h.tokens
  users := h.users
  groups g hg' := by
    rcases isSome_lookup_insert.mp hg' with rfl | hg'
    · exact hg
    · exact h.groups g hg'

/-- `validate` inserts the rules, and changes nothing else. -/
theorem validateRules_spread (hsub : Spread subSide c.authSubMap old)
    (hpub : Spread pubSide c.authPubMap old) (hok : validateRules rules c = .ok c') :
    Spread subSide c'.authSubMap (old ++ rules) ∧ Spread pubSide c'.authPubMap (old ++ rules) ∧
      c'.authorization = c.authorization ∧ c'.groups = c.groups ∧
      c'.authentication = c.authentication := by
  induction rules generalizing c old with
  | nil =>
    obtain rfl := Except.ok.inj hok
    rw [List.append_nil]
    exact ⟨hsub, hpub, rfl, rfl, rfl⟩
  | cons i rules ih =>
    rw [validateRules] at hok
    -- the names of the rule are inserted for both sides, the other rules after it
    obtain ⟨sub, hs, hok⟩ := Except.bind_eq_ok.mp hok
    obtain ⟨pub, hp, hok⟩ := Except.bind_eq_ok.mp hok
    obtain ⟨s, hm, hspread⟩ := hsub
    obtain ⟨r, hr, hspread'⟩ := hpub
    obtain ⟨s', hm', hs'⟩ := holds_validateNames hm hs
    obtain ⟨r', hr', hp'⟩ := holds_validateNames hr hp
    rw [List.append_cons]
    exact ih (c := { c with authSubMap := sub, authPubMap := pub })
      (Spread.concat hspread hm' hs') (Spread.concat hspread' hr' hp') hok

/-- The maps hold the rules up to some of them, and `validate` adds the others. -/
theorem Declared.validate (h : Declared c) (hold : old <+: c.authorization)
    (hsub : Spread subSide c.authSubMap old) (hpub : Spread pubSide c.authPubMap old)
    (hany : (c.groups.lookup anyGroupName).isSome) (hok : c.validate = .ok c') :
    Consistent c' := by
  obtain ⟨_, -, hok⟩ := Except.bind_eq_ok.mp hok
  obtain ⟨hsub', hpub', hrules, hgroups, hauth⟩ := validateRules_spread hsub hpub hok
  refine ⟨⟨?_, ?_, ?_, ?_⟩, ?_, ?_, ?_⟩
  · exact hrules ▸ h.numbered
  · exact hrules ▸ h.tokens
  · exact hauth ▸ h.users
  · exact hgroups ▸ h.groups
  · exact fun _ _ => hgroups ▸ hany
  · exact hrules ▸ hsub'.absorb hold
  · exact hrules ▸ hpub'.absorb hold

/-- Without rules the map is empty. -/
theorem spread_make (d : Side) : Spread d SubscriptionMapBase.make [] :=
  ⟨∅, Holds.make, fun _ _ => rfl⟩

/-- An empty configuration is consistent. -/
theorem consistent_make : Consistent make where
  numbered := ⟨List.Pairwise.nil, nofun⟩
  tokens := nofun
  users := nofun
  groups := nofun
  any := nofun
  sub := spread_make subSide
  pub := spread_make pubSide

/-- The default configuration is consistent. -/
theorem Consistent.defaultConfig (h : Consistent c) (hok : c.defaultConfig = .ok c') :
    Consistent c' := by
  have hname : ofLiteral "anonymous" ≠ [] := by decide
  have hany : anyGroupName ≠ [] := by decide
  have huser := h.toDeclared.insertUser hname { authMethod := .anonymous }
  dsimp only [Security.defaultConfig] at hok
  refine @Declared.validate _ c' c.authorization ?_ ?_ ?_ ?_ ?_ hok
  · constructor
    · exact h.numbered.concat rfl
    · exact (h.toDeclared.concat rfl rfl).tokens
    · exact huser.users
    · exact (h.toDeclared.insertGroup hany ⟨[]⟩).groups
  · exact List.prefix_append _ _
  · exact h.sub
  · exact h.pub
  · exact isSome_lookup_insert.mpr (.inl rfl)

/-- Names that passed the check are not empty. -/
theorem checkNames_ok {tf : Buffer} (hok : c.checkNames tf names = .ok ()) : ∀ n ∈ names, n ≠ [] := by
  induction names with
  | nil => exact nofun
  | cons j names ih =>
    obtain ⟨_, hj, hok⟩ := Except.bind_eq_ok.mp hok
    intro n hn
    rcases List.mem_cons.mp hn with rfl | hn
    · rintro rfl
      exact nomatch hj
    · exact ih hok n hn

/-- Adding a rule keeps the configuration consistent. -/
theorem Consistent.addAuth {tf : Buffer} {pub sub : OrdSet Buffer} {pubType subType : AuthType}
    {ruleNr : Nat} (h : Consistent c)
    (hok : c.addAuth tf pub pubType sub subType = .ok (ruleNr, c')) : Consistent c' := by
  -- both lists of names were checked before the maps are touched
  obtain ⟨_, hpubNames, hok⟩ := Except.bind_eq_ok.mp hok
  obtain ⟨_, hsubNames, hok⟩ := Except.bind_eq_ok.mp hok
  obtain ⟨subMap, hsub, hok⟩ := Except.bind_eq_ok.mp hok
  obtain ⟨pubMap, hpub, hok⟩ := Except.bind_eq_ok.mp hok
  obtain ⟨-, rfl⟩ := Prod.mk.inj (Except.ok.inj hok)
  obtain ⟨s, hm, hspread⟩ := h.sub
  obtain ⟨r, hr, hspread'⟩ := h.pub
  obtain ⟨s', hm', hs'⟩ := holds_assignNames hm (checkNames_ok hsubNames) hsub
  obtain ⟨r', hr', hp'⟩ := holds_assignNames hr (checkNames_ok hpubNames) hpub
  have hdeclared := h.toDeclared.concat (i := ⟨topicFilterTokens tf, tf, c.getNextRuleNr, subType,
    sub, pubType, pub⟩) rfl rfl
  exact { hdeclared with
    numbered := hdeclared.numbered
    tokens := hdeclared.tokens
    users := hdeclared.users
    groups := hdeclared.groups
    any := h.any
    sub := Spread.concat hspread hm' hs'
    pub := Spread.concat hspread' hr' hp' }

/-- What the loops of `load_json` keep, before the rules are inserted -/
structure Loading (c c' : Security) : Prop extends Declared c' where
  any : (c'.groups.lookup anyGroupName).isSome
  sub : c'.authSubMap = c.authSubMap
  pub : c'.authPubMap = c.authPubMap
  rules : c.authorization <+: c'.authorization

namespace Loading

variable {c'' : Security}

/-- Loading begins with the group of everyone. -/
theorem start (h : Consistent c) :
    Loading c { c with groups := c.groups.insert anyGroupName ⟨[]⟩ } := by
  have hany : anyGroupName ≠ [] := by decide
  exact { h.toDeclared.insertGroup hany ⟨[]⟩ with
    any := isSome_lookup_insert.mpr (.inl rfl)
    sub := rfl
    pub := rfl
    rules := List.prefix_rfl }

/-- A user is added, and perhaps one of the two special users. -/
theorem insertUser (h : Loading c c') (hu : u ≠ []) (auth : Authentication)
    (anonymous unauthenticated : Option Buffer) :
    Loading c { c' with
      authentication := c'.authentication.insert u auth
      anonymous := anonymous
      unauthenticated := unauthenticated } := by
  have hdeclared := h.toDeclared.insertUser hu auth
  exact {
    numbered := hdeclared.numbered
    tokens := hdeclared.tokens
    users := hdeclared.users
    groups := hdeclared.groups
    any := h.any
    sub := h.sub
    pub := h.pub
    rules := h.rules }

/-- A user is loaded. -/
theorem loadAuthentication {i : PTree} (h : Loading c c')
    (hok : c'.loadAuthentication i = .ok c'') : Loading c c'' := by
  obtain ⟨name, -, hok⟩ := Except.bind_eq_ok.mp hok
  split at hok
  · exact nomatch hok
  · next hvalid =>
    have hname : name ≠ [] := by
      rintro rfl
      simp [isValidUserName] at hvalid
    obtain ⟨method, -, hok⟩ := Except.bind_eq_ok.mp hok
    dsimp only at hok
    -- one case for each method
    split at hok
    · obtain ⟨digest, -, hok⟩ := Except.bind_eq_ok.mp hok
      exact Except.ok.inj hok ▸ h.insertUser hname _ _ _
    · split at hok
      · obtain ⟨digest, -, hok⟩ := Except.bind_eq_ok.mp hok
        exact Except.ok.inj hok ▸ h.insertUser hname _ _ _
      · split at hok
        · exact Except.ok.inj hok ▸ h.insertUser hname _ _ _
        · split at hok
          · split at hok
            · exact nomatch hok
            · exact Except.ok.inj hok ▸ h.insertUser hname _ _ _
          · split at hok
            · split at hok
              · exact nomatch hok
              · exact Except.ok.inj hok ▸ h.insertUser hname _ _ _
            · exact nomatch hok

/-- A group is loaded. -/
theorem loadGroup {i : PTree} (h : Loading c c') (hok : c'.loadGroup i = .ok c'') :
    Loading c c'' := by
  obtain ⟨name, -, hok⟩ := Except.bind_eq_ok.mp hok
  split at hok
  · exact nomatch hok
  · next hvalid =>
    have hname : name ≠ [] := by
      rintro rfl
      simp [isValidGroupName] at hvalid
    have hinsert (members : List Buffer) :
        Loading c { c' with groups := c'.groups.insert name ⟨members⟩ } :=
      { h.toDeclared.insertGroup hname ⟨members⟩ with
        any := isSome_lookup_insert.mpr (.inr h.any)
        sub := h.sub
        pub := h.pub
        rules := h.rules }
    dsimp only at hok
    -- a group without members is inserted too
    split at hok
    · exact Except.ok.inj hok ▸ hinsert []
    · obtain ⟨members, -, hok⟩ := Except.bind_eq_ok.mp hok
      exact Except.ok.inj hok ▸ hinsert members

/-- Loading a list of names leaves the filter and the number of the rule. -/
theorem loadType_frame (key : String) (type : AuthType) (t : PTree) (i : Authorization) :
    (loadType key type t i).topic = i.topic ∧ (loadType key type t i).ruleNr = i.ruleNr ∧
      (loadType key type t i).topicTokens = i.topicTokens := by
  unfold loadType
  split
  · exact ⟨rfl, rfl, rfl⟩
  · exact ⟨rfl, rfl, rfl⟩

/-- A rule is loaded. -/
theorem loadAuthorization {t : PTree} (h : Loading c c')
    (hok : c'.loadAuthorization t = .ok c'') : Loading c c'' := by
  obtain ⟨name, -, hok⟩ := Except.bind_eq_ok.mp hok
  split at hok
  · exact nomatch hok
  · obtain rfl := Except.ok.inj hok
    obtain ⟨htopic, hnr, htokens⟩ := loadType_frame "deny" .deny t
      (loadType "allow" .allow t ⟨topicFilterTokens name, name, c'.getNextRuleNr, .none, ∅, .none, ∅⟩)
    obtain ⟨htopic', hnr', htokens'⟩ := loadType_frame "allow" .allow t
      ⟨topicFilterTokens name, name, c'.getNextRuleNr, .none, ∅, .none, ∅⟩
    have hdeclared := h.toDeclared.concat (hnr.trans hnr')
      (by rw [htokens, htokens', htopic, htopic'])
    exact { hdeclared with
      any := h.any
      sub := h.sub
      pub := h.pub
      rules := h.rules.trans (List.prefix_append _ _) }

end Loading

/-- `load_json` gives a consistent configuration. -/
theorem Consistent.loadJson {readJson : Buffer → Except SecurityError PTree} {input : Buffer}
    (h : Consistent c) (hok : c.loadJson readJson input = .ok c') : Consistent c' := by
  obtain ⟨root, -, hok⟩ := Except.bind_eq_ok.mp hok
  obtain ⟨authentication, -, hok⟩ := Except.bind_eq_ok.mp hok
  obtain ⟨c₁, h₁, hok⟩ := Except.bind_eq_ok.mp hok
  have hload₁ : Loading c c₁ := Except.foldlM_induction
    (fun _ _ _ hb hstep => Loading.loadAuthentication hb hstep) (Loading.start h) h₁
  -- what follows the groups
  have hrest {c₂ : Security} (hload₂ : Loading c c₂) (hok : (do
      let authorization ← root.getChild "authorization"
      let c ← authorization.children.foldlM
        (fun (c : Security) (i : Buffer × PTree) => c.loadAuthorization i.2) c₂
      c.validate) = .ok c') : Consistent c' := by
    obtain ⟨authorization, -, hok⟩ := Except.bind_eq_ok.mp hok
    obtain ⟨c₃, h₃, hok⟩ := Except.bind_eq_ok.mp hok
    have hload₃ : Loading c c₃ := Except.foldlM_induction
      (fun _ _ _ hb hstep => Loading.loadAuthorization hb hstep) hload₂ h₃
    exact hload₃.toDeclared.validate hload₃.rules (hload₃.sub ▸ h.sub) (hload₃.pub ▸ h.pub)
      hload₃.any hok
  dsimp only at hok
  split at hok
  · exact hrest hload₁ hok
  · obtain ⟨c₂, h₂, hok⟩ := Except.bind_eq_ok.mp hok
    exact hrest (Except.foldlM_induction (fun _ _ _ hb hstep => Loading.loadGroup hb hstep) hload₁ h₂)
      hok

/-- The configurations that the calls build -/
inductive Built : Security → Prop
  | make : Built make
  | defaultConfig {c c' : Security} (hc : Built c) (hok : c.defaultConfig = .ok c') : Built c'
  | loadJson {c c' : Security} {readJson : Buffer → Except SecurityError PTree} {input : Buffer}
      (hc : Built c) (hok : c.loadJson readJson input = .ok c') : Built c'
  | addAuth {c c' : Security} {tf : Buffer} {pub sub : OrdSet Buffer} {pubType subType : AuthType}
      {ruleNr : Nat} (hc : Built c) (hok : c.addAuth tf pub pubType sub subType = .ok (ruleNr, c')) :
      Built c'

/-- Every configuration that is built is consistent. -/
theorem Built.consistent (h : Built c) : Consistent c := by
  induction h with
  | make => exact consistent_make
  | defaultConfig _ hok ih => exact ih.defaultConfig hok
  | loadJson _ hok ih => exact ih.loadJson hok
  | addAuth _ hok ih => exact ih.addAuth hok

/-! ### Adding and removing a rule -/

/-- What `add_auth` adds to the list. -/
theorem addAuth_authorization {tf : Buffer} {pub sub : OrdSet Buffer} {pubType subType : AuthType}
    {ruleNr : Nat} (hok : c.addAuth tf pub pubType sub subType = .ok (ruleNr, c')) :
    ∃ i, c'.authorization = c.authorization ++ [i] ∧ i.topic = tf ∧ i.ruleNr = ruleNr := by
  obtain ⟨_, -, hok⟩ := Except.bind_eq_ok.mp hok
  obtain ⟨_, -, hok⟩ := Except.bind_eq_ok.mp hok
  obtain ⟨_, -, hok⟩ := Except.bind_eq_ok.mp hok
  obtain ⟨_, -, hok⟩ := Except.bind_eq_ok.mp hok
  obtain ⟨rfl, rfl⟩ := Prod.mk.inj (Except.ok.inj hok)
  exact ⟨_, rfl, rfl, rfl⟩

/-- The entries of the names are erased. -/
theorem holds_eraseNames (f : Buffer) (names : List Buffer) (hm : Holds map s) :
    ∃ s', Holds (eraseNames f names map) s' ∧
      ∀ g n, s'.lookup (g, n) = if g = f ∧ n ∈ names then none else s.lookup (g, n) := by
  induction names generalizing map s with
  | nil => exact ⟨s, hm, fun g n => by simp⟩
  | cons j names ih =>
    obtain ⟨s', hm', hs'⟩ := ih (hm.erase f j).2.1
    refine ⟨s', hm', fun g n => ?_⟩
    rw [hs']
    -- the pair is the erased one, or it is held as before
    by_cases heq : (g, n) = (f, j)
    · obtain ⟨rfl, rfl⟩ := Prod.mk.inj heq
      simp
    · have hne : ¬ (g = f ∧ n = j) := by simpa using heq
      rw [AList.lookup_erase_ne heq]
      by_cases hg : g = f
      · have hn : n ≠ j := fun h => hne ⟨hg, h⟩
        simp [hn]
      · simp [hg]

/-- No other rule has a filter and a name that this one has. -/
def Alone (i : Authorization) (rules : List Authorization) : Prop :=
  ∀ j ∈ rules, j ≠ i → ∀ f n, (pubSide.has f n i → ¬ pubSide.has f n j) ∧
    (subSide.has f n i → ¬ subSide.has f n j)

/-- A rule is removed that shares no filter and name with another one. -/
theorem Spread.remove {before after : List Authorization} (h : Spread d map (before ++ i :: after))
    (halone : ∀ j ∈ before ++ after, ∀ f n, d.has f n i → ¬ d.has f n j) :
    Spread d (eraseNames i.topic (d.names i).elems map) (before ++ after) := by
  obtain ⟨s, hm, hs⟩ := h
  obtain ⟨s', hm', hs'⟩ := holds_eraseNames i.topic (d.names i).elems hm
  refine ⟨s', hm', fun f n => ?_⟩
  rw [hs', hs, List.filter_append, List.filter_append, List.filter_cons]
  by_cases hhas : d.has f n i
  · -- no other rule has the filter and the name
    have hnone {rules : List Authorization} (hsub : rules ⊆ before ++ after) :
        rules.filter (d.has f n) = [] := by
      rw [List.filter_eq_nil_iff]
      exact fun j hj => halone j (hsub hj) f n hhas
    rw [hnone (List.subset_append_left ..), hnone (List.subset_append_right ..)]
    obtain ⟨hf, hn, -⟩ := Side.has_iff.mp hhas
    rw [if_pos ⟨hf, hn⟩]
    rfl
  · rw [if_neg hhas]
    by_cases hfn : f = i.topic ∧ n ∈ (d.names i).elems
    · -- the rule has only the empty name, which is in no map
      obtain rfl : n = [] := by
        by_contra hne
        exact hhas (Side.has_iff.mpr ⟨hfn.1, hfn.2, hne⟩)
      have hnone (rules : List Authorization) : rules.filter (d.has f []) = [] := by
        rw [List.filter_eq_nil_iff]
        exact fun j _ hj => (Side.has_iff.mp hj).2.2 rfl
      rw [if_pos hfn, hnone, hnone]
      rfl
    · rw [if_neg hfn]

/-- `remove_auth` removes the rule with the number. -/
theorem Numbered.removeAuth_eq (h : Numbered c.authorization) (hi : i ∈ c.authorization) :
    ∃ before after, c.authorization = before ++ i :: after ∧
      c.removeAuth i.ruleNr = { c with
        authSubMap := eraseNames i.topic i.sub.elems c.authSubMap
        authPubMap := eraseNames i.topic i.pub.elems c.authPubMap
        authorization := before ++ after } := by
  have hnodup : (c.authorization.map Authorization.ruleNr).Nodup :=
    List.pairwise_map.mpr (h.increasing.imp fun hlt => Nat.ne_of_lt hlt)
  have hfind := Keyed.find?_eq_some hnodup hi rfl
  obtain ⟨-, before, after, hsplit, hbefore⟩ := List.find?_eq_some_iff_append.mp hfind
  refine ⟨before, after, hsplit, ?_⟩
  unfold removeAuth
  rw [hfind]
  have herase : c.authorization.eraseP (fun j => j.ruleNr = i.ruleNr) = before ++ after := by
    rw [hsplit, List.eraseP_append_right _ (by simpa using hbefore),
      List.eraseP_cons_of_pos (by simp)]
  rw [herase]

/-- What is left when a rule is removed. -/
theorem Numbered.removeAuth_split {before after : List Authorization} (h : Numbered c.authorization)
    (hsplit : c.authorization = before ++ i :: after) :
    (before ++ after).Sublist c.authorization ∧ i ∉ before ++ after := by
  constructor
  · rw [hsplit]
    exact (List.sublist_cons_self i after).append_left before
  · have hnodup : c.authorization.Nodup := h.increasing.imp fun {j k} hlt heq => by
      rw [heq] at hlt
      exact Nat.lt_irrefl _ hlt
    rw [hsplit] at hnodup
    exact (List.nodup_cons.mp (List.perm_middle.nodup_iff.mp hnodup)).1

/-- `remove_auth` leaves a consistent configuration if the rule is alone with its filter and names. -/
theorem Consistent.removeAuth (h : Consistent c) (hi : i ∈ c.authorization)
    (halone : Alone i c.authorization) :
    Consistent (c.removeAuth i.ruleNr) ∧
      ∀ j, j ∈ (c.removeAuth i.ruleNr).authorization ↔ j ∈ c.authorization ∧ j ≠ i := by
  obtain ⟨before, after, hsplit, heq⟩ := h.numbered.removeAuth_eq hi
  obtain ⟨hsublist, hnot⟩ := h.numbered.removeAuth_split hsplit
  have hothers : ∀ j ∈ before ++ after, ∀ f n, (pubSide.has f n i → ¬ pubSide.has f n j) ∧
      (subSide.has f n i → ¬ subSide.has f n j) := fun j hj =>
    halone j (hsublist.subset hj) fun heq => hnot (heq ▸ hj)
  rw [heq]
  -- the rules that are left keep their numbers and their maps
  constructor
  · exact {
      numbered := ⟨h.numbered.increasing.sublist hsublist,
        fun j hj => h.numbered.pos j (hsublist.subset hj)⟩
      tokens := fun j hj => h.tokens j (hsublist.subset hj)
      users := h.users
      groups := h.groups
      any := h.any
      sub := Spread.remove (d := subSide) (hsplit ▸ h.sub) fun j hj f n => (hothers j hj f n).2
      pub := Spread.remove (d := pubSide) (hsplit ▸ h.pub) fun j hj f n => (hothers j hj f n).1 }
  -- the rules that are left are those other than the removed one
  · intro j
    rw [hsplit]
    constructor
    · intro hj
      refine ⟨hsplit ▸ hsublist.subset hj, fun heq => hnot (heq ▸ hj)⟩
    · rintro ⟨hj, hne⟩
      simp only [List.mem_append, List.mem_cons] at hj ⊢
      tauto

end Security

end AsyncMqtt
