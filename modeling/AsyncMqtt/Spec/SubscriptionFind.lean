import AsyncMqtt.Spec.SubscriptionCounts

/-!
# Matching in a subscription map

`find_match_impl` follows the levels of a topic and the wildcards beside them. On the paths of the
tree this is a search for the filters that match, and each of them is called back once.

## Key results

- `SubscriptionMapBase.Represents.findMatch_eq`: what is called back
- `SubscriptionMapBase.Represents.mem_foundPaths`, `SubscriptionMapBase.nodup_foundPaths`: for which
  filters
-/

namespace AsyncMqtt

namespace SubscriptionMapBase

variable {V : Type} [Inhabited V] {m : SubscriptionMapBase V} {S : List (List Buffer)}
  {A : List Buffer → V} {q : List Buffer} {qs : List (List Buffer)} {e : PathEntry V} {t : Buffer}
  {ts : List Buffer}

/-- There is an entry at the end of the path. -/
def hasNode (m : SubscriptionMapBase V) (q : List Buffer) : Bool := (m.node q).isSome

/-- The search for paths in the tree -/
def searchPaths (m : SubscriptionMapBase V) : List Buffer → List (List Buffer) →
    List (List Buffer) :=
  LevelMatch.search plusLevel hashLevel m.hasNode

/-- The paths to the filters that are found for a topic. The wildcards at the first level are left
    out for a level of the server. -/
def foundPaths (m : SubscriptionMapBase V) : List Buffer → List (List Buffer)
  | [] => []
  | t :: ts =>
    if isSystemLevel t then m.searchPaths ts (LevelMatch.present m.hasNode [[t]])
    else m.searchPaths (t :: ts) [[]]

theorem hasNode_on_path {p q : List Buffer} (h : p <+: q) (hq : m.hasNode q) : m.hasNode p :=
  isSome_on_path h hq

theorem filterMap_present (ps : List (List Buffer)) :
    (LevelMatch.present m.hasNode ps).filterMap m.node = ps.filterMap m.node := by
  unfold LevelMatch.present
  rw [List.filterMap_filter]
  congr 1
  funext q
  unfold hasNode
  cases m.node q with
  | none => rfl
  | some e => rfl

/-- Only the root has the identifier of the root. -/
theorem WellFormed.id_eq_rootNodeId (h : WellFormed m) (hq : m.node q = some e) :
    e.id = rootNodeId ↔ q = [] := by
  obtain ⟨e₀, he₀, hid⟩ := h.node_root
  constructor
  · intro heq
    exact FlatTree.node_inj h.tree hq he₀ (heq.trans hid.symm)
  · rintro rfl
    rw [← hid, Option.some.inj (hq.symm.trans he₀)]

/-- What is done with the entries at some paths is done at the paths. -/
theorem flatMap_node {β : Type} {g : PathEntry V → List β}
    {ps : List Buffer → List (List Buffer)} {val : PathEntry V → β}
    (hqs : ∀ q ∈ qs, m.hasNode q)
    (hg : ∀ q ∈ qs, ∀ e, m.node q = some e → g e = ((ps q).filterMap m.node).map val) :
    (qs.filterMap m.node).flatMap g =
      ((qs.flatMap fun q => LevelMatch.present m.hasNode (ps q)).filterMap m.node).map val := by
  induction qs with
  | nil => rfl
  | cons q qs ih =>
    obtain ⟨e, he⟩ := Option.isSome_iff_exists.mp (hqs q (List.mem_cons_self ..))
    rw [List.filterMap_cons_some he, List.flatMap_cons, List.flatMap_cons, List.filterMap_append,
      List.map_append, filterMap_present, hg q (List.mem_cons_self ..) e he]
    congr 1
    apply ih
    · exact fun q' hq' => hqs q' (List.mem_cons_of_mem _ hq')
    · exact fun q' hq' => hg q' (List.mem_cons_of_mem _ hq')

omit [Inhabited V] in
theorem matchLevels_nil (m : SubscriptionMapBase V) (ts : List Buffer) :
    m.matchLevels ts [] = [] := by
  cases ts <;> rfl

theorem hasNode_of_mem_searchPaths (hqs : ∀ q ∈ qs, m.hasNode q) :
    ∀ q ∈ m.searchPaths ts qs, m.hasNode q := by
  intro q hq
  obtain ⟨_, _, _, _, hhas, _⟩ :=
    (LevelMatch.mem_search (fun p q => hasNode_on_path) hqs).mp hq
  exact hhas

namespace Represents

/-- The children of an entry that go on -/
theorem matchChildren_eq (h : Represents m S A) (hq : m.node q = some e)
    (hroot : q = [] → isSystemLevel t = false) :
    m.matchChildren t e = [q ++ [t], q ++ [plusLevel]].filterMap m.node := by
  have hcond : e.id = rootNodeId → isSystemLevel t = false :=
    fun hid => hroot ((h.id_eq_rootNodeId hq).mp hid)
  unfold matchChildren
  rw [← h.node_snoc_lookup hq, ← h.node_snoc_lookup hq, h.plus q e hq]
  cases ht : m.node (q ++ [t]) <;> cases hplus : m.node (q ++ [plusLevel]) <;>
    simp [ht, hplus] <;> exact hcond

/-- The child for all levels that are left -/
theorem matchHashChild_eq (h : Represents m S A) (hq : m.node q = some e)
    (hroot : q = [] → isSystemLevel t = false) :
    m.matchHashChild t e = ([q ++ [hashLevel]].filterMap m.node).map PathEntry.value := by
  have hcond : e.id = rootNodeId → isSystemLevel t = false :=
    fun hid => hroot ((h.id_eq_rootNodeId hq).mp hid)
  unfold matchHashChild
  rw [← h.node_snoc_lookup hq, h.hash q e hq]
  cases hhash : m.node (q ++ [hashLevel]) with
  | none => simp [hhash]
  | some e' => simpa [hhash] using hcond

/-- The callback of `find_match_impl` follows a search. -/
theorem matchLevels_eq (h : Represents m S A) (hqs : ∀ q ∈ qs, m.hasNode q)
    (hroot : [] ∈ qs → ts.head?.any isSystemLevel = false) :
    m.matchLevels ts (qs.filterMap m.node) =
      ((m.searchPaths ts qs).filterMap m.node).map PathEntry.value := by
  unfold searchPaths
  induction ts generalizing qs with
  | nil => rfl
  | cons t ts ih =>
    have hentry : ∀ q ∈ qs, ∀ e, m.node q = some e → q = [] → isSystemLevel t = false := by
      rintro q hq e - rfl
      simpa using hroot hq
    -- the hash entries of these nodes match whatever is left
    have hhash : (qs.filterMap m.node).flatMap (m.matchHashChild t) =
        ((qs.flatMap fun q => LevelMatch.present m.hasNode [q ++ [hashLevel]]).filterMap
          m.node).map PathEntry.value :=
      flatMap_node hqs fun q hq e he => h.matchHashChild_eq he (hentry q hq e he)
    -- the other children are those of the level and of the single level wildcard
    have hchildren : (qs.filterMap m.node).flatMap (m.matchChildren t) =
        (qs.flatMap fun q => LevelMatch.present m.hasNode
          [q ++ [t], q ++ [plusLevel]]).filterMap m.node := by
      rw [← List.map_id (((qs.flatMap fun q => LevelMatch.present m.hasNode
        [q ++ [t], q ++ [plusLevel]])).filterMap m.node)]
      refine flatMap_node hqs fun q hq e he => ?_
      rw [List.map_id]
      exact h.matchChildren_eq he (hentry q hq e he)
    rw [LevelMatch.search, List.filterMap_append, List.map_append, matchLevels, hhash, hchildren]
    congr 1
    rw [← ih]
    · split
      · next hempty =>
        rw [List.isEmpty_iff.mp hempty, matchLevels_nil]
      · rfl
    · intro q hq
      obtain ⟨q', -, hq'⟩ := List.mem_flatMap.mp hq
      exact (LevelMatch.mem_present.mp hq').2
    -- the root is no child
    · intro hnil
      obtain ⟨q', -, hq'⟩ := List.mem_flatMap.mp hnil
      simp [LevelMatch.mem_present] at hq'

/-- What is called back for a topic -/
theorem findMatch_eq (h : Represents m S A) (topic : Buffer) :
    m.findMatch topic = (m.foundPaths (topicFilterTokens topic)).map A := by
  have hvalues : ∀ ps : List (List Buffer), (∀ q ∈ ps, m.hasNode q) →
      (ps.filterMap m.node).map PathEntry.value = ps.map A := by
    intro ps hps
    induction ps with
    | nil => rfl
    | cons q ps ih =>
      obtain ⟨e, he⟩ := Option.isSome_iff_exists.mp (hps q (List.mem_cons_self ..))
      rw [List.filterMap_cons_some he, List.map_cons, List.map_cons, h.value q e he,
        ih fun q' hq' => hps q' (List.mem_cons_of_mem _ hq')]
  obtain ⟨e, he, hid⟩ := h.node_root
  have hroot : (m.map.lookup rootKey).toList = [[]].filterMap m.node := by
    rw [List.filterMap_cons_some he, ← m.keyAt_nil, h.lookup_keyAt he]
    rfl
  unfold findMatch
  rw [hroot]
  cases hts : topicFilterTokens topic with
  | nil => exact absurd hts (topicFilterTokens_ne_nil topic)
  | cons t ts =>
    rw [foundPaths]
    split
    · next hsys =>
      -- only the level itself goes on from the root
      have hhash : m.matchHashChild t e = [] := if_neg (by simp [hid, hsys])
      have hchildren : m.matchChildren t e =
          (LevelMatch.present m.hasNode [[t]]).filterMap m.node := by
        unfold matchChildren
        rw [if_neg (by simp [hid, hsys]), List.append_nil, ← h.node_snoc_lookup he,
          filterMap_present]
        cases hnode : m.node [t] <;> simp [hnode]
      have hpresent : ∀ q ∈ LevelMatch.present m.hasNode [[t]], m.hasNode q :=
        fun q hq => (LevelMatch.mem_present.mp hq).2
      rw [List.filterMap_cons_some he, List.filterMap_nil, matchLevels, List.flatMap_singleton,
        List.flatMap_singleton, hhash, hchildren, List.nil_append,
        ← hvalues _ (hasNode_of_mem_searchPaths hpresent), ← h.matchLevels_eq hpresent]
      · split
        · next hempty => rw [List.isEmpty_iff.mp hempty, matchLevels_nil]
        · rfl
      · intro hnil
        simp [LevelMatch.mem_present] at hnil
    · next hsys =>
      have hnil : ∀ q ∈ [([] : List Buffer)], m.hasNode q := by simp [hasNode, node_nil]
      rw [h.matchLevels_eq hnil (by simpa using hsys)]
      exact hvalues _ (hasNode_of_mem_searchPaths hnil)

end Represents

/-- Which paths are found -/
theorem mem_foundPaths :
    q ∈ m.foundPaths ts ↔ ts ≠ [] ∧ m.hasNode q ∧ levelsMatch false q ts := by
  cases ts with
  | nil => simp [foundPaths]
  | cons t ts =>
    have hpre : ∀ p q : List Buffer, p <+: q → m.hasNode q → m.hasNode p :=
      fun p q => hasNode_on_path
    -- a level of the server is no wildcard
    have hwild : isSystemLevel t → t ≠ plusLevel ∧ t ≠ hashLevel := by
      intro hsys
      constructor <;> rintro rfl <;> exact absurd hsys (by decide)
    rw [foundPaths]
    unfold searchPaths levelsMatch
    by_cases hsys : isSystemLevel t
    · rw [if_pos hsys, LevelMatch.mem_search hpre fun q hq => (LevelMatch.mem_present.mp hq).2]
      constructor
      · rintro ⟨q', hq', s, rfl, hhas, hs⟩
        obtain rfl := List.mem_singleton.mp (LevelMatch.mem_present.mp hq').1
        refine ⟨List.cons_ne_nil t ts, hhas, Bool.and_eq_true_iff.mpr ⟨?_, ?_⟩⟩
        · exact LevelMatch.isMatch_cons_iff.mpr (.inr ⟨t, s, rfl, .inl rfl, hs⟩)
        · simp [isHidden, hwild hsys]
      · rintro ⟨-, hhas, hmatch⟩
        obtain ⟨hmatch, hhidden⟩ := Bool.and_eq_true_iff.mp hmatch
        rcases LevelMatch.isMatch_cons_iff.mp hmatch with rfl | ⟨g, s, rfl, rfl | rfl, hs⟩
        · simp [isHidden, hsys] at hhidden
        · have hg : m.hasNode [g] := hasNode_on_path (List.prefix_append [g] s) hhas
          exact ⟨[g], LevelMatch.mem_present.mpr ⟨List.mem_singleton.mpr rfl, hg⟩, s, rfl, hhas, hs⟩
        · simp [isHidden, hsys] at hhidden
    · rw [if_neg hsys, LevelMatch.mem_search hpre (by simp [hasNode, node_nil])]
      simp [isHidden, hsys]

/-- No path is found twice. -/
theorem nodup_foundPaths (hts : NoWildcards ts) : (m.foundPaths ts).Nodup := by
  have hne : plusLevel ≠ hashLevel := by decide
  cases ts with
  | nil => exact List.nodup_nil
  | cons t ts =>
    rw [foundPaths]
    unfold searchPaths
    split
    · apply LevelMatch.nodup_search hne (fun t ht => hts t (List.mem_cons_of_mem _ ht))
      · exact (List.nodup_singleton [t]).filter _
      · intro q hq
        rw [List.mem_singleton.mp (LevelMatch.mem_present.mp hq).1]
    · apply LevelMatch.nodup_search hne hts (List.nodup_singleton [])
      exact fun q hq => congrArg List.length (List.mem_singleton.mp hq)

end SubscriptionMapBase

end AsyncMqtt
