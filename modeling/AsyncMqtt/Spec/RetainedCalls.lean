import AsyncMqtt.Spec.RetainedTree

/-!
# The retained topics as a finite map

A `retained_topic_map` holds what a finite map from topics to values holds that is given the same
calls. The nodes are counted, and those whose count comes to zero are erased.

## Key results

- `RetainedTopicMap.Represents.createLevels`: how far `create_topic` gets
- `RetainedTopicMap.Represents.inserts`, `RetainedTopicMap.Represents.eraseCall`: one call, when paths
  have been left behind
- `RetainedTopicMap.Holds.insertOrAssign`, `RetainedTopicMap.Holds.erase`: one call
-/

namespace AsyncMqtt

namespace RetainedTopicMap

open FlatTree (pathsAlong mem_pathsAlong_nil nodup_pathsAlong getLast?_pathsAlong)

/-- The finite map -/
abbrev Stored (V : Type) := AList fun _ : Buffer => V

variable {V : Type} {m m' : RetainedTopicMap V} {s : Stored V} {e : RetainedEntry V}
  {p q : List Buffer} {f : Buffer} {v : V}

/-! ### Loops over a path -/

/-- The entries with these identifiers are counted once more. -/
def counted (ids : List Nat) (e : RetainedEntry V) : RetainedEntry V :=
  if e.id ∈ ids then { e with count := e.count + 1 } else e

/-- The entries with these identifiers are counted once less. -/
def discounted (ids : List Nat) (e : RetainedEntry V) : RetainedEntry V :=
  if e.id ∈ ids then { e with count := e.count - 1 } else e

/-- Counting leaves the place of each entry. -/
theorem keeps_counted (ids : List Nat) : Keeps (counted ids : RetainedEntry V → _) := by
  constructor <;> intro e <;> unfold counted <;> split <;> rfl

/-- Discounting leaves the place of each entry. -/
theorem keeps_discounted (ids : List Nat) : Keeps (discounted ids : RetainedEntry V → _) := by
  constructor <;> intro e <;> unfold discounted <;> split <;> rfl

/-- `increase_topics` counts the entries of a path. -/
theorem increaseTopics_eq {path : List (RetainedEntry V)} (hids : (m.map.map RetainedEntry.id).Nodup)
    (hpath : (path.map RetainedEntry.id).Nodup) (hmem : ∀ e ∈ path, e ∈ m.map)
    (hok : increaseTopics path m = .ok m') : m' = m.update (counted (path.map RetainedEntry.id)) := by
  induction path generalizing m with
  | nil =>
    obtain rfl := Except.ok.inj hok
    have hcounted : (counted [] : RetainedEntry V → _) = id := by
      funext e
      simp [counted]
    rw [List.map_nil, hcounted, update, List.map_id]
  | cons i path ih =>
    obtain ⟨hi, hpath⟩ := List.nodup_cons.mp hpath
    obtain ⟨entry, hentry, hok⟩ := Except.bind_eq_ok.mp hok
    unfold increaseCount at hentry
    split at hentry
    · exact nomatch hentry
    · obtain rfl := Except.ok.inj hentry
      -- the entry is found in the container under its identifier
      have hunique : ∀ e ∈ m.map, e.id = i.id → e = i := fun e he heq =>
        List.inj_on_of_nodup_map hids he (hmem i (List.mem_cons_self ..)) heq
      have hmodify : m.modify i.id (fun _ => { i with count := i.count + 1 }) =
          m.update (counted [i.id]) := by
        unfold modify update
        congr 1
        apply List.map_congr_left
        intro e he
        by_cases heq : e.id = i.id
        · rw [if_pos heq, counted, if_pos (List.mem_singleton.mpr heq), hunique e he heq]
        · rw [if_neg heq, counted, if_neg (mt List.mem_singleton.mp heq)]
      rw [hmodify] at hok
      have hids' : ((m.update (counted [i.id])).map.map RetainedEntry.id).Nodup := by
        rw [ids_update (keeps_counted [i.id])]
        exact hids
      have hmem' : ∀ e ∈ path, e ∈ (m.update (counted [i.id])).map := by
        intro e he
        refine List.mem_map.mpr ⟨e, hmem e (List.mem_cons_of_mem _ he), ?_⟩
        unfold counted
        rw [if_neg]
        intro heq
        rw [List.mem_singleton] at heq
        exact hi (heq ▸ List.mem_map_of_mem he)
      rw [ih hids' hpath hmem' hok]
      unfold update
      rw [List.map_map]
      congr 1
      apply List.map_congr_left
      intro e _
      by_cases heq : e.id = i.id
      · have hnot : e.id ∉ path.map RetainedEntry.id := heq ▸ hi
        simp [counted, heq, heq ▸ hnot]
      · simp [counted, heq]

/-- What the loop of `erase_topic` makes of an entry. -/
def erased (ids : List Nat) (e : RetainedEntry V) : Option (RetainedEntry V) :=
  if e.id ∈ ids ∧ e.count - 1 = 0 then none else some (discounted ids e)

/-- The entries that are left keep their order. -/
theorem sublist_ids_erased (ids : List Nat) (l : List (RetainedEntry V)) :
    ((l.filterMap (erased ids)).map RetainedEntry.id).Sublist (l.map RetainedEntry.id) := by
  induction l with
  | nil => exact .slnil
  | cons e l ih =>
    cases herased : erased ids e with
    | none =>
      rw [List.filterMap_cons_none herased]
      exact ih.cons _
    | some e' =>
      have hid : e'.id = e.id := by
        unfold erased at herased
        split at herased
        · exact nomatch herased
        · obtain rfl := Option.some.inj herased
          exact (keeps_discounted ids).id e
      rw [List.filterMap_cons_some herased, List.map_cons, List.map_cons, hid]
      exact ih.cons_cons _

/-- If every entry is counted, the loop leaves out what comes to zero. -/
theorem filterMap_erased {ids : List Nat} {l : List (RetainedEntry V)}
    (hl : ∀ e ∈ l, e.count ≠ 0) :
    l.filterMap (erased ids) = (l.map (discounted ids)).filter fun e => e.count ≠ 0 := by
  rw [← List.filterMap_eq_map, ← List.filterMap_eq_filter, List.filterMap_filterMap]
  apply List.filterMap_congr
  intro e he
  have hpos := hl e he
  by_cases hmem : e.id ∈ ids
  · by_cases hzero : e.count - 1 = 0
    · simp [erased, discounted, Option.guard, hmem, hzero]
    · simp [erased, discounted, Option.guard, hmem, hzero]
  · simp [erased, discounted, Option.guard, hmem, hpos]

/-- The test in the loop of `erase_topic` -/
theorem isZero_iff (hids : (m.map.map RetainedEntry.id).Nodup) (id : Nat) :
    ((m.modify id fun e => { e with count := e.count - 1 }).map.find? (·.id = id)).any
      (·.count = 0) ↔ ∃ e ∈ m.map, e.id = id ∧ e.count - 1 = 0 := by
  have hid : ((fun e : RetainedEntry V => decide (e.id = id)) ∘ fun e =>
      if e.id = id then { e with count := e.count - 1 } else e) = fun e => decide (e.id = id) := by
    funext e
    simp only [Function.comp_apply]
    split <;> rfl
  unfold modify
  rw [List.find?_map, hid]
  cases hfind : m.map.find? (·.id = id) with
  | none =>
    have hne : ∀ e ∈ m.map, e.id ≠ id := by simpa using hfind
    constructor
    · exact fun h => nomatch h
    · rintro ⟨e, he, heq, -⟩
      exact absurd heq (hne e he)
  | some e =>
    have he := List.mem_of_find?_eq_some hfind
    have heq : e.id = id := by simpa using List.find?_some hfind
    rw [Option.map_some, Option.any_some, if_pos heq, decide_eq_true_iff]
    constructor
    · exact fun hzero => ⟨e, he, heq, hzero⟩
    · rintro ⟨e', he', heq', hzero⟩
      rwa [List.inj_on_of_nodup_map hids he he' (heq.trans heq'.symm)]

/-- One turn of the loop of `erase_topic` -/
theorem eraseLevels_cons (hids : (m.map.map RetainedEntry.id).Nodup) (id : Nat) (ids : List Nat) :
    eraseLevels (id :: ids) m = eraseLevels ids { m with map := m.map.filterMap (erased [id]) } := by
  have htest := isZero_iff hids id
  rw [eraseLevels]
  split
  · next hzero =>
    -- the count has come to zero, and the entry goes
    obtain ⟨e₀, he₀, hid₀, hcount⟩ := htest.mp hzero
    have hmap : ((m.modify id fun e => { e with count := e.count - 1 }).map.filter
        fun e => e.id ≠ id) = m.map.filterMap (erased [id]) := by
      unfold modify
      rw [List.filter_map, ← List.filterMap_eq_map, ← List.filterMap_eq_filter,
        List.filterMap_filterMap]
      apply List.filterMap_congr
      intro e he
      by_cases heq : e.id = id
      · obtain rfl := List.inj_on_of_nodup_map hids he he₀ (heq.trans hid₀.symm)
        simp [erased, heq, hcount]
      · simp [erased, discounted, heq]
    rw [hmap]
    rfl
  · next hzero =>
    have hmap : (m.modify id fun e => { e with count := e.count - 1 }).map =
        m.map.filterMap (erased [id]) := by
      unfold modify
      rw [← List.filterMap_eq_map]
      apply List.filterMap_congr
      intro e he
      by_cases heq : e.id = id
      · have hcount : e.count - 1 ≠ 0 := fun hcount => hzero (htest.mpr ⟨e, he, heq, hcount⟩)
        simp [erased, discounted, heq, hcount]
      · simp [erased, discounted, heq]
    rw [← hmap]
    rfl

/-- The loop of `erase_topic` -/
theorem eraseLevels_eq {ids : List Nat} (hids : (m.map.map RetainedEntry.id).Nodup)
    (hnodup : ids.Nodup) :
    eraseLevels ids m = { m with map := m.map.filterMap (erased ids) } := by
  induction ids generalizing m with
  | nil =>
    have herased : (erased [] : RetainedEntry V → _) = some := by
      funext e
      simp [erased, discounted]
    rw [herased, List.filterMap_some]
    rfl
  | cons id ids ih =>
    obtain ⟨hid, hnodup⟩ := List.nodup_cons.mp hnodup
    rw [eraseLevels_cons hids, ih _ hnodup]
    · rw [List.filterMap_filterMap]
      congr 1
      apply List.filterMap_congr
      intro e _
      by_cases heq : e.id = id
      · have hnot : e.id ∉ ids := heq ▸ hid
        by_cases hzero : e.count - 1 = 0
        · simp [erased, heq, hzero]
        · simp [erased, discounted, heq, heq ▸ hnot, hzero]
      · simp [erased, discounted, heq]
    · exact (sublist_ids_erased [id] m.map).nodup hids

/-! ### Paths to topics -/

/-- The callback of `find_topic` follows a path. -/
theorem findLevels_eq (h : WellFormed m) {ts : List Buffer} (hp : m.node p = some e) :
    m.findLevels e.id ts =
      if (m.node (p ++ ts)).isSome then some ((pathsAlong p ts).filterMap m.node) else none := by
  induction ts generalizing p e with
  | nil => rw [List.append_nil, hp]; rfl
  | cons t ts ih =>
    have hsplit : p ++ t :: ts = p ++ [t] ++ ts := by simp
    rw [findLevels, ← h.node_snoc_find hp t, hsplit]
    cases hnode : m.node (p ++ [t]) with
    | none =>
      have hnone : (m.node (p ++ [t] ++ ts)).isSome = false := by
        rw [Bool.eq_false_iff]
        intro hsome
        have hsome' := isSome_on_path (List.prefix_append (p ++ [t]) ts) hsome
        rw [hnode] at hsome'
        exact nomatch hsome'
      rw [if_neg (by rw [hnone]; exact Bool.false_ne_true)]
    | some e' =>
      dsimp only
      rw [ih hnode, FlatTree.pathsAlong, List.filterMap_cons_some hnode]
      split <;> rfl

/-- The entries along the path to a topic -/
def pathTo (m : RetainedTopicMap V) (f : Buffer) : List (RetainedEntry V) :=
  (pathsAlong [] (topicFilterTokens f)).filterMap m.node

/-- A topic is found along its path, if it leads to a node. -/
theorem findTopic_eq (h : WellFormed m) (f : Buffer) :
    m.findTopic f = if (m.node (topicFilterTokens f)).isSome then m.pathTo f else [] := by
  unfold findTopic
  rw [← h.directFind_root.2, findLevels_eq h node_nil, List.nil_append]
  split <;> rfl

/-- The path ends at the entry of the topic. -/
theorem getLast?_pathTo (he : m.node (topicFilterTokens f) = some e) :
    (m.pathTo f).getLast? = some e := by
  unfold pathTo
  rcases List.eq_nil_or_concat' (topicFilterTokens f) with hnil | ⟨p, t, hsplit⟩
  · exact absurd hnil (topicFilterTokens_ne_nil f)
  · rw [hsplit] at he ⊢
    rw [FlatTree.pathsAlong_snoc, List.nil_append, List.filterMap_append,
      List.filterMap_cons_some he, List.filterMap_nil, List.getLast?_concat]

/-- An entry is on the path if the path to it is a prefix. -/
theorem mem_pathTo (h : WellFormed m) (hq : m.node q = some e) :
    e.id ∈ (m.pathTo f).map RetainedEntry.id ↔ q ≠ [] ∧ q <+: topicFilterTokens f := by
  rw [← mem_pathsAlong_nil, List.mem_map]
  constructor
  · rintro ⟨e', he', heq⟩
    obtain ⟨q', hq', hnode⟩ := List.mem_filterMap.mp he'
    rwa [h.node_inj hq hnode heq.symm]
  · exact fun hmem => ⟨e, List.mem_filterMap.mpr ⟨q, hmem, hq⟩, rfl⟩

/-- The entries along a path differ. -/
theorem nodup_pathTo (h : WellFormed m) (f : Buffer) :
    ((m.pathTo f).map RetainedEntry.id).Nodup := by
  unfold pathTo
  rw [List.map_filterMap]
  refine (nodup_pathsAlong [] (topicFilterTokens f)).filterMap fun q q' i hi hi' => ?_
  obtain ⟨e, hq, rfl⟩ := Option.map_eq_some_iff.mp hi
  obtain ⟨e', hq', heq⟩ := Option.map_eq_some_iff.mp hi'
  exact h.node_inj hq hq' heq.symm

/-- The entries along a path are those of the map. -/
theorem mem_of_mem_pathTo (h : WellFormed m) : ∀ e ∈ m.pathTo f, e ∈ m.map := by
  intro e he
  obtain ⟨q, -, hq⟩ := List.mem_filterMap.mp he
  exact h.mem hq

/-! ### One call -/

/-- The first of these levels is a wildcard. -/
def BeginsWithWildcard (ts : List Buffer) : Prop :=
  ∃ t ∈ ts.head?, t = plusLevel ∨ t = hashLevel

/-- An entry is counted once more, or is erased since it is counted as often as possible. -/
theorem increaseCountAt_cases (m : RetainedTopicMap V) (e : RetainedEntry V) :
    (e.count ≠ sizeMax ∧ m.increaseCountAt e = (.ok { e with count := e.count + 1 },
      m.modify e.id fun _ => { e with count := e.count + 1 })) ∨
    (e.count = sizeMax ∧ m.increaseCountAt e =
      (.error .maxStoredTopics, { m with map := m.map.filter (·.id ≠ e.id) })) := by
  unfold increaseCountAt increaseCount
  by_cases hmax : e.count = sizeMax
  · rw [if_pos hmax]
    exact .inr ⟨hmax, rfl⟩
  · rw [if_neg hmax]
    exact .inl ⟨hmax, rfl⟩

/-- One turn of the callback of `create_topic` -/
inductive CreatesLevel (m : RetainedTopicMap V) (parent : Nat) (t : Buffer) (ts : List Buffer) : Prop
  /-- A wildcard is refused. -/
  | wildcard (ht : t = plusLevel ∨ t = hashLevel)
      (hstate : createLevelsState parent (t :: ts) m = (.error .noWildcardsAllowed, m))
  /-- The level gets an entry, with the last identifier. -/
  | last (ht : t ≠ plusLevel ∧ t ≠ hashLevel) (hfind : m.directFind parent t = none)
      (hlimit : m.nextNodeId + 1 = sizeMax)
      (hstate : createLevelsState parent (t :: ts) m =
        (.error .maxStoredTopics, m.addLeaf parent t))
  /-- The level gets an entry. -/
  | new (ht : t ≠ plusLevel ∧ t ≠ hashLevel) (hfind : m.directFind parent t = none)
      (hstate : createLevelsState parent (t :: ts) m =
        createLevelsState m.nextNodeId ts (m.addLeaf parent t))
  /-- The entry of the level is counted as often as possible, and goes. -/
  | full (ht : t ≠ plusLevel ∧ t ≠ hashLevel) (e : RetainedEntry V)
      (hfind : m.directFind parent t = some e) (hmax : e.count = sizeMax)
      (hstate : createLevelsState parent (t :: ts) m =
        (.error .maxStoredTopics, { m with map := m.map.filter (·.id ≠ e.id) }))
  /-- The entry of the level is counted. -/
  | more (ht : t ≠ plusLevel ∧ t ≠ hashLevel) (e : RetainedEntry V)
      (hfind : m.directFind parent t = some e)
      (hstate : createLevelsState parent (t :: ts) m = createLevelsState e.id ts
        (m.modify e.id fun _ => { e with count := e.count + 1 }))

/-- Creating the levels is creating one after another. -/
theorem createsLevel (m : RetainedTopicMap V) (parent : Nat) (t : Buffer) (ts : List Buffer) :
    CreatesLevel m parent t ts := by
  by_cases hwild : t = plusLevel ∨ t = hashLevel
  · exact .wildcard hwild (by rw [createLevelsState, if_pos hwild])
  · have ht := not_or.mp hwild
    cases hfind : m.directFind parent t with
    | none =>
      by_cases hlimit : m.nextNodeId + 1 = sizeMax
      · refine .last ht hfind hlimit ?_
        rw [createLevelsState, if_neg hwild, hfind]
        exact if_pos hlimit
      · refine .new ht hfind ?_
        rw [createLevelsState, if_neg hwild, hfind]
        exact if_neg hlimit
    | some e =>
      rcases m.increaseCountAt_cases e with ⟨-, hcases⟩ | ⟨hmax, hcases⟩
      · refine .more ht e hfind ?_
        rw [createLevelsState, if_neg hwild, hfind]
        dsimp only
        rw [hcases]
      · refine .full ht e hfind hmax ?_
        rw [createLevelsState, if_neg hwild, hfind]
        dsimp only
        rw [hcases]

/-- The nodes of the map count `S`, and their values are those of the finite map. -/
structure Represents (m : RetainedTopicMap V) (S : List (List Buffer)) (s : Stored V) : Prop
    extends WellFormed m where
  counted : m.tree.Counted RetainedEntry.id RetainedEntry.count S
  rootCount : m.tree.root.count = 1
  value : ∀ f, (m.node (topicFilterTokens f)).bind RetainedEntry.value = s.lookup f
  rootValue : m.tree.root.value = none

namespace Represents

variable {S S' : List (List Buffer)} {s' : Stored V}

/-- Every entry is changed. -/
theorem update {g : RetainedEntry V → RetainedEntry V} (h : Represents m S s) (hg : Keeps g)
    (hcounted : (m.tree.map g).Counted RetainedEntry.id RetainedEntry.count S')
    (hroot : (g m.tree.root).count = 1 ∧ (g m.tree.root).value = none)
    (hvalue : ∀ f, ((m.node (topicFilterTokens f)).map g).bind RetainedEntry.value =
      s'.lookup f) : Represents (m.update g) S' s' := by
  have htree := tree_update hg h.toWellFormed
  refine { h.toWellFormed.update hg with
    counted := ?_, rootCount := ?_, value := ?_, rootValue := ?_ }
  · rw [htree]
    exact hcounted
  · rw [htree]
    exact hroot.1
  · intro f
    rw [node_update hg h.toWellFormed]
    exact hvalue f
  · rw [htree]
    exact hroot.2

/-- The order of the topics does not matter. -/
theorem perm (h : Represents m S s) (hS : S.Perm S') : Represents m S' s :=
  { h with counted := h.counted.perm hS }

/-- The value at the entry of a topic is changed. -/
theorem modifyValue (h : Represents m S s) (he : m.node (topicFilterTokens f) = some e)
    (v : Option V) (hself : s'.lookup f = v)
    (hne : ∀ g, g ≠ f → s'.lookup g = s.lookup g) :
    Represents (m.modify e.id ({ · with value := v })) S s' := by
  have hroot : ¬ m.tree.root.id = e.id := fun heq =>
    topicFilterTokens_ne_nil f (h.node_inj node_nil he heq).symm
  have hg : Keeps fun e' : RetainedEntry V => if e'.id = e.id then { e' with value := v } else e' :=
    keeps_modify fun _ _ => ⟨rfl, rfl⟩
  apply h.update hg
  · apply h.counted.of_map hg.id fun _ _ => Iff.rfl
    intro q n hq hn
    rw [← h.counted.count q n hq hn]
    split <;> rfl
  · rw [if_neg hroot]
    exact ⟨h.rootCount, h.rootValue⟩
  · intro g
    by_cases hg : g = f
    · subst hg
      rw [he, Option.map_some, if_pos rfl, hself]
      rfl
    · rw [hne g hg, ← h.value g]
      cases hnode : m.node (topicFilterTokens g) with
      | none => rfl
      | some e' =>
        have hid : ¬ e'.id = e.id := fun heq =>
          hg (topicFilterTokens_injective (h.node_inj hnode he heq))
        rw [Option.map_some, if_neg hid]

/-- Every entry is counted. -/
theorem count_ne_zero (h : Represents m S s) (he : e ∈ m.map) : e.count ≠ 0 := by
  obtain ⟨q, hq⟩ := h.exists_path he
  by_cases hnil : q = []
  · subst hnil
    obtain rfl := Option.some.inj hq
    rw [h.rootCount]
    exact Nat.one_ne_zero
  · rw [h.counted.count q e hnil hq, ← Nat.pos_iff_ne_zero, List.countP_pos_iff]
    obtain ⟨f, hf, hpre⟩ := (h.counted.isSome q hnil).mp (Option.isSome_iff_exists.mpr ⟨e, hq⟩)
    exact ⟨f, hf, decide_eq_true hpre⟩

/-- The path to a topic that has an entry is counted. -/
theorem countPath (h : Represents m S s) (hf : (m.node (topicFilterTokens f)).isSome) :
    Represents (m.update (RetainedTopicMap.counted ((m.pathTo f).map RetainedEntry.id)))
      (topicFilterTokens f :: S) s := by
  have hg := keeps_counted (V := V) ((m.pathTo f).map RetainedEntry.id)
  have hvalue : ∀ e : RetainedEntry V,
      (RetainedTopicMap.counted ((m.pathTo f).map RetainedEntry.id) e).value = e.value := by
    intro e
    unfold RetainedTopicMap.counted
    split <;> rfl
  have hroot : m.tree.root.id ∉ (m.pathTo f).map RetainedEntry.id := fun hmem =>
    ((mem_pathTo h.toWellFormed node_nil).mp hmem).1 rfl
  apply h.update hg
  · apply h.counted.map_path hf hg.id
    intro q n hq hn
    unfold RetainedTopicMap.counted
    by_cases hqf : q <+: topicFilterTokens f
    · rw [if_pos hqf, if_pos ((mem_pathTo h.toWellFormed hn).mpr ⟨hq, hqf⟩)]
    · rw [if_neg hqf, if_neg fun hmem => hqf ((mem_pathTo h.toWellFormed hn).mp hmem).2]
  · rw [RetainedTopicMap.counted, if_neg hroot]
    exact ⟨h.rootCount, h.rootValue⟩
  · intro g
    rw [← h.value g]
    cases m.node (topicFilterTokens g) with
    | none => rfl
    | some e => exact hvalue e

/-- The path to a topic is counted down, and what comes to zero is erased. -/
theorem erasePath (h : Represents m (topicFilterTokens f :: S) s)
    (hs : ∀ g, topicFilterTokens g ∉ S → s.lookup g = none) :
    Represents { m with
      map := m.map.filterMap (erased ((m.pathTo f).map RetainedEntry.id)) } S s := by
  have hwf := h.toWellFormed
  have hg := keeps_discounted (V := V) ((m.pathTo f).map RetainedEntry.id)
  have hroot : m.tree.root.id ∉ (m.pathTo f).map RetainedEntry.id := fun hmem =>
    ((mem_pathTo hwf node_nil).mp hmem).1 rfl
  have hdiscount : ∀ q n, q ≠ [] → m.tree.node RetainedEntry.id q = some n →
      (discounted ((m.pathTo f).map RetainedEntry.id) n).count =
        if q <+: topicFilterTokens f then n.count - 1 else n.count := by
    intro q n hq hn
    unfold discounted
    by_cases hqf : q <+: topicFilterTokens f
    · rw [if_pos hqf, if_pos ((mem_pathTo hwf hn).mpr ⟨hq, hqf⟩)]
    · rw [if_neg hqf, if_neg fun hmem => hqf ((mem_pathTo hwf hn).mp hmem).2]
  obtain ⟨hcounted, hclosed⟩ := h.counted.filter_path hg.id hdiscount
  -- only what is on the path can come to zero
  have hmap : { m with map := m.map.filterMap (erased ((m.pathTo f).map RetainedEntry.id)) } =
      (m.update (discounted ((m.pathTo f).map RetainedEntry.id))).keep fun e => e.count ≠ 0 := by
    unfold RetainedTopicMap.update keep
    rw [filterMap_erased fun e he => h.count_ne_zero he]
  have htree := tree_update hg hwf
  have hwf' := hwf.update hg
  have hkeep : ((m.update (discounted ((m.pathTo f).map RetainedEntry.id))).tree.root.count ≠ 0) ∧
      (m.update (discounted ((m.pathTo f).map RetainedEntry.id))).tree.root = m.tree.root := by
    rw [htree]
    show (discounted _ m.tree.root).count ≠ 0 ∧ discounted _ m.tree.root = m.tree.root
    rw [discounted, if_neg hroot, h.rootCount]
    exact ⟨Nat.one_ne_zero, rfl⟩
  have hkeep' := decide_eq_true hkeep.1
  rw [← htree] at hclosed hcounted
  have htree' := tree_keep (k := fun e => e.count ≠ 0) hwf' hkeep'
  have hroot' : ((m.update (discounted ((m.pathTo f).map RetainedEntry.id))).keep
      fun e => e.count ≠ 0).tree.root = m.tree.root := by
    rw [htree']
    exact hkeep.2
  rw [hmap]
  refine { hwf'.keep hkeep' hclosed with
    counted := ?_, rootCount := ?_, value := ?_, rootValue := ?_ }
  · rw [htree']
    exact hcounted
  · rw [hroot']
    exact h.rootCount
  · intro g
    rw [node_keep hwf' hkeep' hclosed, if_neg (topicFilterTokens_ne_nil g), node_update hg hwf,
      ← h.value g]
    cases hnode : m.node (topicFilterTokens g) with
    | none => rfl
    | some e =>
      have hvalue : (discounted ((m.pathTo f).map RetainedEntry.id) e).value = e.value := by
        unfold discounted
        split <;> rfl
      rw [Option.map_some, Option.filter]
      split
      · exact hvalue
      · next hzero =>
        -- no topic is at or below an entry that goes
        have hnone := h.value g
        rw [hnode, hs g] at hnone
        · exact hnone.symm
        · intro hmem
          apply hzero
          have hnil := topicFilterTokens_ne_nil g
          rw [decide_eq_true_iff, hdiscount _ e hnil hnode, h.counted.count _ e hnil hnode,
            List.countP_cons]
          have hpos : 0 < S.countP fun f => topicFilterTokens g <+: f :=
            List.countP_pos_iff.mpr ⟨_, hmem, decide_eq_true (List.prefix_refl _)⟩
          split
          · next hpre =>
            rw [if_pos (decide_eq_true hpre)]
            omega
          · omega
  · rw [hroot']
    exact h.rootValue

/-- The next level has an entry. -/
theorem increase_snoc {t : Buffer} (h : Represents m (p :: S) s) (he : m.node (p ++ [t]) = some e) :
    Represents (m.modify e.id fun _ => { e with count := e.count + 1 }) ((p ++ [t]) :: S) s ∧
      (m.modify e.id fun _ => { e with count := e.count + 1 }).node (p ++ [t]) =
        some { e with count := e.count + 1 } := by
  have hwf := h.toWellFormed
  have hunique : ∀ e' ∈ m.map, e'.id = e.id → e' = e := fun e' he' heq =>
    List.inj_on_of_nodup_map hwf.ids_nodup he' (hwf.mem he) heq
  -- the change of one entry is the counting of its identifier
  have hmodify : m.modify e.id (fun _ => { e with count := e.count + 1 }) =
      m.update (RetainedTopicMap.counted [e.id]) := by
    unfold modify RetainedTopicMap.update
    congr 1
    apply List.map_congr_left
    intro e' he'
    by_cases heq : e'.id = e.id
    · rw [if_pos heq, RetainedTopicMap.counted, if_pos (List.mem_singleton.mpr heq),
        hunique e' he' heq]
    · rw [if_neg heq, RetainedTopicMap.counted, if_neg (mt List.mem_singleton.mp heq)]
  have hg := keeps_counted (V := V) [e.id]
  have hroot : m.tree.root.id ∉ [e.id] := by
    rw [List.mem_singleton]
    intro heq
    have hnil := hwf.node_inj node_nil he heq
    simp at hnil
  rw [hmodify]
  -- the new path runs through the entry
  constructor
  · apply h.update hg
    · apply h.counted.map_snoc hwf.tree he hg.id
      intro e'
      simp only [RetainedTopicMap.counted, List.mem_singleton]
      split <;> rfl
    · rw [RetainedTopicMap.counted, if_neg hroot]
      exact ⟨h.rootCount, h.rootValue⟩
    -- the values are as before
    · intro f
      rw [← h.value f]
      cases m.node (topicFilterTokens f) with
      | none => rfl
      | some e' =>
        rw [Option.map_some, RetainedTopicMap.counted]
        split <;> rfl
  · rw [node_update hg hwf, he, Option.map_some, RetainedTopicMap.counted,
      if_pos (List.mem_singleton.mpr rfl)]

/-- The next level gets an entry. -/
theorem addLeaf_snoc {t : Buffer} (h : Represents m (p :: S) s) (he : m.node p = some e)
    (hnone : m.node (p ++ [t]) = none) :
    Represents (m.addLeaf e.id t) ((p ++ [t]) :: S) s ∧
      (m.addLeaf e.id t).node (p ++ [t]) = some ⟨e.id, t, m.nextNodeId, none, 1⟩ := by
  have hwf := h.toWellFormed
  have hfind : m.directFind e.id t = none := by
    rw [← hwf.node_snoc_find he]
    exact hnone
  have htree := tree_addLeaf hwf he hfind
  have hnode := node_addLeaf hwf he hfind
  refine ⟨{ hwf.addLeaf he hfind with
    counted := ?_, rootCount := ?_, value := ?_, rootValue := ?_ }, ?_⟩
  · rw [htree]
    exact h.counted.insert_snoc hwf.tree he hnone hwf.fresh rfl
  · rw [htree]
    exact h.rootCount
  · intro f
    rw [hnode, ← h.value f]
    split
    · next heq => rw [heq, hnone]; rfl
    · rfl
  · rw [htree]
    exact h.rootValue
  · rw [hnode, if_pos rfl]

/-- How far the callback of `create_topic` gets, and that only a wildcard stops it -/
structure Creates (m : RetainedTopicMap V) (S : List (List Buffer)) (s : Stored V)
    (p : List Buffer) (parent : Nat) (ts w : List Buffer) : Prop where
  represents : Represents (createLevelsState parent ts m).2 ((p ++ w) :: S) s
  isPrefix : w <+: ts
  noWildcards : NoWildcards w
  ne_nil : ts ≠ [] → ¬ BeginsWithWildcard ts → w ≠ []
  mapSize : (createLevelsState parent ts m).2.mapSize = m.mapSize
  nextNodeId : (createLevelsState parent ts m).2.nextNodeId ≤ m.nextNodeId + ts.length
  result : (∃ e, w = ts ∧ (createLevelsState parent ts m).1 = .ok e.id ∧
      (createLevelsState parent ts m).2.node (p ++ ts) = some e) ∨
    ((createLevelsState parent ts m).1 = .error .noWildcardsAllowed ∧ ¬ NoWildcards ts)

/-- `create_topic` throws since a limit has been reached. -/
structure Overflows (m : RetainedTopicMap V) (S : List (List Buffer)) (parent : Nat)
    (ts : List Buffer) : Prop where
  error : (createLevelsState parent ts m).1 = .error .maxStoredTopics
  limit : sizeMax ≤ m.nextNodeId + ts.length ∨ sizeMax ≤ S.length

/-- One level more -/
theorem Creates.cons {t : Buffer} {ts w : List Buffer} {parent : Nat} {e : RetainedEntry V}
    {m₁ : RetainedTopicMap V} (h : Creates m₁ S s (p ++ [t]) e.id ts w)
    (hstate : createLevelsState parent (t :: ts) m = createLevelsState e.id ts m₁)
    (ht : t ≠ plusLevel ∧ t ≠ hashLevel) (hsize : m₁.mapSize = m.mapSize)
    (hnext : m₁.nextNodeId ≤ m.nextNodeId + 1) : Creates m S s p parent (t :: ts) (t :: w) := by
  have hsplit (ts : List Buffer) : p ++ t :: ts = p ++ [t] ++ ts := by simp
  have hlevels {ts : List Buffer} : NoWildcards (t :: ts) ↔ NoWildcards ts := by
    simp [NoWildcards, ht]
  have hlen := h.nextNodeId
  constructor
  · rw [hsplit, hstate]
    exact h.represents
  · exact List.cons_prefix_cons.mpr ⟨rfl, h.isPrefix⟩
  · exact hlevels.mpr h.noWildcards
  · exact fun _ _ => List.cons_ne_nil t w
  · rw [hstate, h.mapSize, hsize]
  · rw [hstate, List.length_cons]
    omega
  · rw [hstate, hsplit, hlevels]
    rcases h.result with ⟨e, rfl, hok, hnode⟩ | herror
    · exact .inl ⟨e, rfl, hok, hnode⟩
    · exact .inr herror

/-- A limit that is reached below one level more -/
theorem Overflows.cons {t : Buffer} {ts : List Buffer} {parent id : Nat} {m₁ : RetainedTopicMap V}
    (h : Overflows m₁ S id ts)
    (hstate : createLevelsState parent (t :: ts) m = createLevelsState id ts m₁)
    (hnext : m₁.nextNodeId ≤ m.nextNodeId + 1) : Overflows m S parent (t :: ts) := by
  refine ⟨by rw [hstate]; exact h.error, h.limit.imp_left fun hmax => ?_⟩
  rw [List.length_cons]
  omega

/-- The callback of `create_topic` refuses the first level. -/
theorem Creates.nil {t : Buffer} {ts : List Buffer} {parent : Nat} (h : Represents m (p :: S) s)
    (ht : t = plusLevel ∨ t = hashLevel)
    (hstate : createLevelsState parent (t :: ts) m = (.error .noWildcardsAllowed, m)) :
    Creates m S s p parent (t :: ts) [] := by
  constructor
  · rw [hstate, List.append_nil]
    exact h
  · exact List.nil_prefix
  · exact fun _ hmem => absurd hmem List.not_mem_nil
  · exact fun _ hnot => absurd ⟨t, rfl, ht⟩ hnot
  · rw [hstate]
  · rw [hstate]
    exact Nat.le_add_right ..
  · rw [hstate]
    exact .inr ⟨rfl, fun hts => not_or.mpr (hts t (List.mem_cons_self ..)) ht⟩

/-- `create_topic`: the levels that are left are added to those that are there, as far as possible. -/
theorem createLevels {ts : List Buffer} (h : Represents m (p :: S) s) (he : m.node p = some e) :
    (∃ w, Creates m S s p e.id ts w) ∨ Overflows m S e.id ts := by
  -- the induction is on the levels that are left; the path so far has an entry
  induction ts generalizing m p e with
  | nil =>
    refine .inl ⟨[], ?_, List.prefix_rfl, fun _ hmem => absurd hmem List.not_mem_nil,
      fun hnil => absurd rfl hnil, rfl, Nat.le_refl _, .inl ⟨e, rfl, rfl, ?_⟩⟩
    · rw [List.append_nil]
      exact h
    · rw [List.append_nil]
      exact he
  | cons t ts ih =>
    have hnode := h.toWellFormed.node_snoc_find he t
    cases createsLevel m e.id t ts with
    | wildcard ht hstate => exact .inl ⟨[], .nil h ht hstate⟩
    | last _ _ hlimit hstate =>
      -- the entry is there, and its identifier was the last one
      refine .inr ⟨by rw [hstate], .inl ?_⟩
      rw [List.length_cons]
      omega
    | new ht hfind hstate =>
      obtain ⟨hnext, hnode'⟩ := h.addLeaf_snoc he (hnode.trans hfind)
      -- the walk goes on below the new entry
      rcases ih hnext hnode' with ⟨w, hw⟩ | hmax
      · exact .inl ⟨t :: w, hw.cons hstate ht rfl (Nat.le_refl _)⟩
      · exact .inr (hmax.cons hstate (Nat.le_refl _))
    | full _ e' hfind hmax hstate =>
      refine .inr ⟨by rw [hstate], .inr ?_⟩
      -- no more paths are counted than there are
      have hcount := h.counted.count _ e' (by simp) (hnode.trans hfind)
      rw [List.countP_cons, if_neg (by simp [FlatTree.not_prefix_snoc]), Nat.add_zero, hmax]
        at hcount
      rw [hcount]
      exact List.countP_le_length
    | more ht e' hfind hstate =>
      -- the entry is there, and one more path is counted through it
      obtain ⟨hnext, hnode'⟩ := h.increase_snoc (hnode.trans hfind)
      rcases ih hnext hnode' with ⟨w, hw⟩ | hmax
      · exact .inl ⟨t :: w, hw.cons hstate ht rfl (Nat.le_succ _)⟩
      · exact .inr (hmax.cons hstate (Nat.le_succ _))

end Represents

/-- The map holds the finite map. -/
abbrev Holds (m : RetainedTopicMap V) (s : Stored V) : Prop := Represents m (keyLevels s) s

namespace Holds

/-- `init_map` -/
theorem make : Holds (make : RetainedTopicMap V) ∅ := by
  -- the root is the only entry, so that no other path has one
  have hfind : ∀ i t, (RetainedTopicMap.make : RetainedTopicMap V).directFind i t =
      if i = rootParentId ∧ t = [] then some rootEntry else none := by
    intro i t
    show ([rootEntry] : List (RetainedEntry V)).find?
      (fun e => decide (e.parentId = i ∧ e.name = t)) = _
    rw [List.find?_singleton]
    by_cases hkey : i = rootParentId ∧ t = []
    · obtain ⟨rfl, rfl⟩ := hkey
      rfl
    · have hroot : ¬ (rootParentId = i ∧ ([] : Buffer) = t) :=
        fun heq => hkey ⟨heq.1.symm, heq.2.symm⟩
      rw [if_neg hkey, if_neg (by simpa [rootEntry] using hroot)]
  have hchild : ∀ i t, (RetainedTopicMap.make : RetainedTopicMap V).tree.child i t = none := by
    intro i t
    show (if i = rootParentId then none else _) = none
    split
    · rfl
    · next hi => rw [hfind, if_neg fun h => hi h.1]
  have hnode : ∀ p t, (RetainedTopicMap.make : RetainedTopicMap V).node (p ++ [t]) = none := by
    intro p t
    rw [node_snoc]
    cases (RetainedTopicMap.make : RetainedTopicMap V).node p with
    | none => rfl
    | some e => exact hchild _ _
  have hmem : ∀ e ∈ (RetainedTopicMap.make : RetainedTopicMap V).map, e = rootEntry :=
    fun e => List.mem_singleton.mp
  have hroot : (RetainedTopicMap.make : RetainedTopicMap V).tree.root = rootEntry := by
    rw [tree, hfind, if_pos ⟨rfl, rfl⟩]
    rfl
  have hnone : ∀ p, p ≠ [] → (RetainedTopicMap.make : RetainedTopicMap V).node p = none := by
    intro p hp
    rcases List.eq_nil_or_concat' p with rfl | ⟨q, t, rfl⟩
    · exact absurd rfl hp
    · exact hnode q t
  constructor
  · constructor
    · exact List.nodup_singleton _
    · exact ⟨rootEntry, List.mem_singleton.mpr rfl, rfl, rfl⟩
    · exact fun e he _ => hmem e he ▸ rfl
    · constructor
      · exact fun h => by cases (hchild _ _).symm.trans h
      · exact fun h => by cases (hchild _ _).symm.trans h
      · exact fun h => by cases (hchild _ _).symm.trans h
    · intro e he
      rw [hmem e he]
      exact ⟨Nat.one_ne_zero, Nat.lt_succ_self 1⟩
  · constructor
    · intro p hp
      have hnode' := hnone p hp
      unfold node at hnode'
      rw [hnode']
      simp [keyLevels]
    · exact fun p e hp he => by cases (hnone p hp).symm.trans he
  · rw [hroot]
    rfl
  · intro f
    rw [hnone _ (topicFilterTokens_ne_nil f)]
    rfl
  · rw [hroot]
    rfl

/-- The size does not matter. -/
theorem setMapSize {S : List (List Buffer)} (h : Represents m S s) (n : Nat) :
    Represents { m with mapSize := n } S s :=
  ⟨⟨h.keys, h.root, h.parent, h.tree, h.id_lt⟩, h.counted, h.rootCount, h.value, h.rootValue⟩

/-- The size of the map does not count in the tree. -/
theorem increaseMapSize {S : List (List Buffer)} (h : Represents m S s)
    (hok : m.increaseMapSize = .ok m') : Represents m' S s := by
  unfold RetainedTopicMap.increaseMapSize at hok
  split at hok
  · exact nomatch hok
  · obtain rfl := Except.ok.inj hok
    exact setMapSize h _

/-- `find_topic` finds the entry of the topic. -/
theorem getLast?_findTopic (h : WellFormed m) (f : Buffer) :
    (m.findTopic f).getLast? = m.node (topicFilterTokens f) := by
  rw [findTopic_eq h]
  cases he : m.node (topicFilterTokens f) with
  | none => rfl
  | some e =>
    rw [Option.isSome_some, if_pos rfl]
    exact getLast?_pathTo he

/-- A topic gets a value. -/
theorem setValue {S : List (List Buffer)} (h : Represents m S s)
    (he : m.node (topicFilterTokens f) = some e) (v : V) :
    Represents (m.modify e.id ({ · with value := some v })) S (s.insert f v) :=
  h.modifyValue he (some v) (AList.lookup_insert s) fun _ hg => AList.lookup_insert_ne hg

end Holds

/-! ### One call, when some paths have been left behind

`P` are paths that are counted although no topic is stored there. -/

section Calls

variable {P : List (List Buffer)}

/-- The map that a throw leaves is forgotten by the call itself. -/
theorem createLevels_eq (parent : Nat) (ts : List Buffer) (m : RetainedTopicMap V) :
    createLevels parent ts m = (createLevelsState parent ts m).1.map
      fun id => (id, (createLevelsState parent ts m).2) := by
  induction ts generalizing parent m with
  | nil => rfl
  | cons t ts ih =>
    rw [createLevels, createLevelsState]
    split
    · rfl
    · cases m.directFind parent t with
      | none =>
        dsimp only
        split
        · rfl
        · exact ih ..
      | some entry =>
        dsimp only
        unfold increaseCountAt
        cases increaseCount entry with
        | error e => rfl
        | ok entry => exact ih ..

/-- The same for the counts -/
theorem increaseTopics_eq_state (path : List (RetainedEntry V)) (m : RetainedTopicMap V) :
    increaseTopics path m = (increaseTopicsState path m).1.map
      fun _ => (increaseTopicsState path m).2 := by
  induction path generalizing m with
  | nil => rfl
  | cons i path ih =>
    rw [increaseTopics, increaseTopicsState]
    unfold increaseCountAt increaseCount
    by_cases hmax : i.count = sizeMax
    · rw [if_pos hmax]
      rfl
    · rw [if_neg hmax]
      exact ih _

/-- The value is stored in the entry of the topic. -/
theorem storeNew_eq (id : Nat) (v : V) (m : RetainedTopicMap V) :
    (do
      let m ← (m.modify id ({ · with value := some v })).increaseMapSize
      .ok (1, m)) = (m.storeNew id v).1.map fun r => (r, (m.storeNew id v).2) := by
  unfold storeNew
  dsimp only
  cases (m.modify id ({ · with value := some v })).increaseMapSize with
  | error e => rfl
  | ok m => rfl

/-- `insert_or_assign` leaves the same map when it returns. -/
theorem insertOrAssign_eq (f : Buffer) (v : V) (m : RetainedTopicMap V) :
    m.insertOrAssign f v = (m.insertOrAssignState f v).1.map
      fun r => (r, (m.insertOrAssignState f v).2) := by
  unfold insertOrAssign insertOrAssignState
  dsimp only
  cases (m.findTopic f).getLast? with
  | none =>
    dsimp only
    rw [createTopic, createLevels_eq]
    rcases createLevelsState rootNodeId (topicFilterTokens f) m with ⟨e | id, m'⟩
    · rfl
    · exact storeNew_eq id v m'
  | some back =>
    dsimp only
    split
    · rw [increaseTopics_eq_state]
      rcases increaseTopicsState (m.findTopic f) m with ⟨e | _, m'⟩
      · rfl
      · exact storeNew_eq back.id v m'
    · rfl

/-- The new value is stored, or as many topics as possible are stored already. -/
theorem storeNew_cases (id : Nat) (v : V) (m : RetainedTopicMap V) :
    m.storeNew id v = (.ok 1, { m.modify id ({ · with value := some v }) with
      mapSize := m.mapSize + 1 }) ∨
    ((m.storeNew id v).1 = .error .maxStoredTopics ∧ m.mapSize = sizeMax) := by
  have hsize : (m.modify id ({ · with value := some v })).mapSize = m.mapSize := rfl
  unfold storeNew increaseMapSize
  dsimp only
  rw [hsize]
  by_cases hmax : m.mapSize = sizeMax
  · rw [if_pos hmax]
    exact .inr ⟨rfl, hmax⟩
  · rw [if_neg hmax]
    exact .inl rfl

/-- The entries of a path are counted, or one of them is counted as often as possible. -/
theorem increaseTopicsState_cases (path : List (RetainedEntry V)) (m : RetainedTopicMap V) :
    (∃ m', increaseTopicsState path m = (.ok (), m') ∧ m'.mapSize = m.mapSize ∧
      m'.nextNodeId = m.nextNodeId) ∨
    ((increaseTopicsState path m).1 = .error .maxStoredTopics ∧ ∃ i ∈ path, i.count = sizeMax) := by
  induction path generalizing m with
  | nil => exact .inl ⟨m, rfl, rfl, rfl⟩
  | cons i path ih =>
    rw [increaseTopicsState]
    rcases m.increaseCountAt_cases i with ⟨-, hcases⟩ | ⟨hmax, hcases⟩
    · rw [hcases]
      refine (ih _).imp_right fun h => h.imp_right ?_
      rintro ⟨j, hj, hcount⟩
      exact ⟨j, List.mem_cons_of_mem _ hj, hcount⟩
    · rw [hcases]
      exact .inr ⟨rfl, i, List.mem_cons_self .., hmax⟩

/-- A new topic -/
theorem Represents.of_none (h : Represents m (topicFilterTokens f :: (keyLevels s ++ P)) (s.insert f v))
    (hnone : s.lookup f = none) :
    Represents m (keyLevels (s.insert f v) ++ P) (s.insert f v) := by
  rw [keyLevels_insert_of_none hnone]
  exact h

/-- What `insert_or_assign` leaves, and why it throws -/
inductive Inserts (m : RetainedTopicMap V) (P : List (List Buffer)) (s : Stored V) (f : Buffer)
    (v : V) : Prop
  /-- It returns whether the topic is new. -/
  | returns (m' : RetainedTopicMap V)
      (hstate : m.insertOrAssignState f v = (.ok (if (s.lookup f).isNone then 1 else 0), m'))
      (represents : Represents m' (keyLevels (s.insert f v) ++ P) (s.insert f v))
      (hnew : m.node (topicFilterTokens f) = none → NoWildcards (topicFilterTokens f))
      (mapSize : m'.mapSize = m.mapSize + if (s.lookup f).isNone then 1 else 0)
      (nextNodeId : m'.nextNodeId ≤ m.nextNodeId + (topicFilterTokens f).length)
  /-- It refuses a wildcard, and leaves the path to it behind. -/
  | rejects (m' : RetainedTopicMap V) (w : List Buffer)
      (hstate : m.insertOrAssignState f v = (.error .noWildcardsAllowed, m'))
      (hwild : ¬ NoWildcards (topicFilterTokens f)) (hw : NoWildcards w)
      (represents : Represents m' (keyLevels s ++ w :: P) s)
  /-- A limit has been reached. -/
  | overflows (herror : (m.insertOrAssignState f v).1 = .error .maxStoredTopics)
      (hlimit : sizeMax ≤ m.nextNodeId + (topicFilterTokens f).length ∨
        sizeMax ≤ (keyLevels s ++ P).length ∨ m.mapSize = sizeMax)

/-- A topic whose levels are missing gets them. -/
theorem insertOrAssignState_of_none (f : Buffer) (v : V)
    (hlast : (m.findTopic f).getLast? = none) :
    m.insertOrAssignState f v =
      match createLevelsState rootNodeId (topicFilterTokens f) m with
      | (.error e, m) => (.error e, m)
      | (.ok newTopic, m) => m.storeNew newTopic v := by
  unfold insertOrAssignState
  dsimp only
  split
  · rfl
  · next back hback => cases hlast.symm.trans hback

/-- A topic without a value gets it, and counts along its path. -/
theorem insertOrAssignState_of_isNone (f : Buffer) (v : V)
    (hlast : (m.findTopic f).getLast? = some e) (hvalue : e.value.isNone) :
    m.insertOrAssignState f v =
      match increaseTopicsState (m.findTopic f) m with
      | (.error e, m) => (.error e, m)
      | (.ok (), m) => m.storeNew e.id v := by
  unfold insertOrAssignState
  dsimp only
  rw [hlast]
  exact if_pos hvalue

/-- `insert_or_assign` of a topic without an entry -/
theorem Represents.insertNew (h : Represents m (keyLevels s ++ P) s)
    (hnode : m.node (topicFilterTokens f) = none) : Inserts m P s f v := by
  have hnone : s.lookup f = none := by
    rw [← h.value f, hnode]
    rfl
  have hroot : Represents m ([] :: (keyLevels s ++ P)) s := { h with counted := h.counted.cons_nil }
  have hlast : (m.findTopic f).getLast? = none :=
    (Holds.getLast?_findTopic h.toWellFormed f).trans hnode
  have hstate := insertOrAssignState_of_none f v hlast
  rw [← h.toWellFormed.directFind_root.2] at hstate
  -- the levels of the topic are created, or the call throws
  have hcases : (∃ w, Creates m (keyLevels s ++ P) s [] m.tree.root.id (topicFilterTokens f) w) ∨
      Overflows m (keyLevels s ++ P) m.tree.root.id (topicFilterTokens f) :=
    hroot.createLevels node_nil
  rcases hcases with ⟨w, hcreates⟩ | ⟨herror, hlimit⟩
  swap
  · refine .overflows ?_ (hlimit.imp_right .inl)
    rw [hstate]
    rcases hcreate : createLevelsState m.tree.root.id (topicFilterTokens f) m with ⟨r, m₁⟩
    rw [hcreate] at herror
    dsimp only at herror
    rw [herror]
  have hrepresents := hcreates.represents
  have hsize := hcreates.mapSize
  have hnext := hcreates.nextNodeId
  have hresult := hcreates.result
  rcases hcreate : createLevelsState m.tree.root.id (topicFilterTokens f) m with ⟨r, m₁⟩
  rw [hcreate] at hstate hrepresents hsize hnext hresult
  rcases hresult with ⟨e, rfl, rfl, he⟩ | ⟨rfl, hwild⟩
  -- the new leaf gets the value, unless the size of the map is at its maximum
  · dsimp only at hstate
    rcases storeNew_cases e.id v m₁ with hstore | ⟨hstore, hmax⟩
    · have hset := Holds.setValue hrepresents he v
      refine .returns _ ?_ (of_none (Holds.setMapSize hset (m₁.mapSize + 1)) hnone)
        (fun _ => hcreates.noWildcards) ?_ hnext
      · rw [hstate, hstore, hnone]
        rfl
      · rw [hnone, ← hsize]
        rfl
    · exact .overflows (by rw [hstate, hstore]) (.inr (.inr (hsize.symm.trans hmax)))
  · exact .rejects m₁ w hstate hwild hcreates.noWildcards (hrepresents.perm List.perm_middle.symm)

/-- `insert_or_assign` of a topic that has an entry, but is not stored -/
theorem Represents.insertAlong {back : RetainedEntry V} (h : Represents m (keyLevels s ++ P) s)
    (hnode : m.node (topicFilterTokens f) = some back) (hnone : s.lookup f = none) :
    Inserts m P s f v := by
  have hwf := h.toWellFormed
  have hback : back.value.isNone := by
    have hvalue := h.value f
    rw [hnode, Option.bind_some, hnone] at hvalue
    rw [hvalue]
    rfl
  have hpath : m.findTopic f = m.pathTo f := by
    rw [findTopic_eq hwf, hnode, Option.isSome_some, if_pos rfl]
  -- the path is there, so that its counts are increased before the value is stored
  have hstate := insertOrAssignState_of_isNone f v
    ((Holds.getLast?_findTopic hwf f).trans hnode) hback
  rw [hpath] at hstate
  rcases increaseTopicsState_cases (m.pathTo f) m with ⟨m₁, hok, hsize, hnext⟩ | ⟨herror, hmax⟩
  · have hincrease : increaseTopics (m.pathTo f) m = .ok m₁ := by
      rw [increaseTopics_eq_state, hok]
      rfl
    have hm₁ := increaseTopics_eq hwf.ids_nodup (nodup_pathTo hwf f) (mem_of_mem_pathTo hwf) hincrease
    have hcount := h.countPath (f := f) (by rw [hnode]; rfl)
    have hg := keeps_counted (V := V) ((m.pathTo f).map RetainedEntry.id)
    have hnode' := node_update hg hwf (topicFilterTokens f)
    rw [hnode, Option.map_some] at hnode'
    have hset := Holds.setValue hcount hnode' v
    rw [hg.id, ← hm₁] at hset
    rw [hok] at hstate
    dsimp only at hstate
    -- only the size of the map may overflow now
    rcases storeNew_cases back.id v m₁ with hstore | ⟨hstore, hmax⟩
    · refine .returns _ ?_ (of_none (Holds.setMapSize hset (m₁.mapSize + 1)) hnone) (fun hnone => ?_)
        ?_ ?_
      · rw [hstate, hstore, hnone]
        rfl
      · cases hnode.symm.trans hnone
      · rw [hnone, ← hsize]
        rfl
      · exact hnext.trans_le (Nat.le_add_right ..)
    · exact .overflows (by rw [hstate, hstore]) (.inr (.inr (hsize.symm.trans hmax)))
  -- a count on the path is at its maximum
  · refine .overflows ?_ (.inr (.inl ?_))
    · rw [hstate]
      rcases hloop : increaseTopicsState (m.pathTo f) m with ⟨r, m₁⟩
      rw [hloop] at herror
      dsimp only at herror
      rw [herror]
    · -- no more paths are counted than there are
      obtain ⟨i, hi, hcount⟩ := hmax
      obtain ⟨q, hq, hqi⟩ := List.mem_filterMap.mp hi
      rw [← hcount, h.counted.count q i (mem_pathsAlong_nil.mp hq).1 hqi]
      exact List.countP_le_length

/-- What `insert_or_assign` does -/
theorem Represents.inserts (h : Represents m (keyLevels s ++ P) s) (f : Buffer) (v : V) :
    Inserts m P s f v := by
  cases hnode : m.node (topicFilterTokens f) with
  | none => exact h.insertNew hnode
  | some back =>
    cases hlookup : s.lookup f with
    | none => exact h.insertAlong hnode hlookup
    | some v' =>
      -- the topic is stored, and only its value changes
      have hback : back.value = some v' := by
        have hvalue := h.value f
        rwa [hnode, Option.bind_some, hlookup] at hvalue
      have hsome : (s.lookup f).isSome := by
        rw [hlookup]
        rfl
      have hstate : m.insertOrAssignState f v =
          (.ok 0, m.modify back.id ({ · with value := some v })) := by
        unfold insertOrAssignState
        dsimp only
        rw [Holds.getLast?_findTopic h.toWellFormed, hnode]
        dsimp only
        rw [hback]
        rfl
      have htopics := (perm_keyLevels_insert hsome v).symm
      have hset := (Holds.setValue h hnode v).perm (htopics.append_right P)
      refine .returns _ ?_ hset (fun hnone => ?_) ?_ (Nat.le_add_right ..)
      · rw [hstate, hlookup]
        rfl
      · exact nomatch hnode.symm.trans hnone
      · rw [hlookup]
        rfl

/-- What `erase` does -/
theorem Represents.eraseCall (h : Represents m (keyLevels s ++ P) s) (f : Buffer) :
    (m.erase f).1 = (if (s.lookup f).isSome then 1 else 0) ∧
      Represents (m.erase f).2 (keyLevels (s.erase f) ++ P) (s.erase f) ∧
      (m.erase f).2.mapSize = m.mapSize - (if (s.lookup f).isSome then 1 else 0) ∧
      (m.erase f).2.nextNodeId = m.nextNodeId := by
  have hwf := h.toWellFormed
  have hvalue := h.value f
  -- nothing is stored, and nothing happens
  have hnone (hlookup : s.lookup f = none) : (0 = if (s.lookup f).isSome then 1 else 0) ∧
      Represents { m with mapSize := m.mapSize - 0 } (keyLevels (s.erase f) ++ P) (s.erase f) ∧
      m.mapSize - 0 = m.mapSize - (if (s.lookup f).isSome then 1 else 0) ∧
      m.nextNodeId = m.nextNodeId := by
    rw [hlookup, AList.erase_of_none hlookup]
    exact ⟨rfl, h, rfl, rfl⟩
  unfold RetainedTopicMap.erase eraseTopic
  dsimp only
  rw [Holds.getLast?_findTopic hwf]
  cases hnode : m.node (topicFilterTokens f) with
  | none =>
    rw [hnode] at hvalue
    exact hnone hvalue.symm
  | some back =>
    rw [hnode, Option.bind_some] at hvalue
    dsimp only
    split
    · next hback =>
      rw [hvalue] at hback
      have herase : Represents (m.modify back.id ({ · with value := none })) (keyLevels s ++ P)
          (s.erase f) :=
        h.modifyValue hnode none (AList.lookup_erase f s) fun g hg => AList.lookup_erase_ne hg
      have hg : Keeps fun e : RetainedEntry V =>
          if e.id = back.id then { e with value := none } else e :=
        keeps_modify fun _ _ => ⟨rfl, rfl⟩
      have hids : (m.pathTo f).map RetainedEntry.id =
          ((m.modify back.id ({ · with value := none })).pathTo f).map RetainedEntry.id := by
        unfold pathTo
        rw [List.map_filterMap, List.map_filterMap]
        apply List.filterMap_congr
        intro q _
        rw [modify_eq, node_update hg hwf, Option.map_map]
        congr 1
        funext e
        exact (hg.id e).symm
      have htopics : (keyLevels s ++ P).Perm (topicFilterTokens f :: (keyLevels (s.erase f) ++ P)) :=
        (perm_keyLevels_erase hback).append_right P
      have herase' := herase.perm htopics
      have hlevels := eraseLevels_eq herase'.ids_nodup (nodup_pathTo herase'.toWellFormed f)
      rw [findTopic_eq hwf, hnode, Option.isSome_some, if_pos rfl, hids, hlevels, if_pos hback]
      refine ⟨rfl, Holds.setMapSize (herase'.erasePath fun g hg' => ?_) _, rfl, rfl⟩
      rw [List.mem_append, not_or, mem_keyLevels] at hg'
      simpa using hg'.1
    · next hback =>
      rw [hvalue] at hback
      exact hnone (by simpa using hback)

end Calls

namespace Holds

/-- `insert_or_assign` -/
theorem insertOrAssign {r : Nat} (h : Holds m s) (hok : m.insertOrAssign f v = .ok (r, m')) :
    Holds m' (s.insert f v) := by
  have h : Represents m (keyLevels s ++ []) s := (List.append_nil _).symm ▸ h
  rw [insertOrAssign_eq] at hok
  cases h.inserts f v with
  | returns m₁ hstate hm₁ =>
    rw [hstate] at hok
    obtain ⟨-, rfl⟩ := Prod.mk.inj (Except.ok.inj hok)
    rw [List.append_nil] at hm₁
    exact hm₁
  | rejects m₁ w hstate =>
    rw [hstate] at hok
    exact nomatch hok
  | overflows herror =>
    rw [herror] at hok
    exact nomatch hok

/-- `erase` -/
theorem erase (h : Holds m s) (f : Buffer) : Holds (m.erase f).2 (s.erase f) := by
  have h : Represents m (keyLevels s ++ []) s := (List.append_nil _).symm ▸ h
  have herase := (h.eraseCall f).2.1
  rwa [List.append_nil] at herase

end Holds

end RetainedTopicMap

end AsyncMqtt
