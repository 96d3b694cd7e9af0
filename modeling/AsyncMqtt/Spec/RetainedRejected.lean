import AsyncMqtt.Spec.RetainedCalls

/-!
# Retained topics that are rejected

`insert_or_assign` throws at a level of the topic that is a wildcard. The levels before it have been
created or counted then, and nothing takes this back: the path to the wildcard is counted as if a
topic were stored there.

## Key results

- `RetainedTopicMap.Reached.exists_leaves`: the paths that have been left behind
- `RetainedTopicMap.rejected_unchanged_iff`: when nothing is left behind
- `RetainedTopicMap.rejected_leaves`: the path that is left behind
-/

namespace AsyncMqtt

namespace RetainedTopicMap

variable {V : Type} {m m' : RetainedTopicMap V} {s s' : Stored V} {S P : List (List Buffer)}
  {f : Buffer} {v : V} {w : List Buffer}

/-- The maps that the calls lead to, the rejected ones included, as long as no limit is reached -/
inductive Reached : RetainedTopicMap V → Prop
  | make : Reached make
  | insertOrAssign {m : RetainedTopicMap V} (hm : Reached m) (f : Buffer) (v : V)
      (hcall : (m.insertOrAssignState f v).1 ≠ .error .maxStoredTopics) :
      Reached (m.insertOrAssignState f v).2
  | erase {m : RetainedTopicMap V} (hm : Reached m) (f : Buffer) : Reached (m.erase f).2
  | clear {m : RetainedTopicMap V} (hm : Reached m) : Reached m.clear

/-- The map counts the stored topics and paths that have been left behind. -/
structure Leaves (m : RetainedTopicMap V) (s : Stored V) (P : List (List Buffer)) : Prop
    extends Represents m (keyLevels s ++ P) s where
  noWildcards : ∀ p ∈ keyLevels s ++ P, NoWildcards p

namespace Leaves

/-- A topic with a wildcard has no entry. -/
theorem node_eq_none (h : Leaves m s P) (hf : ¬ NoWildcards (topicFilterTokens f)) :
    m.node (topicFilterTokens f) = none := by
  cases hnode : m.node (topicFilterTokens f) with
  | none => rfl
  | some e =>
    have hsome : (m.tree.node RetainedEntry.id (topicFilterTokens f)).isSome :=
      Option.isSome_iff_exists.mpr ⟨e, hnode⟩
    obtain ⟨p, hp, hpre⟩ := (h.counted.isSome _ (topicFilterTokens_ne_nil f)).mp hsome
    exact absurd (fun t ht => h.noWildcards p hp t (hpre.subset ht)) hf

/-- A stored topic has no wildcards, and neither has what is inserted. -/
theorem insertOrAssign (h : Leaves m s P)
    (hcall : (m.insertOrAssignState f v).1 ≠ .error .maxStoredTopics) :
    ∃ s P, Leaves (m.insertOrAssignState f v).2 s P := by
  cases h.toRepresents.inserts f v with
  | returns m' hstate hm' hnew =>
    have hf : NoWildcards (topicFilterTokens f) := by
      by_contra hf
      exact hf (hnew (h.node_eq_none hf))
    rw [hstate]
    refine ⟨s.insert f v, P, hm', fun p hp => ?_⟩
    rcases List.mem_append.mp hp with hp | hp
    · obtain ⟨g, hg, rfl⟩ := exists_of_mem_keyLevels hp
      by_cases hgf : g = f
      · exact hgf ▸ hf
      · rw [AList.lookup_insert_ne hgf] at hg
        exact h.noWildcards _ (List.mem_append_left P (mem_keyLevels.mpr hg))
    · exact h.noWildcards p (List.mem_append_right _ hp)
  | rejects m' w hstate hwild hw hm' =>
    rw [hstate]
    refine ⟨s, w :: P, hm', fun p hp => ?_⟩
    rw [List.mem_append, List.mem_cons] at hp
    rcases hp with hp | rfl | hp
    · exact h.noWildcards p (List.mem_append_left P hp)
    · exact hw
    · exact h.noWildcards p (List.mem_append_right _ hp)
  | overflows herror => exact absurd herror hcall

theorem erase (h : Leaves m s P) (f : Buffer) : Leaves (m.erase f).2 (s.erase f) P := by
  refine ⟨(h.toRepresents.eraseCall f).2.1, fun p hp => ?_⟩
  rcases List.mem_append.mp hp with hp | hp
  · obtain ⟨g, hg, rfl⟩ := exists_of_mem_keyLevels hp
    by_cases hgf : g = f
    · rw [hgf, AList.lookup_erase] at hg
      exact nomatch hg
    · rw [AList.lookup_erase_ne hgf] at hg
      exact h.noWildcards _ (List.mem_append_left P (mem_keyLevels.mpr hg))
  · exact h.noWildcards p (List.mem_append_right _ hp)

theorem make : Leaves (RetainedTopicMap.make : RetainedTopicMap V) ∅ [] :=
  ⟨Holds.make, fun _ hp => nomatch hp⟩

end Leaves

/-- What a map counts that the calls lead to -/
theorem Reached.exists_leaves (hm : Reached m) : ∃ s P, Leaves m s P := by
  induction hm with
  | make => exact ⟨∅, [], Leaves.make⟩
  | insertOrAssign _ f v hcall ih =>
    obtain ⟨s, P, h⟩ := ih
    exact h.insertOrAssign hcall
  | erase _ f ih =>
    obtain ⟨s, P, h⟩ := ih
    exact ⟨s.erase f, P, h.erase f⟩
  | clear => exact ⟨∅, [], Leaves.make⟩

/-- A map does not count a path and not count it. -/
theorem Represents.eq_nil_of_cons (h : Represents m S s) (h' : Represents m (w :: S) s') :
    w = [] := by
  cases w with
  | nil => rfl
  | cons t w =>
    have hpre : [t] <+: t :: w := ⟨w, rfl⟩
    have hsome := (h'.counted.isSome [t] (List.cons_ne_nil t [])).mpr
      ⟨t :: w, List.mem_cons_self .., hpre⟩
    obtain ⟨e, he⟩ := Option.isSome_iff_exists.mp hsome
    have hcount := h.counted.count [t] e (List.cons_ne_nil t []) he
    rw [h'.counted.count [t] e (List.cons_ne_nil t []) he, List.countP_cons,
      if_pos (decide_eq_true hpre)] at hcount
    omega

/-- `create_topic` takes no identifier back. -/
theorem nextNodeId_le_createLevels (parent : Nat) (ts : List Buffer) (m : RetainedTopicMap V) :
    m.nextNodeId ≤ (createLevelsState parent ts m).2.nextNodeId := by
  induction ts generalizing parent m with
  | nil => exact Nat.le_refl _
  | cons t ts ih =>
    cases createsLevel m parent t ts with
    | wildcard _ hstate => rw [hstate]
    | last _ _ _ hstate =>
      rw [hstate]
      exact Nat.le_succ _
    | new _ _ hstate =>
      rw [hstate]
      exact (Nat.le_succ _).trans (ih m.nextNodeId (m.addLeaf parent t))
    | full _ _ _ _ hstate => rw [hstate]
    | more _ e _ hstate =>
      rw [hstate]
      exact ih e.id (m.modify e.id fun _ => { e with count := e.count + 1 })

/-- If the first level is refused, nothing has been done. -/
theorem createLevelsState_of_wildcard {parent : Nat} {ts : List Buffer}
    (h : BeginsWithWildcard ts) : (createLevelsState parent ts m).2 = m := by
  obtain ⟨t, ht, hwild⟩ := h
  cases ts with
  | nil => cases ht
  | cons t' ts =>
    obtain rfl := Option.some.inj ht
    rw [createLevelsState, if_pos hwild]

/-- At a limit, an entry has been added or one has been erased. -/
theorem createLevelsState_of_overflow {parent : Nat} {ts : List Buffer}
    (h : (createLevelsState parent ts m).1 = .error .maxStoredTopics) :
    m.nextNodeId < (createLevelsState parent ts m).2.nextNodeId ∨
      (createLevelsState parent ts m).2.map.length < m.map.length := by
  -- the entries stay as many as they were until one is added or erased
  induction ts generalizing parent m with
  | nil => cases h
  | cons t ts ih =>
    cases createsLevel m parent t ts with
    | wildcard _ hstate =>
      rw [hstate] at h
      cases h
    | last _ _ _ hstate =>
      rw [hstate]
      exact .inl (Nat.lt_succ_self _)
    | new _ _ hstate =>
      rw [hstate]
      exact .inl (Nat.lt_of_lt_of_le (Nat.lt_succ_self _)
        (nextNodeId_le_createLevels m.nextNodeId ts (m.addLeaf parent t)))
    | full _ e hfind _ hstate =>
      rw [hstate]
      refine .inr (List.length_filter_lt_length_iff_exists.mpr ⟨e, ?_, by simp⟩)
      exact List.mem_of_find?_eq_some hfind
    | more _ e _ hstate =>
      rw [hstate] at h ⊢
      have hlength : (m.modify e.id fun _ => { e with count := e.count + 1 }).map.length =
        m.map.length := List.length_map ..
      rw [← hlength]
      exact ih h

/-- `insert_or_assign` throws for a topic with a wildcard, and leaves the map as it was if and only if
    the first level is the wildcard. -/
theorem rejected_unchanged_iff (hm : Reached m) (hf : ¬ NoWildcards (topicFilterTokens f)) (v : V) :
    (∃ error, (m.insertOrAssignState f v).1 = .error error) ∧
      ((m.insertOrAssignState f v).2 = m ↔ BeginsWithWildcard (topicFilterTokens f)) := by
  obtain ⟨s, P, h⟩ := hm.exists_leaves
  have hnode := h.node_eq_none hf
  have hroot : Represents m ([] :: (keyLevels s ++ P)) s :=
    { h.toRepresents with counted := h.counted.cons_nil }
  have hcases : (∃ w, Represents.Creates m (keyLevels s ++ P) s [] m.tree.root.id
      (topicFilterTokens f) w) ∨
      Represents.Overflows m (keyLevels s ++ P) m.tree.root.id (topicFilterTokens f) :=
    hroot.createLevels node_nil
  rw [h.toWellFormed.directFind_root.2] at hcases
  -- a topic with a wildcard cannot be created as a whole
  have herror : ∃ error, (createLevelsState rootNodeId (topicFilterTokens f) m).1 = .error error := by
    rcases hcases with ⟨w, hcreates⟩ | hmax
    · rcases hcreates.result with ⟨e, rfl, -⟩ | ⟨herror, -⟩
      · exact absurd hcreates.noWildcards hf
      · exact ⟨_, herror⟩
    · exact ⟨_, hmax.error⟩
  -- the topic is not there, so that all is left to `create_topic`
  have hlast : (m.findTopic f).getLast? = none :=
    (Holds.getLast?_findTopic h.toWellFormed f).trans hnode
  have hstate := insertOrAssignState_of_none f v hlast
  have hleft : (m.insertOrAssignState f v).1 =
      (createLevelsState rootNodeId (topicFilterTokens f) m).1.map (fun _ => 0) ∧
      (m.insertOrAssignState f v).2 =
        (createLevelsState rootNodeId (topicFilterTokens f) m).2 := by
    obtain ⟨error, herror⟩ := herror
    rw [hstate]
    rcases hcreate : createLevelsState rootNodeId (topicFilterTokens f) m with ⟨r, m'⟩
    rw [hcreate] at herror
    dsimp only at herror
    subst herror
    exact ⟨rfl, rfl⟩
  rw [hleft.1, hleft.2]
  constructor
  · obtain ⟨error, herror⟩ := herror
    exact ⟨error, by rw [herror]; rfl⟩
  · constructor
    · intro hsame
      by_contra hbegins
      rcases hcases with ⟨w, hcreates⟩ | hmax
      -- a level that was added before the wildcard would be left
      · have hm' := hcreates.represents
        rw [hsame] at hm'
        exact hcreates.ne_nil (topicFilterTokens_ne_nil f) hbegins
          (h.toRepresents.eq_nil_of_cons hm')
      -- the limit has left one entry more or less
      · have hchanged := createLevelsState_of_overflow hmax.error
        rw [hsame] at hchanged
        omega
    · exact createLevelsState_of_wildcard

/-- A wildcard at the first level leaves nothing behind. -/
theorem rejected_unchanged_iff_plus :
    ((make : RetainedTopicMap Nat).insertOrAssignState [0x2b] 7).2 = make := by
  have hf : ¬ NoWildcards (topicFilterTokens [0x2b]) := fun h => (h plusLevel (by decide)).1 rfl
  exact (rejected_unchanged_iff .make hf 7).2.mpr ⟨plusLevel, rfl, .inl rfl⟩

/-- A wildcard at the second level leaves the first level behind. -/
theorem rejected_leaves :
    ¬ ∀ (m : RetainedTopicMap Nat) (f : Buffer) (v : Nat), Reached m →
      ¬ NoWildcards (topicFilterTokens f) →
        (∃ error, (m.insertOrAssignState f v).1 = .error error) ∧
          (m.insertOrAssignState f v).2 = m := by
  intro hclaim
  have hf : ¬ NoWildcards (topicFilterTokens [0x61, 0x2f, 0x2b]) := fun h =>
    (h plusLevel (by decide)).1 rfl
  have hsame := (hclaim make [0x61, 0x2f, 0x2b] 7 .make hf).2
  exact absurd (congrArg internalSize hsame) (by decide)

end RetainedTopicMap

end AsyncMqtt
