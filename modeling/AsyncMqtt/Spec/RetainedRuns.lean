import AsyncMqtt.Spec.RetainedCalls
import AsyncMqtt.Spec.RetainedMatch

/-!
# Runs of a map of retained topics

Calls to a `retained_topic_map` beside the same calls to a finite map from topics to values. What
`find` calls back are the stored topics that the filter matches and to which the walk comes: nothing
else is ever called back, and nothing twice, but a topic may be missed.

## Key results

- `RetainedTopicMap.Holds.perm_find`: what is called back
- `RetainedTopicMap.finds_iff_visible`: when nothing is missed
- `RetainedTopicMap.find_misses`: the topic that is missed
-/

namespace AsyncMqtt

namespace RetainedTopicMap

variable {V : Type}

/-- A run of a map of retained topics beside a finite map -/
inductive Runs : RetainedTopicMap V → Stored V → Prop
  | make : Runs RetainedTopicMap.make ∅
  | insertOrAssign {m m' s f v r} (hr : Runs m s) (hcall : m.insertOrAssign f v = .ok (r, m')) :
      Runs m' (s.insert f v)
  | erase {m s} (hr : Runs m s) (f : Buffer) : Runs (m.erase f).2 (s.erase f)
  | clear {m s} (hr : Runs m s) : Runs m.clear ∅

variable {m m' : RetainedTopicMap V} {s : Stored V} {f : Buffer} {q : List Buffer}

theorem Runs.holds (hr : Runs m s) : Holds m s := by
  induction hr with
  | make => exact Holds.make
  | insertOrAssign _ hcall ih => exact ih.insertOrAssign hcall
  | erase _ f ih => exact ih.erase f
  | clear => exact Holds.make

/-- `find` calls back once for each stored topic that the filter matches. -/
def Finds (m : RetainedTopicMap V) (s : Stored V) (f : Buffer) : Prop :=
  (m.find f).Perm ((s.entries.filter fun i => topicFilterMatches true f i.1).map Sigma.snd)

namespace Holds

theorem valueAt_topic (h : Holds m s) (f : Buffer) :
    m.valueAt (topicFilterTokens f) = s.lookup f := h.value f

theorem valueAt_entry (h : Holds m s) {i : Sigma fun _ : Buffer => V} (hi : i ∈ s.entries) :
    m.valueAt (topicFilterTokens i.1) = some i.2 :=
  (h.valueAt_topic i.1).trans (AList.mem_lookup_iff.mpr hi)

/-- A value stands at a stored topic. -/
theorem exists_entry (h : Holds m s) {v : V} (hq : m.valueAt q = some v) :
    ∃ i ∈ s.entries, q = topicFilterTokens i.1 := by
  by_cases hnil : q = []
  · subst hnil
    unfold valueAt at hq
    rw [node_nil, Option.bind_some, h.rootValue] at hq
    exact nomatch hq
  · have hnode : (m.node q).isSome := by
      obtain ⟨e, he, -⟩ := Option.bind_eq_some_iff.mp hq
      rw [he]
      rfl
    obtain ⟨ts, hts, hpre⟩ := (h.counted.isSome q hnil).mp hnode
    obtain ⟨g, -, rfl⟩ := List.mem_map.mp hts
    obtain ⟨f, rfl⟩ := exists_topicFilterTokens_on_path hnil hpre
    rw [h.valueAt_topic] at hq
    exact ⟨⟨f, v⟩, AList.mem_lookup_iff.mp hq, rfl⟩

open Classical in
/-- What is called back: the stored topics that match and to which the walk comes. -/
theorem perm_find (h : Holds m s) (hf : validateTopicFilter f) :
    (m.find f).Perm ((s.entries.filter fun i => topicFilterMatches true f i.1 &&
      Visible m (topicFilterTokens f) (topicFilterTokens i.1)).map Sigma.snd) := by
  have hwf := h.toWellFormed
  have hhash := hashLevel_not_mem_of_validateTopicFilter hf
  have hstart : ∀ q ∈ [([] : List Buffer)], m.hasNode q := fun q hq => by
    rw [List.mem_singleton.mp hq]
    rfl
  -- the search begins at the root
  have hfind : m.find f =
      (m.foundPaths (topicFilterTokens f) [[]]).filterMap m.valueAt := by
    have hroot : (m.directFind rootParentId []).toList = [([] : List Buffer)].filterMap m.node := by
      rw [hwf.directFind_root.1]
      rfl
    unfold find findMatch
    rw [hroot, matchLevels_eq hwf hstart]
  rw [hfind]
  apply AList.perm_filterMap topicFilterTokens_injective (nodup_foundPaths hwf hhash)
  · exact fun i hi => h.valueAt_entry hi
  -- a path that is found has its topic in the map
  · intro q hsome
    obtain ⟨v, hv⟩ := Option.isSome_iff_exists.mp hsome
    obtain ⟨i, hi, hq⟩ := h.exists_entry hv
    exact ⟨i, hi, hq.symm⟩
  -- a topic of the map is found if its path is
  · intro i hi
    have hnode : m.hasNode (topicFilterTokens i.1) := by
      obtain ⟨e, he, -⟩ := Option.bind_eq_some_iff.mp (h.valueAt_entry hi)
      unfold hasNode
      rw [he]
      rfl
    rw [mem_foundPaths hwf hhash hnode]
    simp [topicFilterMatches]

end Holds

/-- Nothing is missed if and only if the walk comes to every stored topic that the filter matches. -/
theorem finds_iff_visible (hr : Runs m s) (hf : validateTopicFilter f) :
    Finds m s f ↔ ∀ topic ∈ s, topicFilterMatches true f topic →
      Visible m (topicFilterTokens f) (topicFilterTokens topic) := by
  classical
  have hperm := hr.holds.perm_find hf
  have hfilter : (s.entries.filter fun i => topicFilterMatches true f i.1 &&
      Visible m (topicFilterTokens f) (topicFilterTokens i.1)) =
      (s.entries.filter fun i => topicFilterMatches true f i.1).filter
        fun i => Visible m (topicFilterTokens f) (topicFilterTokens i.1) := by
    rw [List.filter_filter]
    simp only [Bool.and_comm]
  rw [hfilter] at hperm
  constructor
  · intro hfinds topic htopic hmatch
    -- the topics to which the walk comes are all of them, since they are as many
    have hlen := (hperm.symm.trans hfinds).length_eq
    rw [List.length_map, List.length_map] at hlen
    have hall := List.length_filter_eq_length_iff.mp hlen
    obtain ⟨v, hv⟩ := Option.isSome_iff_exists.mp (AList.lookup_isSome.mpr htopic)
    have hmem := AList.mem_lookup_iff.mp hv
    simpa using hall ⟨topic, v⟩ (List.mem_filter.mpr ⟨hmem, hmatch⟩)
  · intro hvisible
    have hall : ∀ i ∈ s.entries.filter fun i => topicFilterMatches true f i.1,
        decide (Visible m (topicFilterTokens f) (topicFilterTokens i.1)) := by
      intro i hi
      obtain ⟨hi, hmatch⟩ := List.mem_filter.mp hi
      have hlookup : s.lookup i.1 = some i.2 := AList.mem_lookup_iff.mpr hi
      exact decide_eq_true (hvisible i.1 (AList.lookup_isSome.mp (by rw [hlookup]; rfl)) hmatch)
    rw [List.filter_eq_self.mpr hall] at hperm
    exact hperm

/-- One topic is stored, and `+` finds it. -/
theorem finds_iff_visible_plus : ∃ (m : RetainedTopicMap Nat) (s : Stored Nat),
    s.lookup [0x61] = some 7 ∧ Finds m s [0x2b] := by
  have hr := Runs.insertOrAssign (f := [0x61]) (v := 7) .make rfl
  refine ⟨_, _, rfl, (finds_iff_visible hr rfl).mpr fun topic htopic _ => ?_⟩
  obtain rfl : topic = [0x61] := List.mem_singleton.mp (AList.mem_keys.mp htopic)
  constructor
  · -- no level comes before the only one
    intro _ t _ hearlier
    have hlen := (PathOrder.earlier_singleton_iff.mp hearlier).length_le
    exact absurd hlen (by decide : ¬ 2 ≤ 1)
  · intro gs hgs
    have hlast := congrArg List.getLast? hgs
    rw [List.getLast?_concat] at hlast
    exact absurd hlast (by decide)

/-- Beside a level of the server that was created before, `+` misses a topic, and `+/#` misses the
    topics below the second of two levels. -/
theorem find_misses :
    (∃ (m : RetainedTopicMap Nat) (s : Stored Nat), Runs m s ∧ validateTopicFilter [0x2b] ∧
      s.lookup [0x61] = some 8 ∧ m.find [0x2b] = [] ∧ ¬ Finds m s [0x2b]) ∧
    ∃ (m : RetainedTopicMap Nat) (s : Stored Nat), Runs m s ∧
      validateTopicFilter [0x2b, 0x2f, 0x23] ∧ s.lookup [0x62, 0x2f, 0x79] = some 8 ∧
      m.find [0x2b, 0x2f, 0x23] = [7] ∧ ¬ Finds m s [0x2b, 0x2f, 0x23] := by
  constructor
  · have hr := Runs.insertOrAssign (f := [0x61]) (v := 8)
      (Runs.insertOrAssign (f := [0x24, 0x73]) (v := 7) .make rfl) rfl
    refine ⟨_, _, hr, rfl, rfl, rfl, fun hfinds => ?_⟩
    exact absurd hfinds.length_eq (by decide)
  · have hr := Runs.insertOrAssign (f := [0x62, 0x2f, 0x79]) (v := 8)
      (Runs.insertOrAssign (f := [0x61, 0x2f, 0x78]) (v := 7) .make rfl) rfl
    refine ⟨_, _, hr, rfl, rfl, rfl, fun hfinds => ?_⟩
    exact absurd hfinds.length_eq (by decide)

end RetainedTopicMap

end AsyncMqtt
