import AsyncMqtt.ForStd.AList
import AsyncMqtt.ForStd.LevelMatch
import AsyncMqtt.Native.TopicFilter

/-!
# Matching topic filters

What the matching of the broker means, on the levels of a filter and of a topic: `+` stands for one
level, `#` at the end for the levels that are left, and a wildcard at the first level does not stand
for a level of the server. Whether `#` also stands for no level is a parameter.

## Key results

- `topicFilterTokens_injective`: a filter is determined by its levels
- `exists_topicFilterTokens_on_path`: the first levels of a filter are those of another
- `hashLevel_not_mem_of_validateTopicFilter`: where `#` stands in a valid filter
-/

namespace AsyncMqtt

/-! ### Levels -/

theorem topicFilterTokens_ne_nil (topicFilter : Buffer) : topicFilterTokens topicFilter ≠ [] :=
  List.splitOn_ne_nil _ _

/-- A filter is determined by its levels. -/
theorem topicFilterTokens_injective : Function.Injective topicFilterTokens := by
  intro f g heq
  have hf : [topicFilterSeparator].intercalate (topicFilterTokens f) = f :=
    List.intercalate_splitOn topicFilterSeparator
  have hg : [topicFilterSeparator].intercalate (topicFilterTokens g) = g :=
    List.intercalate_splitOn topicFilterSeparator
  rw [← hf, heq, hg]

/-- What stands in a level stands in the filter, and is no separator. -/
theorem mem_of_mem_level {topicFilter t : Buffer} {c : UInt8}
    (h : t ∈ topicFilterTokens topicFilter) (hc : c ∈ t) :
    c ∈ topicFilter ∧ c ≠ topicFilterSeparator := by
  unfold topicFilterTokens at h
  -- the induction is on the characters: a separator opens a level, any other one belongs to the
  -- first
  induction topicFilter generalizing t with
  | nil =>
    obtain rfl := List.mem_singleton.mp h
    exact absurd hc List.not_mem_nil
  | cons d ds ih =>
    rw [List.splitOn_cons_eq_if_modifyHead] at h
    split at h
    · rcases List.mem_cons.mp h with rfl | h
      · exact absurd hc List.not_mem_nil
      · exact (ih h hc).imp_left (List.mem_cons_of_mem _)
    · next hd =>
      cases hds : ds.splitOn topicFilterSeparator with
      | nil => exact absurd hds (List.splitOn_ne_nil _ _)
      | cons u us =>
        rw [hds] at h ih
        rcases List.mem_cons.mp h with rfl | h
        · -- the first level begins with `d`
          rcases List.mem_cons.mp hc with rfl | hc
          · exact ⟨List.mem_cons_self .., fun heq => hd (beq_iff_eq.mpr heq)⟩
          · exact (ih (List.mem_cons_self ..) hc).imp_left (List.mem_cons_of_mem _)
        · exact (ih (List.mem_cons_of_mem _ h) hc).imp_left (List.mem_cons_of_mem _)

/-- The first levels of a filter are the levels of another. -/
theorem exists_topicFilterTokens_on_path {p : List Buffer} {topicFilter : Buffer} (hp : p ≠ [])
    (h : p <+: topicFilterTokens topicFilter) : ∃ g, topicFilterTokens g = p := by
  refine ⟨[topicFilterSeparator].intercalate p, ?_⟩
  apply List.splitOn_intercalate
  · exact fun t ht hmem => (mem_of_mem_level (h.subset ht) hmem).2 rfl
  · exact hp

/-! ### The filters that a map has -/

section

variable {β : Type} {s : AList fun _ : Buffer => β} {f : Buffer}

/-- The levels of the keys of a map -/
def keyLevels (s : AList fun _ : Buffer => β) : List (List Buffer) := s.keys.map topicFilterTokens

theorem mem_keyLevels : topicFilterTokens f ∈ keyLevels s ↔ (s.lookup f).isSome := by
  unfold keyLevels
  rw [List.mem_map_of_injective topicFilterTokens_injective, AList.lookup_isSome, AList.mem_keys]

theorem exists_of_mem_keyLevels {ts : List Buffer} (hts : ts ∈ keyLevels s) :
    ∃ f, (s.lookup f).isSome ∧ topicFilterTokens f = ts := by
  obtain ⟨f, hf, rfl⟩ := List.mem_map.mp hts
  exact ⟨f, AList.lookup_isSome.mpr (AList.mem_keys.mpr hf), rfl⟩

theorem length_keyLevels (s : AList fun _ : Buffer => β) :
    (keyLevels s).length = s.entries.length := by
  rw [keyLevels, List.length_map, AList.length_keys]

theorem keyLevels_insert_of_none (hnone : s.lookup f = none) (b : β) :
    keyLevels (s.insert f b) = topicFilterTokens f :: keyLevels s := by
  unfold keyLevels
  rw [AList.keys_insert_of_none hnone]
  rfl

theorem perm_keyLevels_insert (hsome : (s.lookup f).isSome) (b : β) :
    (keyLevels (s.insert f b)).Perm (keyLevels s) :=
  (AList.perm_keys_insert hsome).map _

theorem perm_keyLevels_erase (hsome : (s.lookup f).isSome) :
    (keyLevels s).Perm (topicFilterTokens f :: keyLevels (s.erase f)) :=
  (AList.perm_keys_erase hsome).map _

end

/-! ### Where the wildcards stand -/

/-- After each level but the last one, a separator stands in the filter. -/
theorem exists_eq_of_mem_dropLast {topicFilter t : Buffer}
    (h : t ∈ (topicFilterTokens topicFilter).dropLast) :
    ∃ a b, topicFilter = a ++ (t ++ topicFilterSeparator :: b) := by
  have hjoin : [topicFilterSeparator].intercalate (topicFilterTokens topicFilter) = topicFilter :=
    List.intercalate_splitOn topicFilterSeparator
  rw [← hjoin]
  generalize topicFilterTokens topicFilter = ts at h
  -- only the levels before the last one have a separator behind them
  induction ts with
  | nil => exact nomatch h
  | cons u us ih =>
    cases us with
    | nil => exact nomatch h
    | cons v us =>
      rw [List.dropLast_cons_cons] at h
      rw [List.intercalate_cons_cons]
      rcases List.mem_cons.mp h with rfl | h
      · exact ⟨[], _, by simp; rfl⟩
      · obtain ⟨a, b, heq⟩ := ih h
        exact ⟨u ++ topicFilterSeparator :: a, b, by rw [heq]; simp⟩

/-- In a valid filter, `#` stands at the end only. -/
theorem hashLevel_not_mem_of_validateTopicFilter {topicFilter : Buffer}
    (h : validateTopicFilter topicFilter) :
    hashLevel ∉ (topicFilterTokens topicFilter).dropLast := by
  intro hmem
  obtain ⟨a, b, heq⟩ := exists_eq_of_mem_dropLast hmem
  have hlen : topicFilter.length = a.length + (b.length + 2) := by
    rw [heq]
    simp [hashLevel]
  have hchar : topicFilter[a.length]? = some 0x23 := by
    rw [heq, List.getElem?_append_right (Nat.le_refl _), Nat.sub_self]
    rfl
  -- the check of the source at this character says that it is the last one
  have hall := (Bool.and_eq_true_iff.mp h).2
  have hat := List.all_eq_true.mp hall a.length (List.mem_range.mpr (by omega))
  unfold validateTopicFilterAt at hat
  rw [hchar] at hat
  have hlast : a.length = topicFilter.length - 1 := by
    simpa using (Bool.and_eq_true_iff.mp hat).1
  omega

/-! ### Matching -/

/-- A wildcard at the first level does not stand for a level of the server. -/
def isHidden (fs ts : List Buffer) : Bool :=
  (fs.head? = some plusLevel || fs.head? = some hashLevel) && ts.head?.any isSystemLevel

/-- The levels of a filter match the levels of a topic. With `parent`, a `#` at the end stands for no
    level too. -/
def levelsMatch (parent : Bool) (fs ts : List Buffer) : Bool :=
  LevelMatch.isMatch plusLevel hashLevel parent fs ts && ! isHidden fs ts

/-- The topic filter matches the topic. -/
def topicFilterMatches (parent : Bool) (topicFilter topic : Buffer) : Bool :=
  levelsMatch parent (topicFilterTokens topicFilter) (topicFilterTokens topic)

/-- No level is a wildcard. -/
def NoWildcards (ts : List Buffer) : Prop := ∀ t ∈ ts, t ≠ plusLevel ∧ t ≠ hashLevel

/-- A valid topic name has no wildcards. -/
theorem noWildcards_of_validateTopicName {topic : Buffer} (h : validateTopicName topic) :
    NoWildcards (topicFilterTokens topic) := by
  have hall : topic.all (fun c => c ≠ 0x00 && c ≠ 0x2b && c ≠ 0x23) :=
    (Bool.and_eq_true_iff.mp h).2
  have hmem : ∀ c ∈ topic, c ≠ 0x2b ∧ c ≠ 0x23 := by
    intro c hc
    have hchar := List.all_eq_true.mp hall c hc
    simp only [Bool.and_eq_true_iff, decide_eq_true_iff] at hchar
    exact ⟨hchar.1.2, hchar.2⟩
  intro t ht
  constructor
  · rintro rfl
    exact (hmem _ (mem_of_mem_level ht (List.mem_singleton.mpr rfl)).1).1 rfl
  · rintro rfl
    exact (hmem _ (mem_of_mem_level ht (List.mem_singleton.mpr rfl)).1).2 rfl

end AsyncMqtt
