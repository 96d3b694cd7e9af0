import Mathlib.Data.List.Dedup
import AsyncMqtt.ForStd.AList
import AsyncMqtt.Spec.SubscriptionFind

/-!
# The subscription map as a finite map

A `multiple_subscription_map` holds what a finite map from filters and keys to values holds that is
given the same calls.

## Key results

- `MultipleSubscriptionMap.Holds.insertOrAssign`, `MultipleSubscriptionMap.Holds.erase`: one call
- `MultipleSubscriptionMap.Holds.perm_find`: what is called back for a topic
-/

namespace AsyncMqtt

namespace MultipleSubscriptionMap

open SubscriptionMapBase
open FlatTree (pathsAlong nodup_pathsAlong mem_pathsAlong_nil prefixes mem_prefixes nodup_prefixes)

/-- The finite map -/
abbrev Stored (K V : Type) [DecidableEq K] := AList fun _ : Buffer × K => V

variable {K V : Type} [DecidableEq K] {m m' : MultipleSubscriptionMap K V} {s : Stored K V}
  {f : Buffer} {k : K} {v : V} {h : PathEntryKey}

/-! ### The containers of the entries -/

/-- The containers along the paths hold the finite map. -/
structure Contains (A : List Buffer → AList fun _ : K => V) (s : Stored K V) : Prop where
  lookup : ∀ f k, (A (topicFilterTokens f)).lookup k = s.lookup (f, k)
  nil : A [] = ∅

namespace Contains

variable {A : List Buffer → AList fun _ : K => V}

theorem update {c : AList fun _ : K => V} {s' : Stored K V} (hA : Contains A s)
    (hself : ∀ k, c.lookup k = s'.lookup (f, k))
    (hne : ∀ g k, g ≠ f → s'.lookup (g, k) = s.lookup (g, k)) :
    Contains (Function.update A (topicFilterTokens f) c) s' := by
  constructor
  · intro g k
    by_cases hg : g = f
    · subst hg
      rw [Function.update_self]
      exact hself k
    · rw [Function.update_of_ne (topicFilterTokens_injective.ne hg), hne g k hg]
      exact hA.lookup g k
  · rw [Function.update_of_ne (topicFilterTokens_ne_nil f).symm, hA.nil]

theorem insert (hA : Contains A s) (f : Buffer) (k : K) (v : V) :
    Contains (Function.update A (topicFilterTokens f) ((A (topicFilterTokens f)).insert k v))
      (s.insert (f, k) v) := by
  apply hA.update
  · intro k'
    by_cases hk : k' = k
    · rw [hk, AList.lookup_insert, AList.lookup_insert]
    · rw [AList.lookup_insert_ne hk, AList.lookup_insert_ne, hA.lookup]
      exact fun heq => hk (Prod.mk.inj heq).2
  · intro g k' hg
    exact AList.lookup_insert_ne fun heq => hg (Prod.mk.inj heq).1

theorem erase (hA : Contains A s) (f : Buffer) (k : K) :
    Contains (Function.update A (topicFilterTokens f) ((A (topicFilterTokens f)).erase k))
      (s.erase (f, k)) := by
  apply hA.update
  · intro k'
    by_cases hk : k' = k
    · rw [hk, AList.lookup_erase, AList.lookup_erase]
    · rw [AList.lookup_erase_ne hk, AList.lookup_erase_ne, hA.lookup]
      exact fun heq => hk (Prod.mk.inj heq).2
  · intro g k' hg
    exact AList.lookup_erase_ne fun heq => hg (Prod.mk.inj heq).1

end Contains

/-! ### One call -/

/-- The filters that are held, with each key. -/
def filters (s : Stored K V) : List (List Buffer) := s.keys.map fun i => topicFilterTokens i.1

theorem mem_filters : topicFilterTokens f ∈ filters s ↔ ∃ k, (s.lookup (f, k)).isSome := by
  unfold filters
  rw [List.mem_map]
  constructor
  · rintro ⟨⟨g, k⟩, hmem, heq⟩
    obtain rfl : g = f := topicFilterTokens_injective heq
    exact ⟨k, AList.lookup_isSome.mpr (AList.mem_keys.mpr hmem)⟩
  · rintro ⟨k, hsome⟩
    exact ⟨(f, k), AList.mem_keys.mp (AList.lookup_isSome.mp hsome), rfl⟩

theorem filters_insert_of_none (hnone : s.lookup (f, k) = none) (v : V) :
    filters (s.insert (f, k) v) = topicFilterTokens f :: filters s := by
  unfold filters
  rw [AList.keys_insert_of_none hnone]
  rfl

theorem filters_insert_of_some (hsome : (s.lookup (f, k)).isSome) (v : V) :
    (filters (s.insert (f, k) v)).Perm (filters s) :=
  (AList.perm_keys_insert hsome).map _

theorem filters_erase_of_some (hsome : (s.lookup (f, k)).isSome) :
    (filters s).Perm (topicFilterTokens f :: filters (s.erase (f, k))) :=
  (AList.perm_keys_erase hsome).map _

theorem filters_erase_of_none (hnone : s.lookup (f, k) = none) :
    filters (s.erase (f, k)) = filters s := by
  rw [AList.erase_of_none hnone]

/-- The map holds the finite map. -/
structure Holds (m : MultipleSubscriptionMap K V) (s : Stored K V) : Prop where
  exists_represents : ∃ A, Represents m (filters s) A ∧ Contains A s
  mapSize : m.mapSize = (filters s).length

namespace Holds

/-- A new map. -/
theorem make : Holds (make : MultipleSubscriptionMap K V) ∅ :=
  ⟨⟨_, Represents.make, fun _ _ => rfl, rfl⟩, rfl⟩

/-- `lookup` gives the key of the entry of the filter. -/
theorem lookup_iff (hm : Holds m s) :
    m.lookup f = some h ↔
      (m.node (topicFilterTokens f)).isSome ∧ h = m.keyAt (topicFilterTokens f) := by
  obtain ⟨A, hA, -⟩ := hm.exists_represents
  rw [SubscriptionMapBase.lookup, getLast?_findTopicFilter hA.toWellFormed]
  split
  · next hsome => simp [hsome, eq_comm]
  · next hnone => simp [hnone]

theorem isSome_lookup (hm : Holds m s) :
    (m.lookup f).isSome ↔ ∃ g ∈ filters s, topicFilterTokens f <+: g := by
  obtain ⟨A, hA, -⟩ := hm.exists_represents
  rw [← hA.isSome _ (topicFilterTokens_ne_nil f), SubscriptionMapBase.lookup,
    getLast?_findTopicFilter hA.toWellFormed]
  split
  · next hsome => simp [hsome]
  · next hnone => simp [hnone]

end Holds

section Calls

/-- What follows the assignment of a new pair: the path to it is counted, and so is the pair. -/
def addCount (path : List PathEntryKey) (m : MultipleSubscriptionMap K V) :
    Except SubscriptionMapError (MultipleSubscriptionMap K V) := do
  let m ← m.increaseSubscriptions path
  m.increaseMapSize

theorem addCount_bind {α : Type} (path : List PathEntryKey)
    (g : MultipleSubscriptionMap K V → Except SubscriptionMapError α) :
    (do
      let m ← m.increaseSubscriptions path
      let m ← m.increaseMapSize
      g m) = m.addCount path >>= g :=
  (bind_assoc (m.increaseSubscriptions path) _ g).symm

variable {S : List (List Buffer)} {A : List Buffer → AList fun _ : K => V}

/-- `insert_or_assign` of the container of a filter that has an entry -/
theorem assignAt_represents (hA : Represents m S A) (hc : Contains A s)
    (hf : (m.node (topicFilterTokens f)).isSome) (k : K) (v : V) :
    ∃ m₁, assignAt (m.keyAt (topicFilterTokens f)) k v m =
        ((s.lookup (f, k)).isNone, m₁) ∧
      (∃ A', Represents m₁ S A' ∧ Contains A' (s.insert (f, k) v)) ∧ m₁.mapSize = m.mapSize ∧
      m₁.nextNodeId = m.nextNodeId ∧ Extends m m₁ := by
  obtain ⟨e, he⟩ := Option.isSome_iff_exists.mp hf
  have hnew : (m.map.lookup (m.keyAt (topicFilterTokens f))).any
      (fun entry => (entry.value.lookup k).isNone) = (s.lookup (f, k)).isNone := by
    rw [hA.lookup_keyAt he, Option.any_some, hA.value _ e he, hc.lookup]
  refine ⟨_, Prod.ext hnew rfl, ⟨_, hA.modifyValue he, hc.insert f k v⟩, modify_mapSize _,
    modify_nextNodeId _, ?_⟩
  apply And.left
  apply Extends.modify hA.toWellFormed he
  exact fun _ => rfl

/-- `erase` of the container of a filter that has an entry -/
theorem eraseAt_represents (hA : Represents m S A) (hc : Contains A s)
    (hf : (m.node (topicFilterTokens f)).isSome) (k : K) :
    ∃ m₁, eraseAt (m.keyAt (topicFilterTokens f)) k m = ((s.lookup (f, k)).isSome, m₁) ∧
      (∃ A', Represents m₁ S A' ∧ Contains A' (s.erase (f, k))) ∧ m₁.mapSize = m.mapSize ∧
      m₁.nextNodeId = m.nextNodeId ∧ Extends m m₁ ∧ Extends m₁ m := by
  obtain ⟨e, he⟩ := Option.isSome_iff_exists.mp hf
  have hold : (m.map.lookup (m.keyAt (topicFilterTokens f))).any
      (fun entry => (entry.value.lookup k).isSome) = (s.lookup (f, k)).isSome := by
    rw [hA.lookup_keyAt he, Option.any_some, hA.value _ e he, hc.lookup]
  refine ⟨_, Prod.ext hold rfl, ⟨_, hA.modifyValue he, hc.erase f k⟩, modify_mapSize _,
    modify_nextNodeId _, ?_⟩
  apply Extends.modify hA.toWellFormed he
  exact fun _ => rfl

/-- A filter that has an entry is counted, and the size is increased. -/
theorem increase_represents {qs : List (List Buffer)} (hA : Represents m S A) (hqs : qs.Nodup)
    (hmem : ∀ q, q ∈ qs ↔ q ≠ [] ∧ q <+: topicFilterTokens f)
    (hf : (m.node (topicFilterTokens f)).isSome) (hsize : m.mapSize = S.length) :
    (∃ m', m.addCount (qs.map m.keyAt) = .ok m' ∧
      Represents m' (topicFilterTokens f :: S) A ∧ m'.mapSize = S.length + 1 ∧
      m'.nextNodeId = m.nextNodeId ∧ Extends m m') ∨
    (m.addCount (qs.map m.keyAt) = .error .maxStoredTopics ∧ CountStorage.max ≤ S.length) := by
  unfold addCount
  rcases hA.increase hqs hmem hf with ⟨m₁, hok, hm₁, hsize₁, hnext, hext, -⟩ | ⟨herror, hmax⟩
  · rw [hok]
    show (∃ m', m₁.increaseMapSize = .ok m' ∧ _) ∨ (m₁.increaseMapSize = _ ∧ _)
    unfold increaseMapSize
    by_cases hlimit : m₁.mapSize = sizeMax
    · rw [if_pos hlimit]
      refine .inr ⟨rfl, ?_⟩
      rw [← hsize, ← hsize₁, hlimit]
      decide
    · rw [if_neg hlimit]
      refine .inl ⟨_, rfl, hm₁.setMapSize _, ?_, hnext, hext⟩
      show m₁.mapSize + 1 = _
      rw [hsize₁, hsize]
  · rw [herror]
    exact .inr ⟨rfl, hmax⟩

end Calls

namespace Holds

/-- A pair that is held already gets another value. -/
theorem of_some {A : List Buffer → AList fun _ : K => V} (hm : Represents m' (filters s) A)
    (hc : Contains A (s.insert (f, k) v)) (hsome : (s.lookup (f, k)).isSome)
    (hsize : m'.mapSize = (filters s).length) : Holds m' (s.insert (f, k) v) := by
  refine ⟨⟨A, hm.perm (filters_insert_of_some hsome v).symm, hc⟩, ?_⟩
  rw [hsize, (filters_insert_of_some hsome v).length_eq]

/-- A pair is new. -/
theorem of_none {A : List Buffer → AList fun _ : K => V}
    (hm : Represents m' (topicFilterTokens f :: filters s) A)
    (hc : Contains A (s.insert (f, k) v)) (hnone : s.lookup (f, k) = none)
    (hsize : m'.mapSize = (filters s).length + 1) : Holds m' (s.insert (f, k) v) := by
  refine ⟨⟨A, by rw [filters_insert_of_none hnone]; exact hm, hc⟩, ?_⟩
  rw [hsize, filters_insert_of_none hnone]
  rfl

/-- `insert_or_assign` when the filter has an entry -/
theorem assign {qs : List (List Buffer)} (hm : Holds m s)
    (hf : (m.node (topicFilterTokens f)).isSome) (hqs : qs.Nodup)
    (hmem : ∀ q, q ∈ qs ↔ q ≠ [] ∧ q <+: topicFilterTokens f) (k : K) (v : V) :
    ∃ m₁, assignAt (m.keyAt (topicFilterTokens f)) k v m = ((s.lookup (f, k)).isNone, m₁) ∧
      WellFormed m₁ ∧ Extends m m₁ ∧
      if (s.lookup (f, k)).isNone then
        (∃ m', m₁.addCount (qs.map m.keyAt) = .ok m' ∧ Holds m' (s.insert (f, k) v) ∧
          m'.nextNodeId = m.nextNodeId ∧ Extends m m') ∨
        (m₁.addCount (qs.map m.keyAt) = .error .maxStoredTopics ∧
          CountStorage.max ≤ (filters s).length)
      else Holds m₁ (s.insert (f, k) v) ∧ m₁.nextNodeId = m.nextNodeId := by
  obtain ⟨A, hA, hc⟩ := hm.exists_represents
  obtain ⟨m₁, hassign, ⟨A', hA', hc'⟩, hsize, hnext, hext⟩ := assignAt_represents hA hc hf k v
  refine ⟨m₁, hassign, hA'.toWellFormed, hext, ?_⟩
  -- a new pair is counted at every level of the filter, an old one only changes its value
  split
  · next hnone =>
    have hkeys : qs.map m.keyAt = qs.map m₁.keyAt := by
      apply List.map_congr_left
      intro q hq
      exact (hext q (isSome_on_path ((hmem q).mp hq).2 hf)).2.symm
    rw [hkeys]
    rcases increase_represents hA' hqs hmem (hext _ hf).1 (hsize.trans hm.mapSize) with
      ⟨m', hok, hm', hsize', hnext', hext'⟩ | hmax
    · refine .inl ⟨m', hok, ?_, hnext'.trans hnext, hext.trans hext'⟩
      exact of_none hm' hc' (Option.isNone_iff_eq_none.mp hnone) hsize'
    · exact .inr hmax
  · next hsome =>
    refine ⟨of_some hA' hc' ?_ (hsize.trans hm.mapSize), hnext⟩
    simpa [Option.isSome_iff_ne_none] using hsome

/-- `insert_or_assign` with a topic filter -/
theorem insertOrAssign (hm : Holds m s) (f : Buffer) (k : K) (v : V) :
    (∃ h m', m.insertOrAssign f k v = .ok ((h, (s.lookup (f, k)).isNone), m') ∧
      Holds m' (s.insert (f, k) v) ∧ m'.lookup f = some h ∧
      m'.nextNodeId ≤ m.nextNodeId + (topicFilterTokens f).length ∧ Extends m m') ∨
    (m.insertOrAssign f k v = .error .maxStoredTopics ∧
      (sizeMax < m.nextNodeId + (topicFilterTokens f).length ∨
        CountStorage.max ≤ (filters s).length)) := by
  obtain ⟨A, hA, hc⟩ := hm.exists_represents
  have hlast := getLast?_findTopicFilter hA.toWellFormed f
  have hpath := findTopicFilter_eq hA.toWellFormed f
  unfold MultipleSubscriptionMap.insertOrAssign
  dsimp only
  rw [hlast]
  by_cases hf : (m.node (topicFilterTokens f)).isSome
  · rw [if_pos hf] at hpath ⊢
    rw [hpath]
    dsimp only
    obtain ⟨m₁, hassign, hwf, hext, hrest⟩ :=
      hm.assign hf (nodup_pathsAlong [] _) (fun q => mem_pathsAlong_nil) k v
    rw [hassign]
    cases hlookup : s.lookup (f, k) with
    | none =>
      rw [hlookup, Option.isNone_none, if_pos rfl] at hrest
      dsimp only [Option.isNone_none]
      rw [addCount_bind]
      rcases hrest with ⟨m', hok, hm', hnext, hext'⟩ | ⟨herror, hmax⟩
      · rw [hok]
        refine .inl ⟨m.keyAt (topicFilterTokens f), m', rfl, hm', ?_, by omega, hext'⟩
        exact hm'.lookup_iff.mpr ((hext' _ hf).imp_right Eq.symm)
      · rw [herror]
        exact .inr ⟨rfl, .inr hmax⟩
    | some v' =>
      rw [hlookup, Option.isNone_some, if_neg Bool.false_ne_true] at hrest
      dsimp only [Option.isNone_some]
      refine .inl ⟨_, m₁, rfl, hrest.1, ?_, by omega, hext⟩
      exact hrest.1.lookup_iff.mpr ((hext _ hf).imp_right Eq.symm)
  · rw [if_neg hf]
    dsimp only
    -- no key is held for a filter without an entry
    have hnone : s.lookup (f, k) = none := by
      rw [← hc.lookup, hA.unused _ (by simpa using hf)]
      rfl
    obtain ⟨e, he, hid⟩ := hA.node_root
    rw [hnone, createTopicFilter, ← hid]
    rcases hA.createLevels_root he (topicFilterTokens f) with
      ⟨path, m₁, hcreate, hm₁, hback, hsize, hnext, hext⟩ | ⟨herror, hlimit⟩
    · rw [hcreate]
      show (∃ h m', (do
        let m ← (assignAt (path.getLastD rootKey) k v m₁).2.increaseMapSize
        .ok ((path.getLastD rootKey, true), m)) = .ok ((h, true), m') ∧ _) ∨ ((do
        let m ← (assignAt (path.getLastD rootKey) k v m₁).2.increaseMapSize
        .ok ((path.getLastD rootKey, true), m)) = .error .maxStoredTopics ∧ _)
      rw [hback]
      have hf₁ : (m₁.node (topicFilterTokens f)).isSome :=
        hm₁.isSome_of_mem (List.mem_cons_self ..)
      obtain ⟨m₂, hassign, ⟨A', hA', hc'⟩, hsize₂, hnext₂, hext₂⟩ :=
        assignAt_represents hm₁ hc hf₁ k v
      rw [hassign]
      dsimp only
      unfold increaseMapSize
      by_cases hmax : m₂.mapSize = sizeMax
      · rw [if_pos hmax]
        refine .inr ⟨rfl, .inr ?_⟩
        rw [← hm.mapSize, ← hsize, ← hsize₂, hmax]
        decide
      · rw [if_neg hmax]
        have hholds : Holds { m₂ with mapSize := m₂.mapSize + 1 } (s.insert (f, k) v) := by
          refine of_none (hA'.setMapSize _) hc' hnone ?_
          show m₂.mapSize + 1 = _
          rw [hsize₂, hsize, hm.mapSize]
        refine .inl ⟨_, _, rfl, hholds, ?_, ?_, hext.trans hext₂⟩
        · exact hholds.lookup_iff.mpr ((hext₂ _ hf₁).imp_right Eq.symm)
        · exact hnext₂.trans_le hnext
    · rw [herror]
      exact .inr ⟨rfl, hlimit⟩

/-- `insert_or_assign` with a handle -/
theorem insertOrAssignHandle (hm : Holds m s) (hh : m.lookup f = some h) (k : K) (v : V) :
    (∃ m', m.insertOrAssignHandle h k v = .ok ((h, (s.lookup (f, k)).isNone), m') ∧
      Holds m' (s.insert (f, k) v) ∧ m'.nextNodeId = m.nextNodeId ∧ Extends m m') ∨
    (m.insertOrAssignHandle h k v = .error .maxStoredTopics ∧
      CountStorage.max ≤ (filters s).length) := by
  obtain ⟨A, hA, hc⟩ := hm.exists_represents
  obtain ⟨hf, rfl⟩ := hm.lookup_iff.mp hh
  obtain ⟨e, he⟩ := Option.isSome_iff_exists.mp hf
  obtain ⟨m₁, hassign, hwf, hext, hrest⟩ :=
    hm.assign hf (List.nodup_reverse.mpr (nodup_pathsAlong [] _))
      (fun q => List.mem_reverse.trans mem_pathsAlong_nil) k v
  unfold MultipleSubscriptionMap.insertOrAssignHandle
  rw [hA.lookup_keyAt he, Option.isNone_some, if_neg Bool.false_ne_true, hassign]
  obtain ⟨hf₁, hkey⟩ := hext _ hf
  -- the pair is new, or its value is replaced
  cases hlookup : s.lookup (f, k) with
  | none =>
    rw [hlookup, Option.isNone_none, if_pos rfl] at hrest
    dsimp only [Option.isNone_none]
    have hpath : m₁.handleToIterators (m.keyAt (topicFilterTokens f)) =
        .ok ((pathsAlong [] (topicFilterTokens f)).reverse.map m.keyAt) := by
      rw [← hkey, handleToIterators_keyAt hwf hf₁, Represents.map_keyAt_pathsAlong hext hf,
        List.map_reverse]
    rw [hpath, Except.ok_bind, addCount_bind]
    rcases hrest with ⟨m', hok, hm', hnext, hext'⟩ | ⟨herror, hmax⟩
    · rw [hok]
      exact .inl ⟨m', rfl, hm', hnext, hext'⟩
    · rw [herror]
      exact .inr ⟨rfl, hmax⟩
  | some v' =>
    rw [hlookup, Option.isNone_some, if_neg Bool.false_ne_true] at hrest
    exact .inl ⟨m₁, rfl, hrest.1, hrest.2, hext⟩

/-- What is not held has no value. -/
theorem default_of_notMem {S : List (List Buffer)} {A : List Buffer → AList fun _ : K => V}
    (hA : Represents m S A) (hc : Contains A s) (hS : ∀ g ∈ S, ∃ f, topicFilterTokens f = g)
    {q : List Buffer} (hq : q ∉ filters s) : A q = default := by
  by_cases hnil : q = []
  · rw [hnil, hc.nil]
    rfl
  · cases hnode : m.node q with
    | none => exact hA.unused q hnode
    | some e =>
      obtain ⟨g, hg, hpre⟩ := (hA.isSome q hnil).mp (by rw [hnode]; rfl)
      obtain ⟨f, rfl⟩ := hS g hg
      obtain ⟨f', rfl⟩ := exists_topicFilterTokens_on_path hnil hpre
      apply AList.eq_empty_of_lookup
      intro k
      rw [hc.lookup]
      cases hlookup : s.lookup (f', k) with
      | none => rfl
      | some v => exact absurd (mem_filters.mpr ⟨k, by rw [hlookup]; rfl⟩) hq

theorem exists_topicFilter {q : List Buffer} (hq : q ∈ filters s) :
    ∃ f, topicFilterTokens f = q := by
  obtain ⟨i, -, hi⟩ := List.mem_map.mp hq
  exact ⟨i.1, hi⟩

/-- A pair that is held is erased, and then the path to its filter. -/
theorem removeTopicFilter {m₁ : MultipleSubscriptionMap K V}
    {A : List Buffer → AList fun _ : K => V} (hsome : (s.lookup (f, k)).isSome)
    (hA : Represents m₁ (filters s) A) (hc : Contains A (s.erase (f, k))) :
    Represents (SubscriptionMapBase.removeTopicFilter
      ((pathsAlong [] (topicFilterTokens f)).map m₁.keyAt) m₁) (filters (s.erase (f, k))) A ∧
      Extends (SubscriptionMapBase.removeTopicFilter
        ((pathsAlong [] (topicFilterTokens f)).map m₁.keyAt) m₁) m₁ := by
  have hA' := hA.perm (filters_erase_of_some hsome)
  obtain ⟨e, he⟩ := Option.isSome_iff_exists.mp (hA'.isSome_of_mem (List.mem_cons_self ..))
  exact Represents.removeEntries hA'.toWellFormed he (hA'.clear_false he)
    fun q _ hq => default_of_notMem hA' hc
      (fun g hg => exists_topicFilter ((filters_erase_of_some hsome).mem_iff.mpr hg))
      fun hmem => hq ⟨q, hmem, List.prefix_refl q⟩

/-- The size when a pair goes -/
theorem mapSize_decrease {m₁ : MultipleSubscriptionMap K V} (hm : Holds m s)
    (hsome : (s.lookup (f, k)).isSome) (hsize : m₁.mapSize = m.mapSize) :
    m₁.decreaseMapSize.mapSize = (filters (s.erase (f, k))).length := by
  have hlen := (filters_erase_of_some hsome).length_eq
  rw [List.length_cons] at hlen
  apply mapSize_decreaseMapSize
  rw [hsize, hm.mapSize, hlen]

/-- `erase` with a topic filter -/
theorem erase (hm : Holds m s) (f : Buffer) (k : K) :
    (m.erase f k).1 = (if (s.lookup (f, k)).isSome then 1 else 0) ∧
      Holds (m.erase f k).2 (s.erase (f, k)) ∧ Extends (m.erase f k).2 m ∧
      (m.erase f k).2.nextNodeId = m.nextNodeId := by
  obtain ⟨A, hA, hc⟩ := hm.exists_represents
  have hlast := getLast?_findTopicFilter hA.toWellFormed f
  have hpath := findTopicFilter_eq hA.toWellFormed f
  unfold MultipleSubscriptionMap.erase
  dsimp only
  rw [hlast]
  by_cases hf : (m.node (topicFilterTokens f)).isSome
  · rw [if_pos hf] at hpath ⊢
    rw [hpath]
    dsimp only
    obtain ⟨m₁, herase, ⟨A', hA', hc'⟩, hsize, hnext, hext, hext'⟩ :=
      eraseAt_represents hA hc hf k
    rw [herase]
    -- the entry is erased before the counts are decreased, and only if there is one
    cases hlookup : s.lookup (f, k) with
    | none =>
      dsimp only [Option.isSome_none]
      refine ⟨(if_neg Bool.false_ne_true).symm, ⟨⟨A', ?_, hc'⟩, ?_⟩, hext', hnext⟩
      · rw [filters_erase_of_none hlookup]
        exact hA'
      · rw [filters_erase_of_none hlookup, hsize, hm.mapSize]
    | some v =>
      dsimp only [Option.isSome_some]
      have hsome : (s.lookup (f, k)).isSome := by rw [hlookup]; rfl
      -- the keys of the path have not changed
      have hkeys : (pathsAlong [] (topicFilterTokens f)).map m₁.keyAt =
          (pathsAlong [] (topicFilterTokens f)).map m.keyAt :=
        Represents.map_keyAt_pathsAlong hext hf
      have hframe := removeEntries_frame false false
        ((pathsAlong [] (topicFilterTokens f)).map m.keyAt).reverse m₁.decreaseMapSize
      obtain ⟨hrep, hext₂⟩ :=
        removeTopicFilter hsome (hA'.setMapSize m₁.decreaseMapSize.mapSize) hc'
      have hrep : Represents (SubscriptionMapBase.removeTopicFilter
          ((pathsAlong [] (topicFilterTokens f)).map m₁.keyAt) m₁.decreaseMapSize)
          (filters (s.erase (f, k))) A' := hrep
      have hext₂ : Extends (SubscriptionMapBase.removeTopicFilter
          ((pathsAlong [] (topicFilterTokens f)).map m₁.keyAt) m₁.decreaseMapSize) m₁ := hext₂
      rw [hkeys] at hrep hext₂
      refine ⟨(if_pos rfl).symm, ⟨⟨A', hrep, hc'⟩, ?_⟩, hext₂.trans hext', ?_⟩
      · rw [← hm.mapSize_decrease hsome hsize]
        exact hframe.1
      · exact hframe.2.trans hnext
  · rw [if_neg hf]
    -- no entry at the path means no value for the filter
    have hnone : s.lookup (f, k) = none := by
      rw [← hc.lookup, hA.unused _ (by simpa using hf)]
      rfl
    rw [hnone]
    refine ⟨(if_neg Bool.false_ne_true).symm, ⟨⟨A, ?_, ?_⟩, ?_⟩, .refl m, rfl⟩
    · rw [filters_erase_of_none hnone]
      exact hA
    · rw [AList.erase_of_none hnone]
      exact hc
    · rw [filters_erase_of_none hnone]
      exact hm.mapSize

/-- `erase` with a handle -/
theorem eraseHandle (hm : Holds m s) (hh : m.lookup f = some h) (k : K) :
    ∃ m', m.eraseHandle h k = .ok (if (s.lookup (f, k)).isSome then 1 else 0, m') ∧
      Holds m' (s.erase (f, k)) ∧ Extends m' m ∧ m'.nextNodeId = m.nextNodeId := by
  obtain ⟨A, hA, hc⟩ := hm.exists_represents
  obtain ⟨hf, rfl⟩ := hm.lookup_iff.mp hh
  obtain ⟨e, he⟩ := Option.isSome_iff_exists.mp hf
  obtain ⟨m₁, herase, ⟨A', hA', hc'⟩, hsize, hnext, hext, hext'⟩ :=
    eraseAt_represents hA hc hf k
  unfold MultipleSubscriptionMap.eraseHandle
  rw [hA.lookup_keyAt he, Option.isNone_some, if_neg Bool.false_ne_true, herase]
  -- the pair is not there, or the counts of its levels go down by one
  cases hlookup : s.lookup (f, k) with
  | none =>
    refine ⟨m₁, rfl, ⟨⟨A', ?_, hc'⟩, ?_⟩, hext', hnext⟩
    · rw [filters_erase_of_none hlookup]
      exact hA'
    · rw [filters_erase_of_none hlookup, hsize, hm.mapSize]
  | some v =>
    dsimp only [Option.isSome_some]
    have hsome : (s.lookup (f, k)).isSome := by rw [hlookup]; rfl
    obtain ⟨hf₁, hkey⟩ := hext _ hf
    have hpath : m₁.handleToIterators (m.keyAt (topicFilterTokens f)) =
        .ok ((pathsAlong [] (topicFilterTokens f)).map m₁.keyAt).reverse := by
      rw [← hkey]
      exact handleToIterators_keyAt hA'.toWellFormed hf₁
    obtain ⟨hrep, hext₂⟩ := removeTopicFilter hsome hA' hc'
    have hframe := removeEntries_frame false false
      ((pathsAlong [] (topicFilterTokens f)).map m₁.keyAt).reverse m₁
    rw [hpath, Except.ok_bind, List.reverse_reverse]
    refine ⟨_, rfl, ⟨⟨A', hrep.setMapSize _, hc'⟩, ?_⟩, hext₂.trans hext',
      hframe.2.trans hnext⟩
    exact hm.mapSize_decrease hsome (hframe.1.trans hsize)

/-- What has a value is a filter. -/
theorem exists_filter {A : List Buffer → AList fun _ : K => V}
    (hA : Represents m (filters s) A) (hc : Contains A s) {p : List Buffer}
    (hlookup : (A p).lookup k = some v) :
    ∃ f, p = topicFilterTokens f ∧ s.lookup (f, k) = some v := by
  obtain ⟨f, rfl⟩ : ∃ f, topicFilterTokens f = p := by
    by_contra hnot
    have hdefault := default_of_notMem hA hc (fun g => exists_topicFilter) fun hmem =>
      hnot (exists_topicFilter hmem)
    rw [hdefault] at hlookup
    exact nomatch hlookup
  rw [hc.lookup] at hlookup
  exact ⟨f, rfl, hlookup⟩

theorem find_eq {A : List Buffer → AList fun _ : K => V} (hA : Represents m (filters s) A)
    (topic : Buffer) :
    m.find topic = (m.foundPaths (topicFilterTokens topic)).flatMap fun p =>
      (A p).entries.map fun i => (i.1, i.2) := by
  unfold MultipleSubscriptionMap.find
  rw [hA.findMatch_eq, List.flatMap_map]

/-- `find` calls back the pairs whose filter matches, and perhaps one of them more than once if the
    topic has wildcards. -/
theorem mem_find (hm : Holds m s) {topic : Buffer} :
    (k, v) ∈ m.find topic ↔ ∃ f, s.lookup (f, k) = some v ∧ topicFilterMatches false f topic := by
  obtain ⟨A, hA, hc⟩ := hm.exists_represents
  rw [find_eq hA, List.mem_flatMap]
  constructor
  · rintro ⟨p, hp, hkv⟩
    obtain ⟨i, hi, heq⟩ := List.mem_map.mp hkv
    obtain ⟨rfl, rfl⟩ := Prod.mk.inj heq
    obtain ⟨-, -, hmatch⟩ := mem_foundPaths.mp hp
    obtain ⟨f, rfl, hlookup⟩ := exists_filter hA hc (AList.mem_lookup_iff.mpr hi)
    exact ⟨f, hlookup, hmatch⟩
  · rintro ⟨f, hlookup, hmatch⟩
    have hhas := hA.isSome_of_mem (mem_filters.mpr ⟨k, by rw [hlookup]; rfl⟩)
    refine ⟨topicFilterTokens f, ?_, ?_⟩
    · exact mem_foundPaths.mpr ⟨topicFilterTokens_ne_nil topic, hhas, hmatch⟩
    · rw [← hc.lookup] at hlookup
      exact List.mem_map.mpr ⟨⟨k, v⟩, AList.mem_lookup_iff.mp hlookup, rfl⟩

/-- `find` calls back once for each pair whose filter matches. -/
theorem perm_find (hm : Holds m s) {topic : Buffer}
    (hts : NoWildcards (topicFilterTokens topic)) :
    (m.find topic).Perm ((s.entries.filter fun i => topicFilterMatches false i.1.1 topic).map
      fun i => (i.1.2, i.2)) := by
  obtain ⟨A, hA, hc⟩ := hm.exists_represents
  -- the pairs with the levels of their filters
  let found := (m.foundPaths (topicFilterTokens topic)).flatMap fun p =>
    (A p).entries.map fun i => (p, i.1, i.2)
  let stored := (s.entries.filter fun i => topicFilterMatches false i.1.1 topic).map
    fun i => (topicFilterTokens i.1.1, i.1.2, i.2)
  have hfound : m.find topic = found.map fun i => i.2 := by
    rw [find_eq hA, List.map_flatMap]
    congr 1
    funext p
    rw [List.map_map]
    rfl
  have hstored : (s.entries.filter fun i => topicFilterMatches false i.1.1 topic).map
      (fun i => (i.1.2, i.2)) = stored.map fun i => i.2 := by
    rw [List.map_map]
    rfl
  have hnodup : found.Nodup := by
    rw [List.nodup_flatMap]
    constructor
    · intro p _
      refine List.Nodup.map (fun i j heq => ?_) (A p).nodupKeys.nodup
      obtain ⟨k, v⟩ := i
      obtain ⟨k', v'⟩ := j
      simpa using heq
    · refine (nodup_foundPaths hts).imp_of_mem fun {p q} _ _ hne => ?_
      intro i hi hi'
      obtain ⟨_, -, rfl⟩ := List.mem_map.mp hi
      obtain ⟨_, -, heq⟩ := List.mem_map.mp hi'
      exact hne (Prod.mk.inj heq).1.symm
  have hnodup' : stored.Nodup := by
    refine List.Nodup.map (fun i j heq => ?_) (s.nodupKeys.nodup.filter _)
    obtain ⟨⟨f, k⟩, v⟩ := i
    obtain ⟨⟨f', k'⟩, v'⟩ := j
    obtain ⟨hf, hkv⟩ := Prod.mk.inj heq
    obtain ⟨rfl, rfl⟩ := Prod.mk.inj hkv
    obtain rfl := topicFilterTokens_injective hf
    rfl
  rw [hfound, hstored]
  refine ((List.perm_ext_iff_of_nodup hnodup hnodup').mpr ?_).map _
  rintro ⟨p, k, v⟩
  constructor
  · intro hmem
    obtain ⟨p', hp, hi⟩ := List.mem_flatMap.mp hmem
    obtain ⟨i, hentry, heq⟩ := List.mem_map.mp hi
    obtain ⟨rfl, hkv⟩ := Prod.mk.inj heq
    obtain ⟨rfl, rfl⟩ := Prod.mk.inj hkv
    obtain ⟨-, -, hmatch⟩ := mem_foundPaths.mp hp
    obtain ⟨f, rfl, hlookup⟩ := exists_filter hA hc (AList.mem_lookup_iff.mpr hentry)
    refine List.mem_map.mpr ⟨⟨(f, i.1), i.2⟩, List.mem_filter.mpr ⟨?_, hmatch⟩, rfl⟩
    exact AList.mem_lookup_iff.mp hlookup
  · intro hmem
    obtain ⟨⟨⟨f, k'⟩, v'⟩, hi, heq⟩ := List.mem_map.mp hmem
    obtain ⟨rfl, hkv⟩ := Prod.mk.inj heq
    obtain ⟨rfl, rfl⟩ := Prod.mk.inj hkv
    obtain ⟨hi, hmatch⟩ := List.mem_filter.mp hi
    have hlookup : s.lookup (f, k') = some v' := AList.mem_lookup_iff.mpr hi
    have hhas := hA.isSome_of_mem (mem_filters.mpr ⟨k', by rw [hlookup]; rfl⟩)
    refine List.mem_flatMap.mpr ⟨topicFilterTokens f, ?_, ?_⟩
    · exact mem_foundPaths.mpr ⟨topicFilterTokens_ne_nil topic, hhas, hmatch⟩
    · rw [← hc.lookup] at hlookup
      exact List.mem_map.mpr ⟨⟨k', v'⟩, AList.mem_lookup_iff.mp hlookup, rfl⟩

/-- There is a node for each prefix, and the root. -/
theorem internalSize_eq (hm : Holds m s) : m.internalSize = 1 + (prefixes (filters s)).length := by
  obtain ⟨A, hA, hc⟩ := hm.exists_represents
  have hsome : ∀ q ∈ [] :: prefixes (filters s), (m.node q).isSome := by
    intro q hq
    rcases List.mem_cons.mp hq with rfl | hq
    · rfl
    · obtain ⟨hnil, hf⟩ := mem_prefixes.mp hq
      exact (hA.isSome q hnil).mpr hf
  have hnodup : ([] :: prefixes (filters s)).Nodup :=
    List.nodup_cons.mpr ⟨fun hmem => (mem_prefixes.mp hmem).1 rfl, nodup_prefixes _⟩
  have hkeys : (([] :: prefixes (filters s)).map m.keyAt).Nodup :=
    hnodup.map_on fun p hp q hq => hA.keyAt_inj (hsome p hp) (hsome q hq)
  -- the keys of the map are the root's and those of the beginnings of the filters
  have hperm : m.map.keys.Perm (([] :: prefixes (filters s)).map m.keyAt) := by
    rw [List.perm_ext_iff_of_nodup m.map.keys_nodup hkeys]
    intro key
    rw [← AList.mem_keys, ← AList.lookup_isSome, List.mem_map]
    constructor
    · intro hkey
      obtain ⟨e, he⟩ := Option.isSome_iff_exists.mp hkey
      obtain ⟨q, hq, rfl⟩ := hA.exists_path he
      refine ⟨q, ?_, rfl⟩
      by_cases hnil : q = []
      · exact hnil ▸ List.mem_cons_self ..
      · have hf := (hA.isSome q hnil).mp (by rw [hq]; rfl)
        exact List.mem_cons_of_mem _ (mem_prefixes.mpr ⟨hnil, hf⟩)
    · rintro ⟨q, hq, rfl⟩
      obtain ⟨e, he⟩ := Option.isSome_iff_exists.mp (hsome q hq)
      rw [hA.lookup_keyAt he]
      rfl
  have hlen := hperm.length_eq
  rw [List.length_map, List.length_cons, AList.length_keys] at hlen
  rw [internalSize, hlen, Nat.add_comm]

/-- The size is the number of pairs. -/
theorem size_eq (hm : Holds m s) : m.size = s.entries.length := by
  rw [size, hm.mapSize, filters, List.length_map, AList.length_keys]

end Holds

end MultipleSubscriptionMap

end AsyncMqtt
