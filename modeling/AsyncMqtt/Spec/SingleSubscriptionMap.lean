import AsyncMqtt.ForStd.AList
import AsyncMqtt.Spec.SubscriptionFind

/-!
# The subscription map with single values

A `single_subscription_map` holds a finite map from filters to values as long as no filter is inserted
onto the entry of one that it begins, or erased from there: an insertion there counts nothing, and an
erasure leaves the value.

## Key results

- `SingleSubscriptionMap.Holds.insert_new`, `SingleSubscriptionMap.Holds.removed`: one call
- `SingleSubscriptionMap.Holds.insert_inner`, `SingleSubscriptionMap.Holds.removed_inner`: a filter
  that begins another one
- `SingleSubscriptionMap.Holds.perm_find`: what is called back for a topic
-/

namespace AsyncMqtt

namespace SingleSubscriptionMap

open SubscriptionMapBase
open FlatTree (pathsAlong pathsAlong_snoc)

/-- The finite map, with the handle that `insert` has returned for each filter -/
abbrev Stored (V : Type) := AList fun _ : Buffer => PathEntryKey × V

variable {V : Type} {m m' : SingleSubscriptionMap V} {s s' : Stored V} {f g : Buffer} {v w : V}
  {h : PathEntryKey} {A : List Buffer → Option V} {q : List Buffer}

/-- The filter begins another stored one. -/
def Begins (s : Stored V) (f : Buffer) : Prop :=
  ∃ g ∈ s.keys, g ≠ f ∧ topicFilterTokens f <+: topicFilterTokens g

theorem isSome_of_eq {i : PathEntryKey × V} (hf : s.lookup f = some i) : (s.lookup f).isSome :=
  Option.isSome_iff_exists.mpr ⟨i, hf⟩

/-- What a filter begins -/
theorem exists_keyLevels_iff :
    (∃ ts ∈ keyLevels s, topicFilterTokens f <+: ts) ↔ (s.lookup f).isSome ∨ Begins s f := by
  constructor
  · rintro ⟨ts, hts, hpre⟩
    obtain ⟨g, hg, rfl⟩ := List.mem_map.mp hts
    by_cases heq : g = f
    · subst heq
      exact .inl (mem_keyLevels.mp hts)
    · exact .inr ⟨g, hg, heq, hpre⟩
  · rintro (hsome | ⟨g, hg, -, hpre⟩)
    · exact ⟨_, mem_keyLevels.mpr hsome, List.prefix_refl _⟩
    · exact ⟨_, List.mem_map_of_mem hg, hpre⟩

theorem exists_topicFilter {ts : List Buffer} (hts : ts ∈ keyLevels s) :
    ∃ f, topicFilterTokens f = ts :=
  (exists_of_mem_keyLevels hts).imp fun _ => And.right

/-- What is left when a filter is erased that begins others -/
theorem exists_keyLevels_erase :
    (∃ ts ∈ keyLevels (s.erase f), topicFilterTokens f <+: ts) ↔ Begins s f := by
  rw [exists_keyLevels_iff, AList.lookup_erase]
  constructor
  · rintro (hnone | ⟨g, hg, hne, hpre⟩)
    · exact nomatch hnone
    · exact ⟨g, (AList.mem_erase.mp hg).2, hne, hpre⟩
  · intro ⟨g, hg, hne, hpre⟩
    exact .inr ⟨g, AList.mem_erase.mpr ⟨hne, hg⟩, hne, hpre⟩

/-! ### The values of the entries -/

/-- The values along the paths are those of the finite map. -/
structure Contains (A : List Buffer → Option V) (s : Stored V) : Prop where
  lookup : ∀ f, A (topicFilterTokens f) = (s.lookup f).map Prod.snd
  nil : A [] = none

namespace Contains

theorem update {o : Option V} (hA : Contains A s) (hself : (s'.lookup f).map Prod.snd = o)
    (hne : ∀ g, g ≠ f → s'.lookup g = s.lookup g) :
    Contains (Function.update A (topicFilterTokens f) o) s' := by
  constructor
  · intro g
    by_cases hg : g = f
    · rw [hg, Function.update_self, hself]
    · rw [Function.update_of_ne (topicFilterTokens_injective.ne hg), hne g hg, hA.lookup]
  · rw [Function.update_of_ne (topicFilterTokens_ne_nil f).symm, hA.nil]

theorem insert (hA : Contains A s) (f : Buffer) (i : PathEntryKey × V) :
    Contains (Function.update A (topicFilterTokens f) (some i.2)) (s.insert f i) :=
  hA.update (by rw [AList.lookup_insert]; rfl) fun _ hg => AList.lookup_insert_ne hg

theorem erase (hA : Contains A s) (f : Buffer) :
    Contains (Function.update A (topicFilterTokens f) none) (s.erase f) :=
  hA.update (by rw [AList.lookup_erase]; rfl) fun _ hg => AList.lookup_erase_ne hg

/-- What has a value is a stored filter. -/
theorem exists_filter {S : List (List Buffer)} (hA : Contains A s) (hm : Represents m S A)
    (hS : ∀ ts ∈ S, ∃ f, topicFilterTokens f = ts) (hq : A q = some v) :
    ∃ f h, q = topicFilterTokens f ∧ s.lookup f = some (h, v) := by
  have hnil : q ≠ [] := by
    rintro rfl
    exact nomatch hA.nil.symm.trans hq
  have hnode : (m.node q).isSome := by
    by_contra hnone
    rw [hm.unused q (by simpa using hnone)] at hq
    exact nomatch hq
  obtain ⟨ts, hts, hpre⟩ := (hm.isSome q hnil).mp hnode
  obtain ⟨g, rfl⟩ := hS ts hts
  obtain ⟨f, rfl⟩ := exists_topicFilterTokens_on_path hnil hpre
  rw [hA.lookup] at hq
  obtain ⟨⟨h, v⟩, hlookup, rfl⟩ := Option.map_eq_some_iff.mp hq
  exact ⟨f, h, rfl, hlookup⟩

end Contains

/-! ### One call -/

/-- The map holds the finite map. -/
structure Holds (m : SingleSubscriptionMap V) (s : Stored V) : Prop where
  exists_represents : ∃ A, Represents m (keyLevels s) A ∧ Contains A s
  handle : ∀ f h v, s.lookup f = some (h, v) → m.keyAt (topicFilterTokens f) = h
  mapSize : m.mapSize = (keyLevels s).length

/-- The value of an entry is another one. -/
def setValue (o : Option V) (entry : PathEntry (Option V)) : PathEntry (Option V) :=
  { entry with value := o }

theorem setValue_represents {S : List (List Buffer)} (hm : Represents m S A)
    (hq : (m.node q).isSome) (o : Option V) :
    Represents (m.modify (m.keyAt q) (setValue o)) S (Function.update A q o) ∧
      Extends m (m.modify (m.keyAt q) (setValue o)) ∧
      Extends (m.modify (m.keyAt q) (setValue o)) m := by
  obtain ⟨e, he⟩ := Option.isSome_iff_exists.mp hq
  refine ⟨hm.modifyValue (g := fun _ => o) he, ?_⟩
  exact Extends.modify hm.toWellFormed he (f := setValue o) fun _ => rfl

/-- The value of an entry is assigned. -/
theorem emplaceAt_represents {S : List (List Buffer)} (hm : Represents m S A)
    (hq : (m.node q).isSome) (v : V) :
    Represents (emplaceAt (m.keyAt q) v m) S (Function.update A q (some v)) ∧
      Extends m (emplaceAt (m.keyAt q) v m) ∧
      (emplaceAt (m.keyAt q) v m).mapSize = m.mapSize ∧
      (emplaceAt (m.keyAt q) v m).nextNodeId = m.nextNodeId := by
  obtain ⟨hm', hext, -⟩ := setValue_represents hm hq (some v)
  exact ⟨hm', hext, modify_mapSize _, modify_nextNodeId _⟩

theorem hasValue_keyAt {S : List (List Buffer)} (hm : Represents m S A) (hq : (m.node q).isSome) :
    m.hasValue (m.keyAt q) = (A q).isSome := by
  obtain ⟨e, he⟩ := Option.isSome_iff_exists.mp hq
  unfold hasValue
  rw [hm.lookup_keyAt he, Option.any_some, hm.value q e he]

namespace Holds

/-- A new map -/
theorem make : Holds (make : SingleSubscriptionMap V) ∅ :=
  ⟨⟨_, Represents.make, fun _ => rfl, rfl⟩, nofun, rfl⟩

theorem isSome_node (hm : Holds m s) :
    (m.node (topicFilterTokens f)).isSome ↔ (s.lookup f).isSome ∨ Begins s f := by
  obtain ⟨A, hA, -⟩ := hm.exists_represents
  rw [hA.isSome _ (topicFilterTokens_ne_nil f), exists_keyLevels_iff]

theorem isSome_node_of_eq {i : PathEntryKey × V} (hm : Holds m s) (hf : s.lookup f = some i) :
    (m.node (topicFilterTokens f)).isSome :=
  hm.isSome_node.mpr (.inl (isSome_of_eq hf))

/-- The handles stay when the map grows. -/
theorem handle_of_extends (hm : Holds m s) (hext : Extends m m') (hf : s.lookup f = some (h, v)) :
    m'.keyAt (topicFilterTokens f) = h := by
  rw [(hext _ (hm.isSome_node_of_eq hf)).2, hm.handle f h v hf]

/-- The path of a filter ends at its entry. -/
theorem getLast?_find (hm : Holds m s) (f : Buffer) :
    (m.findTopicFilter f).getLast? =
      if (m.node (topicFilterTokens f)).isSome then some (m.keyAt (topicFilterTokens f))
      else none := by
  obtain ⟨A, hA, -⟩ := hm.exists_represents
  exact getLast?_findTopicFilter hA.toWellFormed f

/-- The handle of a stored filter is valid. -/
theorem lookup_handle (hm : Holds m s) (hf : s.lookup f = some (h, v)) : m.lookup f = some h := by
  rw [SubscriptionMapBase.lookup, hm.getLast?_find, if_pos (hm.isSome_node_of_eq hf),
    hm.handle f h v hf]

/-- A stored filter gets another value. -/
theorem emplace (hm : Holds m s) (hf : s.lookup f = some (h, w)) (v : V) :
    Holds (emplaceAt h v m) (s.insert f (h, v)) ∧
      (emplaceAt h v m).nextNodeId = m.nextNodeId := by
  have hnode := hm.isSome_node_of_eq hf
  obtain ⟨A, hA, hc⟩ := hm.exists_represents
  obtain ⟨hA', hext, hsize, hnext⟩ := emplaceAt_represents hA hnode v
  rw [hm.handle f h w hf] at hA' hext hsize hnext
  have hperm := perm_keyLevels_insert (isSome_of_eq hf) (h, v)
  refine ⟨⟨⟨_, hA'.perm hperm.symm, hc.insert f (h, v)⟩, ?_, ?_⟩, hnext⟩
  · intro g h' v' hg
    by_cases heq : g = f
    · subst heq
      rw [AList.lookup_insert] at hg
      obtain ⟨rfl, -⟩ := Prod.mk.inj (Option.some.inj hg)
      exact hm.handle_of_extends hext hf
    · rw [AList.lookup_insert_ne heq] at hg
      exact hm.handle_of_extends hext hg
  · rw [hsize, hm.mapSize, hperm.length_eq]

/-- `insert` of a stored filter -/
theorem insert_old (hm : Holds m s) (hf : s.lookup f = some (h, w)) (v : V) :
    m.insert f v = .ok ((h, false), m) := by
  have hnode := hm.isSome_node_of_eq hf
  obtain ⟨A, hA, hc⟩ := hm.exists_represents
  have hvalue : m.hasValue (m.keyAt (topicFilterTokens f)) = true := by
    rw [hasValue_keyAt hA hnode, hc.lookup, hf]
    rfl
  unfold SingleSubscriptionMap.insert
  dsimp only
  rw [hm.getLast?_find, if_pos hnode]
  dsimp only
  rw [if_pos hvalue, hm.handle f h w hf]

/-- `insert` of a filter that has an entry but no value: nothing is counted. -/
theorem insert_inner (hm : Holds m s) (hnone : s.lookup f = none) (hf : Begins s f) (v : V) :
    m.insert f v = .ok ((m.keyAt (topicFilterTokens f), true),
      emplaceAt (m.keyAt (topicFilterTokens f)) v m) := by
  have hnode := hm.isSome_node.mpr (.inr hf)
  obtain ⟨A, hA, hc⟩ := hm.exists_represents
  have hvalue : ¬ m.hasValue (m.keyAt (topicFilterTokens f)) = true := by
    rw [hasValue_keyAt hA hnode, hc.lookup, hnone]
    exact Bool.false_ne_true
  unfold SingleSubscriptionMap.insert
  dsimp only
  rw [hm.getLast?_find, if_pos hnode]
  dsimp only
  rw [if_neg hvalue]

/-- `insert` of a filter without an entry -/
theorem insert_new (hm : Holds m s) (hnone : s.lookup f = none) (hf : ¬ Begins s f) (v : V) :
    (∃ h m', m.insert f v = .ok ((h, true), m') ∧ Holds m' (s.insert f (h, v)) ∧
      m'.nextNodeId ≤ m.nextNodeId + (topicFilterTokens f).length) ∨
    (m.insert f v = .error .maxStoredTopics ∧
      (sizeMax < m.nextNodeId + (topicFilterTokens f).length ∨
        CountStorage.max ≤ (keyLevels s).length)) := by
  obtain ⟨A, hA, hc⟩ := hm.exists_represents
  -- neither the filter nor one that goes on below it is there, so its path has no entry
  have hnode : ¬ (m.node (topicFilterTokens f)).isSome := by
    rw [hm.isSome_node, hnone]
    rintro (hsome | hbegins)
    · exact nomatch hsome
    · exact hf hbegins
  obtain ⟨e, he, hid⟩ := hA.node_root
  unfold SingleSubscriptionMap.insert
  dsimp only
  rw [hm.getLast?_find, if_neg hnode]
  dsimp only
  rw [createTopicFilter, ← hid]
  rcases hA.createLevels_root he (topicFilterTokens f) with
    ⟨path, m₁, hcreate, hm₁, hback, hsize, hnext, hext⟩ | ⟨herror, hlimit⟩
  · rw [hcreate, Except.ok_bind]
    dsimp only
    have hnode₁ := hm₁.isSome_of_mem (List.mem_cons_self ..)
    obtain ⟨hA', hext', hsize', hnext'⟩ := emplaceAt_represents hm₁ hnode₁ v
    rw [hback]
    unfold increaseMapSize
    -- the levels are there, but the count of values is at its maximum
    split
    · next hmax =>
      refine .inr ⟨rfl, .inr ?_⟩
      rw [← hm.mapSize, ← hsize, ← hsize', hmax]
      decide
    · refine .inl ⟨m₁.keyAt (topicFilterTokens f), _, rfl, ?_, hnext'.trans_le hnext⟩
      refine ⟨⟨_, ?_, hc.insert f (m₁.keyAt (topicFilterTokens f), v)⟩, ?_, ?_⟩
      · rw [keyLevels_insert_of_none hnone]
        exact hA'.setMapSize _
      · intro g h' v' hg
        show (emplaceAt (m₁.keyAt (topicFilterTokens f)) v m₁).keyAt (topicFilterTokens g) = h'
        -- the handle of the new filter is the key of its path, the others keep theirs
        by_cases heq : g = f
        · subst heq
          rw [AList.lookup_insert] at hg
          obtain ⟨rfl, -⟩ := Prod.mk.inj (Option.some.inj hg)
          exact (hext' _ hnode₁).2
        · rw [AList.lookup_insert_ne heq] at hg
          exact hm.handle_of_extends (hext.trans hext') hg
      · show (emplaceAt (m₁.keyAt (topicFilterTokens f)) v m₁).mapSize + 1 = _
        rw [hsize', hsize, hm.mapSize, keyLevels_insert_of_none hnone]
        rfl
  · rw [herror]
    exact .inr ⟨rfl, hlimit⟩

end Holds

/-! ### Erasures -/

/-- What is left when the path of a filter is taken away -/
def removed (m : SingleSubscriptionMap V) (f : Buffer) : SingleSubscriptionMap V :=
  (m.removeTopicFilter ((pathsAlong [] (topicFilterTokens f)).map m.keyAt)).decreaseMapSize

theorem erasePath_eq {S : List (List Buffer)} (hm : Represents m S A)
    (hf : (m.node (topicFilterTokens f)).isSome) :
    m.erasePath ((pathsAlong [] (topicFilterTokens f)).map m.keyAt) =
      if (A (topicFilterTokens f)).isSome then (1, m.removed f) else (0, m) := by
  have hlast := getLast?_findTopicFilter hm.toWellFormed f
  rw [findTopicFilter_eq hm.toWellFormed, if_pos hf, if_pos hf] at hlast
  unfold erasePath
  rw [hlast]
  dsimp only
  rw [hasValue_keyAt hm hf]
  rfl

/-- `erase` with a topic filter -/
theorem erase_eq {S : List (List Buffer)} (hm : Represents m S A) (f : Buffer) :
    m.erase f = if (A (topicFilterTokens f)).isSome then (1, m.removed f) else (0, m) := by
  unfold SingleSubscriptionMap.erase
  rw [findTopicFilter_eq hm.toWellFormed]
  split
  · next hf => exact erasePath_eq hm hf
  · next hf =>
    rw [hm.unused _ (by simpa using hf)]
    rfl

namespace Holds

theorem erase_eq (hm : Holds m s) (f : Buffer) :
    m.erase f = if (s.lookup f).isSome then (1, m.removed f) else (0, m) := by
  obtain ⟨A, hA, hc⟩ := hm.exists_represents
  rw [SingleSubscriptionMap.erase_eq hA, hc.lookup, Option.isSome_map]

/-- `erase` with a handle -/
theorem eraseHandle_eq (hm : Holds m s) (hf : s.lookup f = some (h, v)) :
    m.eraseHandle h = .ok (1, m.removed f) := by
  have hnode := hm.isSome_node_of_eq hf
  obtain ⟨A, hA, hc⟩ := hm.exists_represents
  have hvalue : (A (topicFilterTokens f)).isSome := by
    rw [hc.lookup, hf]
    rfl
  unfold SingleSubscriptionMap.eraseHandle
  rw [← hm.handle f h v hf, handleToIterators_keyAt hA.toWellFormed hnode, Except.ok_bind,
    List.reverse_reverse, erasePath_eq hA hnode, if_pos hvalue]

/-- The path of a stored filter is counted down, perhaps in a map with other values. -/
theorem represents_removed {m₁ : SingleSubscriptionMap V} (hm : Holds m s)
    (hsome : (s.lookup f).isSome) (hA : Represents m₁ (keyLevels s) A) (hext : Extends m₁ m)
    (hremove : m₁.removeTopicFilter ((pathsAlong [] (topicFilterTokens f)).map m₁.keyAt) =
      m.removeTopicFilter ((pathsAlong [] (topicFilterTokens f)).map m.keyAt))
    (hdefault : ∀ q, q <+: topicFilterTokens f →
      (¬ ∃ ts ∈ keyLevels (s.erase f), q <+: ts) → A q = none) :
    Represents (m.removed f) (keyLevels (s.erase f)) A ∧ Extends (m.removed f) m ∧
      (m.removed f).mapSize = (keyLevels (s.erase f)).length ∧
      (m.removed f).nextNodeId = m.nextNodeId := by
  have hperm := perm_keyLevels_erase hsome
  have hA₁ := hA.perm hperm
  obtain ⟨e₁, he₁⟩ := Option.isSome_iff_exists.mp (hA₁.isSome_of_mem (List.mem_cons_self ..))
  obtain ⟨hrep, hext₁⟩ :=
    Represents.removeEntries hA₁.toWellFormed he₁ (hA₁.clear_false he₁) hdefault
  have hrep : Represents (m₁.removeTopicFilter
      ((pathsAlong [] (topicFilterTokens f)).map m₁.keyAt)) (keyLevels (s.erase f)) A := hrep
  have hext₁ : Extends (m₁.removeTopicFilter
      ((pathsAlong [] (topicFilterTokens f)).map m₁.keyAt)) m₁ := hext₁
  rw [hremove] at hrep hext₁
  have hframe := removeEntries_frame false false
    ((pathsAlong [] (topicFilterTokens f)).map m.keyAt).reverse m
  refine ⟨hrep.setMapSize _, hext₁.trans hext, ?_, hframe.2⟩
  apply mapSize_decreaseMapSize
  have hlen := hperm.length_eq
  rw [← hm.mapSize, List.length_cons] at hlen
  exact hframe.1.trans hlen

/-- The last filter at its entry goes with its value. -/
theorem removed (hm : Holds m s) (hf : s.lookup f = some (h, v)) (hlast : ¬ Begins s f) :
    Holds (m.removed f) (s.erase f) ∧ (m.removed f).nextNodeId = m.nextNodeId := by
  have hsome := isSome_of_eq hf
  have hnode := hm.isSome_node_of_eq hf
  obtain ⟨A, hA, hc⟩ := hm.exists_represents
  obtain ⟨e, he⟩ := Option.isSome_iff_exists.mp hnode
  have hcount : e.count.value = 1 := by
    rw [(hA.perm (perm_keyLevels_erase hsome)).count _ e (topicFilterTokens_ne_nil f) he,
      List.countP_cons_of_pos (by simp), List.countP_eq_zero.mpr]
    intro ts hts hpre
    exact hlast (exists_keyLevels_erase.mp ⟨ts, hts, of_decide_eq_true hpre⟩)
  -- the value can be taken away before, since the entry goes
  let m₁ := m.modify (m.keyAt (topicFilterTokens f)) (setValue none)
  obtain ⟨hA₁, hext, hext'⟩ := setValue_represents hA hnode none
  have hc₁ := hc.erase f
  have hremove : m₁.removeTopicFilter ((pathsAlong [] (topicFilterTokens f)).map m₁.keyAt) =
      m.removeTopicFilter ((pathsAlong [] (topicFilterTokens f)).map m.keyAt) := by
    obtain ⟨p, t, hpt⟩ := (List.eq_nil_or_concat' (topicFilterTokens f)).resolve_left
      (topicFilterTokens_ne_nil f)
    rw [Represents.map_keyAt_pathsAlong hext hnode]
    unfold SubscriptionMapBase.removeTopicFilter
    rw [hpt, pathsAlong_snoc, List.map_append, List.reverse_append]
    show removeEntries false false (m.keyAt ([] ++ (p ++ [t])) :: _) m₁ = _
    rw [List.nil_append, ← hpt]
    exact removeEntries_modify (hA.lookup_keyAt he) hcount fun _ => rfl
  obtain ⟨hrep, hext₂, hsize, hnext⟩ := hm.represents_removed hsome hA₁ hext' hremove
    fun q _ hnot => by
      cases hvalue : Function.update A (topicFilterTokens f) none q with
      | none => rfl
      | some w =>
        obtain ⟨g, h', rfl, hg⟩ := hc₁.exists_filter hA₁ (fun ts => exists_topicFilter) hvalue
        have hgsome := isSome_of_eq hg
        exact absurd ⟨_, mem_keyLevels.mpr hgsome, List.prefix_refl _⟩ hnot
  refine ⟨⟨⟨_, hrep, hc₁⟩, fun g h' v' hg => ?_, hsize⟩, hnext⟩
  have hgsome := isSome_of_eq hg
  have hgf : g ≠ f := by
    rintro rfl
    exact nomatch (AList.lookup_erase g s).symm.trans hg
  rw [AList.lookup_erase_ne hgf] at hg
  rw [← hm.handle g h' v' hg]
  exact (hext₂ _ (hrep.isSome_of_mem (mem_keyLevels.mpr hgsome))).2.symm

/-- A filter that begins another stored one keeps its value. -/
theorem removed_inner (hm : Holds m s) (hf : s.lookup f = some (h, v)) (hinner : Begins s f) :
    ∃ A, Represents (m.removed f) (keyLevels (s.erase f)) A ∧ A (topicFilterTokens f) = some v := by
  obtain ⟨A, hA, hc⟩ := hm.exists_represents
  obtain ⟨hrep, -⟩ := hm.represents_removed (isSome_of_eq hf) hA (.refl m) rfl fun q hq hnot => by
    obtain ⟨ts, hts, hpre⟩ := exists_keyLevels_erase.mpr hinner
    exact absurd ⟨ts, hts, hq.trans hpre⟩ hnot
  exact ⟨A, hrep, by rw [hc.lookup, hf]; rfl⟩

/-- The size is the number of filters. -/
theorem size_eq (hm : Holds m s) : m.size = s.entries.length := by
  rw [size, hm.mapSize, length_keyLevels]

/-- `find` calls back once for each filter that matches. -/
theorem perm_find (hm : Holds m s) {topic : Buffer}
    (hts : NoWildcards (topicFilterTokens topic)) :
    (m.find topic).Perm ((s.entries.filter fun i => topicFilterMatches false i.1 topic).map
      fun i => i.2.2) := by
  obtain ⟨A, hA, hc⟩ := hm.exists_represents
  have hfind : m.find topic = (m.foundPaths (topicFilterTokens topic)).filterMap A := by
    unfold find
    rw [hA.findMatch_eq, List.filterMap_map]
    apply List.filterMap_congr
    intro q _
    rw [Function.comp_apply]
    cases A q <;> rfl
  rw [hfind]
  -- the filters that are found are those that match, each once
  apply AList.perm_filterMap topicFilterTokens_injective (nodup_foundPaths hts)
  · intro i hi
    have hlookup : s.lookup i.1 = some i.2 := AList.mem_lookup_iff.mpr hi
    rw [hc.lookup, hlookup]
    rfl
  · intro q hsome
    obtain ⟨v, hv⟩ := Option.isSome_iff_exists.mp hsome
    obtain ⟨f, h, rfl, hf⟩ := hc.exists_filter hA (fun ts => exists_topicFilter) hv
    exact ⟨⟨f, h, v⟩, AList.mem_lookup_iff.mp hf, rfl⟩
  · intro i hi
    have hlookup : s.lookup i.1 = some i.2 := AList.mem_lookup_iff.mpr hi
    have hnode := hA.isSome_of_mem (mem_keyLevels.mpr (isSome_of_eq hlookup))
    rw [mem_foundPaths]
    constructor
    · intro ⟨_, _, hmatch⟩
      exact hmatch
    · intro hmatch
      exact ⟨topicFilterTokens_ne_nil topic, hnode, hmatch⟩

end Holds

end SingleSubscriptionMap

end AsyncMqtt
