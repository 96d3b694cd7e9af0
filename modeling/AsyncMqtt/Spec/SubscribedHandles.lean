import AsyncMqtt.Spec.SubscriptionMapRuns

/-!
# The handles of a key

A session keeps the handles of what it has subscribed, in order to end all its subscriptions without
a search. The handles of a key are those of the filters that are stored with it. They stay valid
whatever is stored or erased with other keys, and erasing each of them leaves nothing of the key.

## Key results

- `MultipleSubscriptionMap.HandlesOf.insert`, `MultipleSubscriptionMap.HandlesOf.erase`: the handles
  after a call with the key
- `MultipleSubscriptionMap.HandlesOf.other`: the handles after calls with other keys
-/

namespace AsyncMqtt

open SubscriptionMapBase

namespace MultipleSubscriptionMap

variable {K V : Type} [DecidableEq K] {m m' : MultipleSubscriptionMap K V} {s s' : Stored K V}
  {f g : Buffer} {h : PathEntryKey} {k k' : K} {v : V} {handles : List PathEntryKey}

/-- A filter that is stored has a handle. -/
theorem Holds.exists_handle (hm : Holds m s) (hf : (s.lookup (f, k)).isSome) :
    ∃ h, m.lookup f = some h := by
  apply Option.isSome_iff_exists.mp
  exact hm.isSome_lookup.mpr ⟨_, mem_filters.mpr ⟨k, hf⟩, List.prefix_rfl⟩

/-- Nothing is stored for a filter without a handle. -/
theorem Holds.lookup_eq_none (hm : Holds m s) (hnone : m.lookup f = none) (k : K) :
    s.lookup (f, k) = none := by
  by_contra hsome
  obtain ⟨h, hh⟩ := hm.exists_handle (Option.isSome_iff_ne_none.mpr hsome)
  rw [hnone] at hh
  cases hh

/-- Two filters have two handles. -/
theorem Holds.lookup_inj (hm : Holds m s) (hf : m.lookup f = some h) (hg : m.lookup g = some h) :
    f = g := by
  obtain ⟨hfnode, rfl⟩ := hm.lookup_iff.mp hf
  obtain ⟨hgnode, heq⟩ := hm.lookup_iff.mp hg
  obtain ⟨A, hA, -⟩ := hm.exists_represents
  exact topicFilterTokens_injective (hA.toWellFormed.keyAt_inj hfnode hgnode heq)

/-- A filter that stays stored keeps its handle. -/
theorem Holds.lookup_eq (hm : Holds m s) (hm' : Holds m' s') (hext : Extends m m' ∨ Extends m' m)
    (hf : (s.lookup (f, k)).isSome) (hf' : (s'.lookup (f, k')).isSome) :
    m'.lookup f = m.lookup f := by
  obtain ⟨h, hh⟩ := hm.exists_handle hf
  obtain ⟨h', hh'⟩ := hm'.exists_handle hf'
  rcases lookup_stays hm hm' hext hh with hsame | hnone
  · rw [hsame, hh]
  · rw [hnone] at hh'
    cases hh'

/-- The handles of the filters that are stored with a key -/
structure HandlesOf (m : MultipleSubscriptionMap K V) (s : Stored K V) (k : K)
    (handles : List PathEntryKey) : Prop where
  nodup : handles.Nodup
  mem_iff : ∀ h, h ∈ handles ↔ ∃ f, (s.lookup (f, k)).isSome ∧ m.lookup f = some h

namespace HandlesOf

/-- No filter is stored with the key. -/
theorem nil (hnone : ∀ f, s.lookup (f, k) = none) : HandlesOf m s k [] := by
  refine ⟨List.nodup_nil, fun h => ⟨by rintro ⟨⟩, ?_⟩⟩
  rintro ⟨f, hf, -⟩
  rw [hnone f] at hf
  cases hf

/-- What the key has is left alone. -/
theorem other (hs : HandlesOf m s k handles) (hm : Holds m s) (hm' : Holds m' s')
    (hext : Extends m m' ∨ Extends m' m) (hsame : ∀ f, s'.lookup (f, k) = s.lookup (f, k)) :
    HandlesOf m' s' k handles := by
  refine ⟨hs.nodup, fun h => (hs.mem_iff h).trans (exists_congr fun f => ?_)⟩
  rw [hsame f]
  refine and_congr_right fun hf => ?_
  rw [hm.lookup_eq hm' hext hf (by rw [hsame f]; exact hf)]

/-- A filter is stored with the key, for the first time or again. -/
theorem insert (hs : HandlesOf m s k handles) (hm : Holds m s) (hm' : Holds m' (s.insert (f, k) v))
    (hext : Extends m m') (hh : m'.lookup f = some h) :
    HandlesOf m' (s.insert (f, k) v) k
      (if (s.lookup (f, k)).isNone then List.insert h handles else handles) := by
  have hstored (g : Buffer) : ((s.insert (f, k) v).lookup (g, k)).isSome ↔
      g = f ∨ (s.lookup (g, k)).isSome := by
    by_cases hg : g = f
    · rw [hg, AList.lookup_insert]
      simp
    · rw [AList.lookup_insert_ne (by simp [hg])]
      simp [hg]
  -- the filters that were stored before keep their handles
  have hold (g : Buffer) (hg : (s.lookup (g, k)).isSome) : m'.lookup g = m.lookup g :=
    hm.lookup_eq hm' (.inl hext) hg ((hstored g).mpr (.inr hg))
  have hmem (h' : PathEntryKey) :
      (∃ g, ((s.insert (f, k) v).lookup (g, k)).isSome ∧ m'.lookup g = some h') ↔
        h' = h ∨ h' ∈ handles := by
    rw [hs.mem_iff]
    constructor
    · rintro ⟨g, hg, hh'⟩
      rcases (hstored g).mp hg with rfl | hg
      · rw [hh] at hh'
        exact .inl (Option.some.inj hh').symm
      · exact .inr ⟨g, hg, (hold g hg).symm.trans hh'⟩
    · rintro (rfl | ⟨g, hg, hh'⟩)
      · exact ⟨f, (hstored f).mpr (.inl rfl), hh⟩
      · exact ⟨g, (hstored g).mpr (.inr hg), (hold g hg).trans hh'⟩
  split
  · exact ⟨hs.nodup.insert, fun h' => by rw [List.mem_insert_iff, hmem]⟩
  · next hsome =>
    have hf : (s.lookup (f, k)).isSome := by simpa [Option.isSome_iff_ne_none] using hsome
    have hin : h ∈ handles := (hs.mem_iff h).mpr ⟨f, hf, (hold f hf).symm.trans hh⟩
    refine ⟨hs.nodup, fun h' => ?_⟩
    rw [hmem]
    exact ⟨.inr, fun hor => hor.elim (fun heq => heq ▸ hin) id⟩

/-- A filter is erased for the key. -/
theorem erase (hs : HandlesOf m s k handles) (hm : Holds m s) (hm' : Holds m' (s.erase (f, k)))
    (hext : Extends m' m) (hh : m.lookup f = some h) :
    HandlesOf m' (s.erase (f, k)) k (handles.erase h) := by
  refine ⟨hs.nodup.erase h, fun h' => ?_⟩
  rw [hs.nodup.mem_erase_iff, hs.mem_iff]
  constructor
  -- another filter of the client has another handle
  · rintro ⟨hne, g, hg, hh'⟩
    have hgf : g ≠ f := by
      rintro rfl
      rw [hh] at hh'
      exact hne (Option.some.inj hh').symm
    have hg' : ((s.erase (f, k)).lookup (g, k)).isSome := by
      rwa [AList.lookup_erase_ne (by simp [hgf])]
    exact ⟨g, hg', (hm.lookup_eq hm' (.inr hext) hg hg').trans hh'⟩
  · rintro ⟨g, hg', hh'⟩
    have hgf : g ≠ f := by
      rintro rfl
      rw [AList.lookup_erase] at hg'
      cases hg'
    have hg : (s.lookup (g, k)).isSome := by
      rwa [AList.lookup_erase_ne (by simp [hgf])] at hg'
    have hold := (hm.lookup_eq hm' (.inr hext) hg hg').symm.trans hh'
    refine ⟨?_, g, hg, hold⟩
    rintro rfl
    exact hgf (hm.lookup_inj hold hh)

end HandlesOf

end MultipleSubscriptionMap

end AsyncMqtt
