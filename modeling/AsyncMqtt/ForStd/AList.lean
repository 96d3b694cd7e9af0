import Mathlib.Data.List.AList

/-!
# Keys of association lists

What `insert` and `erase` do to the list of keys, up to the order of the keys.

## Key results

- `AList.keys_insert_of_none`, `AList.perm_keys_insert`: a key that is new, and one that is not
- `AList.perm_keys_erase`: a key that is erased
- `AList.length_insert`, `AList.length_erase`: the length
- `AList.perm_filterMap`: a search that comes to the places of the entries
-/

namespace AList

variable {α : Type} {β : α → Type} [DecidableEq α] {s : AList β} {a : α} {b : β a}

/-- A new key stands before the others. -/
theorem keys_insert_of_none (h : s.lookup a = none) : (s.insert a b).keys = a :: s.keys := by
  rw [keys_insert, List.erase_of_not_mem]
  exact fun hmem => lookup_eq_none.mp h (mem_keys.mpr hmem)

/-- A key that is there stays. -/
theorem perm_keys_insert (h : (s.lookup a).isSome) : (s.insert a b).keys.Perm s.keys := by
  rw [keys_insert]
  exact (List.perm_cons_erase (mem_keys.mp (lookup_isSome.mp h))).symm

/-- A key that is there goes. -/
theorem perm_keys_erase (h : (s.lookup a).isSome) : s.keys.Perm (a :: (s.erase a).keys) := by
  rw [keys_erase]
  exact List.perm_cons_erase (mem_keys.mp (lookup_isSome.mp h))

/-- A key that is not there does not go. -/
theorem erase_of_none (h : s.lookup a = none) : s.erase a = s :=
  AList.ext (List.kerase_of_notMem_keys fun hmem => lookup_eq_none.mp h (mem_keys.mpr hmem))

omit [DecidableEq α] in
theorem length_keys : s.keys.length = s.entries.length := List.length_map _

/-- The length after an insertion -/
theorem length_insert (s : AList β) (a : α) (b : β a) :
    (s.insert a b).entries.length = s.entries.length + if (s.lookup a).isNone then 1 else 0 := by
  cases hlookup : s.lookup a with
  | none =>
    rw [← length_keys, keys_insert_of_none hlookup, List.length_cons, length_keys]
    rfl
  | some b' =>
    have hsome : (s.lookup a).isSome := by
      rw [hlookup]
      rfl
    rw [← length_keys, (perm_keys_insert hsome).length_eq, length_keys]
    rfl

/-- The length after an erasure -/
theorem length_erase (s : AList β) (a : α) :
    (s.erase a).entries.length = s.entries.length - if (s.lookup a).isSome then 1 else 0 := by
  cases hlookup : s.lookup a with
  | none =>
    rw [erase_of_none hlookup]
    rfl
  | some b =>
    have hsome : (s.lookup a).isSome := by
      rw [hlookup]
      rfl
    have hlen := (perm_keys_erase hsome).length_eq
    rw [List.length_cons, length_keys, length_keys] at hlen
    simp [hlen]

omit [DecidableEq α] in
/-- The values that a search finds which comes to no place twice: they are those of the entries to
    whose places it comes, if there are no values at other places. -/
theorem perm_filterMap {γ δ : Type} {place : α → γ} (hplace : Function.Injective place)
    {found : List γ} (hfound : found.Nodup) {A : γ → Option δ} {value : Sigma β → δ}
    {p : Sigma β → Bool} (hvalue : ∀ i ∈ s.entries, A (place i.1) = some (value i))
    (hentry : ∀ c, (A c).isSome → ∃ i ∈ s.entries, place i.1 = c)
    (hmem : ∀ i ∈ s.entries, place i.1 ∈ found ↔ p i) :
    (found.filterMap A).Perm ((s.entries.filter p).map value) := by
  have hleft : found.filterMap A = (found.filter fun c => (A c).isSome).filterMap A := by
    rw [List.filterMap_filter]
    apply List.filterMap_congr
    intro c _
    cases A c <;> rfl
  have hright : (s.entries.filter p).map value =
      ((s.entries.filter p).map fun i => place i.1).filterMap A := by
    have hsome : ∀ i ∈ s.entries.filter p, (A ∘ fun i => place i.1) i = some (value i) :=
      fun i hi => hvalue i (List.mem_filter.mp hi).1
    rw [List.filterMap_map, List.filterMap_congr hsome, List.filterMap_eq_map']
  have hnodup : ((s.entries.filter p).map fun i => place i.1).Nodup := by
    have hall : (s.entries.map Sigma.fst).Nodup := s.nodupKeys
    have hkeys : ((s.entries.filter p).map Sigma.fst).Nodup :=
      hall.sublist (List.filter_sublist.map _)
    have hmap := hkeys.map hplace
    rwa [List.map_map] at hmap
  rw [hleft, hright]
  -- both sides are lists of places without duplicates
  apply List.Perm.filterMap
  apply (List.perm_ext_iff_of_nodup (hfound.filter _) hnodup).mpr
  intro c
  rw [List.mem_filter, List.mem_map]
  constructor
  · intro ⟨hc, hsome⟩
    obtain ⟨i, hi, rfl⟩ := hentry c hsome
    exact ⟨i, List.mem_filter.mpr ⟨hi, (hmem i hi).mp hc⟩, rfl⟩
  · intro ⟨i, hi, hc⟩
    obtain ⟨hi, hp⟩ := List.mem_filter.mp hi
    rw [← hc, hvalue i hi]
    exact ⟨(hmem i hi).mpr hp, rfl⟩

/-- Nothing is found in the empty list only. -/
theorem eq_empty_of_lookup (h : ∀ a, s.lookup a = none) : s = ∅ := by
  apply AList.ext
  cases hentries : s.entries with
  | nil => rfl
  | cons i l =>
    have hmem : i.1 ∈ s := by
      show i.1 ∈ s.entries.keys
      rw [hentries]
      exact List.mem_cons_self ..
    exact absurd hmem (lookup_eq_none.mp (h i.1))

end AList
