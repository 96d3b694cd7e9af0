import Mathlib.Data.List.Lex
import Mathlib.Data.List.Nodup
import AsyncMqtt.ForStd.OrdSet

/-!
# Ordered maps as strictly increasing lists

`std::map` with its iteration order: the keys of the entries are strictly increasing. `insert` leaves
a key alone that is already there, as the function of that name of the C++ library does. Byte strings
are keys, compared as the C++ library compares strings.

## Key results

- `OrdMap.lookup_insert`: what an insertion does
- `OrdMap.lookup_eq_some_iff`: what is found is an entry
-/

namespace ByteOrder

/-- Bytes in the order of their numbers -/
scoped instance instLinearOrderUInt8 : LinearOrder UInt8 where
  le_refl := UInt8.le_refl
  le_trans _ _ _ := UInt8.le_trans
  le_antisymm _ _ := UInt8.le_antisymm
  le_total := UInt8.le_total
  lt_iff_le_not_ge a b := by
    rw [UInt8.not_le]
    exact ⟨fun h => ⟨UInt8.le_of_lt h, h⟩, And.right⟩
  toDecidableLE := inferInstance
  toDecidableEq := inferInstance
  toDecidableLT := inferInstance

end ByteOrder

/-- A finite map that is iterated in increasing order of its keys. -/
structure OrdMap (κ β : Type) [LinearOrder κ] where
  entries : List (κ × β)
  increasing : (entries.map Prod.fst).Pairwise (· < ·)

namespace OrdMap

variable {κ β : Type} [LinearOrder κ]

theorem increasing_nil : (([] : List (κ × β)).map Prod.fst).Pairwise (· < ·) := List.Pairwise.nil

instance : EmptyCollection (OrdMap κ β) := ⟨⟨[], increasing_nil⟩⟩

/-- `find` -/
def lookup (k : κ) (m : OrdMap κ β) : Option β := (m.entries.find? fun i => i.1 = k).map Prod.snd

@[simp] theorem lookup_empty (k : κ) : (∅ : OrdMap κ β).lookup k = none := rfl

variable {m : OrdMap κ β} {k k' : κ} {b b' : β}

/-- The keys are unique. -/
theorem nodup_keys (m : OrdMap κ β) : (m.entries.map Prod.fst).Nodup :=
  m.increasing.imp fun h => h.ne

theorem lookup_eq_some_iff : m.lookup k = some b ↔ (k, b) ∈ m.entries := by
  unfold lookup
  rw [Option.map_eq_some_iff]
  constructor
  · rintro ⟨i, hi, rfl⟩
    obtain rfl : i.1 = k := by simpa using List.find?_some hi
    exact List.mem_of_find?_eq_some hi
  · intro hmem
    cases hfind : m.entries.find? fun i => i.1 = k with
    | none => simpa using List.find?_eq_none.mp hfind _ hmem
    | some i =>
      have hkey : i.1 = k := by simpa using List.find?_some hfind
      have heq : i = (k, b) :=
        List.inj_on_of_nodup_map m.nodup_keys (List.mem_of_find?_eq_some hfind) hmem hkey
      exact ⟨i, rfl, by rw [heq]⟩

/-- Insertion into a list with strictly increasing keys. -/
def insertList (k : κ) (b : β) : List (κ × β) → List (κ × β)
  | [] => [(k, b)]
  | i :: is =>
    if k < i.1 then (k, b) :: i :: is
    else if k = i.1 then i :: is
    else i :: insertList k b is

theorem map_fst_insertList (l : List (κ × β)) :
    (insertList k b l).map Prod.fst = OrdSet.insertList k (l.map Prod.fst) := by
  induction l with
  | nil => rfl
  | cons i is ih =>
    rw [insertList, List.map_cons, OrdSet.insertList]
    split
    · rfl
    · split
      · rfl
      · rw [List.map_cons, ih]

theorem mem_insertList {i : κ × β} {l : List (κ × β)} (h : (l.map Prod.fst).Pairwise (· < ·)) :
    i ∈ insertList k b l ↔ i ∈ l ∨ i = (k, b) ∧ k ∉ l.map Prod.fst := by
  induction l with
  | nil => simp [insertList]
  | cons j js ih =>
    rw [List.map_cons] at h
    obtain ⟨hj, hjs⟩ := List.pairwise_cons.mp h
    rw [insertList]
    split
    · next hlt =>
      have hnew : k ∉ (j :: js).map Prod.fst := by
        rw [List.map_cons, List.mem_cons]
        rintro (heq | hmem)
        · exact hlt.ne heq
        · exact (hlt.trans (hj k hmem)).ne rfl
      rw [List.mem_cons, and_iff_left hnew, or_comm]
    · split
      · next heq => simp [heq]
      · next heq =>
        rw [List.mem_cons, ih hjs, List.map_cons, List.mem_cons, List.mem_cons, or_assoc]
        simp [heq]

/-- `insert` and `emplace` -/
def insert (k : κ) (b : β) (m : OrdMap κ β) : OrdMap κ β where
  entries := insertList k b m.entries
  increasing := by
    rw [map_fst_insertList]
    exact OrdSet.pairwise_insertList m.increasing

/-- A key that is there keeps its value. -/
theorem lookup_insert : (m.insert k b).lookup k' =
    if k' = k then some ((m.lookup k).getD b) else m.lookup k' := by
  apply Option.ext
  intro c
  rw [lookup_eq_some_iff, insert, mem_insertList m.increasing, ← lookup_eq_some_iff]
  have hnone : k ∉ m.entries.map Prod.fst ↔ m.lookup k = none := by
    rw [Option.eq_none_iff_forall_ne_some, List.mem_map]
    simp only [ne_eq, lookup_eq_some_iff]
    exact ⟨fun h a ha => h ⟨(k, a), ha, rfl⟩, fun h ⟨i, hi, heq⟩ => h i.2 (heq ▸ hi)⟩
  rw [hnone]
  by_cases heq : k' = k
  · subst heq
    rw [if_pos rfl]
    cases hlookup : m.lookup k' with
    | none => simp [eq_comm]
    | some b' => simp
  · rw [if_neg heq]
    simp [heq]

end OrdMap
