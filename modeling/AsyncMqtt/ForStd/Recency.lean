import Mathlib.Data.List.Dedup

/-!
# The order of last use

A list of uses, the oldest first, may name a key several times. Without its duplicates it
names each key once, in the order of last use, since `List.dedup` keeps the last occurrence.

## Key results

- `Recency.dedup_concat`: a use moves its key to the end
- `Recency.isOldest_of_dedup`: the first key is the one whose last use lies furthest back
-/

namespace Recency

variable {α : Type} [DecidableEq α]

/-- The last use of `a` lies further back than the last use of every other key. -/
def IsOldest (uses : List α) (keys : α → Prop) (a : α) : Prop :=
  ∃ older newer, uses = older ++ a :: newer ∧ a ∉ newer ∧ ∀ b, keys b → b ≠ a → b ∈ newer

/-- A use moves its key to the end. -/
theorem dedup_concat (uses : List α) (a : α) :
    (uses ++ [a]).dedup = uses.dedup.erase a ++ [a] := by
  induction uses with
  | nil => simp
  | cons x uses ih =>
    rw [List.cons_append]
    by_cases hx : x ∈ uses
    · rw [List.dedup_cons_of_mem hx, List.dedup_cons_of_mem (List.mem_append_left _ hx), ih]
    · rw [List.dedup_cons_of_notMem hx]
      by_cases hxa : x = a
      · subst hxa
        have hkeep : uses.dedup.erase x = uses.dedup :=
          List.erase_of_not_mem fun hmem => hx (List.mem_dedup.mp hmem)
        rw [List.dedup_cons_of_mem (by simp), ih, hkeep, List.erase_cons_head]
      · rw [List.dedup_cons_of_notMem (by simp [hx, hxa]), ih,
          List.erase_cons_tail (by simpa using hxa), List.cons_append]

/-- A use of the key that was used last changes nothing. -/
theorem dedup_concat_getLast {uses : List α} {a : α} (h : uses.getLast? = some a) :
    (uses ++ [a]).dedup = uses.dedup := by
  obtain ⟨older, rfl⟩ := List.getLast?_eq_some_iff.mp h
  rw [dedup_concat, dedup_concat]
  have hnew : a ∉ older.dedup.erase a := by
    rw [(List.nodup_dedup older).mem_erase_iff]
    exact fun hmem => hmem.1 rfl
  rw [List.erase_append_right _ hnew, List.erase_cons_head, List.append_nil]

/-- The first key is the one whose last use lies furthest back. -/
theorem isOldest_of_dedup {uses rest : List α} {a : α} {keys : α → Prop}
    (h : uses.dedup = a :: rest) (hkeys : ∀ b, keys b → b ∈ uses) : IsOldest uses keys a := by
  have hsplit : ∀ uses : List α, uses.dedup = a :: rest →
      ∃ older newer, uses = older ++ a :: newer ∧ a ∉ newer ∧ ∀ b ∈ rest, b ∈ newer := by
    intro uses
    induction uses with
    | nil => exact fun h => nomatch h
    | cons x uses ih =>
      intro h
      by_cases hx : x ∈ uses
      · -- this use is not the last one of its key
        rw [List.dedup_cons_of_mem hx] at h
        obtain ⟨older, newer, rfl, hnew, hrest⟩ := ih h
        exact ⟨x :: older, newer, rfl, hnew, hrest⟩
      · rw [List.dedup_cons_of_notMem hx] at h
        obtain ⟨rfl, rfl⟩ := List.cons.inj h
        exact ⟨[], uses, rfl, hx, fun b hb => List.mem_dedup.mp hb⟩
  obtain ⟨older, newer, huses, hnew, hrest⟩ := hsplit uses h
  refine ⟨older, newer, huses, hnew, fun b hb hne => ?_⟩
  have hmem : b ∈ a :: rest := by
    rw [← h]
    exact List.mem_dedup.mpr (hkeys b hb)
  exact hrest b ((List.mem_cons.mp hmem).resolve_left hne)

end Recency
