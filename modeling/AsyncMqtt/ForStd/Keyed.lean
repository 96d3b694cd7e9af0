import Mathlib.Data.List.Nodup

/-!
# Lists with unique keys

A table is a list in which `key` takes each value once. Looking up, updating and removing the
element with a key then concern this element only.

## Key results

- `Keyed.find?_eq_some`: what is in the table is found
- `Keyed.mem_eraseP`: what is left when a key is removed
- `Keyed.perm_insertBefore`: an element is put in at its place
- `Keyed.foldl_insertBack`: elements are put in at the end, if their keys are new
-/

namespace Keyed

variable {α β : Type} {key : α → β} {xs : List α} {x y : α} {k : β}

/-- Two elements with one key are the same. -/
theorem eq_of_key (h : (xs.map key).Nodup) (hx : x ∈ xs) (hy : y ∈ xs) (heq : key x = key y) :
    x = y :=
  List.inj_on_of_nodup_map h hx hy heq

variable [DecidableEq β]

theorem find?_eq_some (h : (xs.map key).Nodup) (hx : x ∈ xs) (hk : key x = k) :
    xs.find? (fun y => key y = k) = some x := by
  cases hfind : xs.find? (fun y => key y = k) with
  | none => exact absurd (decide_eq_true hk) (List.find?_eq_none.mp hfind x hx)
  | some y =>
    have hy : key y = k := by simpa using List.find?_some hfind
    rw [eq_of_key h (List.mem_of_find?_eq_some hfind) hx (hy.trans hk.symm)]

theorem mem_eraseP (h : (xs.map key).Nodup) :
    x ∈ xs.eraseP (fun y => key y = k) ↔ x ∈ xs ∧ key x ≠ k := by
  induction xs with
  | nil => simp
  | cons y ys ih =>
    rw [List.map_cons, List.nodup_cons] at h
    by_cases hy : key y = k
    · rw [List.eraseP_cons_of_pos (by simpa using hy)]
      constructor
      · intro hx
        refine ⟨List.mem_cons_of_mem y hx, fun hk => h.1 ?_⟩
        rw [hy, ← hk]
        exact List.mem_map_of_mem hx
      · rintro ⟨hx, hne⟩
        rcases List.mem_cons.mp hx with rfl | hx
        · exact absurd hy hne
        · exact hx
    · rw [List.eraseP_cons_of_neg (by simpa using hy), List.mem_cons, List.mem_cons, ih h.2]
      constructor
      · rintro (rfl | ⟨hx, hne⟩)
        · exact ⟨.inl rfl, hy⟩
        · exact ⟨.inr hx, hne⟩
      · rintro ⟨rfl | hx, hne⟩
        · exact .inl rfl
        · exact .inr ⟨hx, hne⟩

/-- An element is put in before the first one that does not satisfy `p`. -/
theorem perm_insertBefore {p : α → Bool} :
    (xs.takeWhile p ++ y :: xs.dropWhile p).Perm (y :: xs) := by
  refine List.perm_middle.trans ?_
  rw [List.takeWhile_append_dropWhile]

/-! ### Insertion at the end -/

/-- An element is put in at the end, if its key is not taken. -/
def insertBack (key : α → β) (xs : List α) (x : α) : List α :=
  if key x ∈ xs.map key then xs else xs ++ [x]

theorem nodup_insertBack (h : (xs.map key).Nodup) : ((insertBack key xs x).map key).Nodup := by
  unfold insertBack
  split
  · exact h
  · next hnew =>
    rw [List.map_append, List.nodup_append]
    refine ⟨h, List.nodup_singleton _, fun a ha b hb => ?_⟩
    obtain rfl := List.mem_singleton.mp hb
    rintro rfl
    exact hnew ha

/-- The elements of a table are put in one after the other: those whose keys were not taken before
    follow in their order. -/
theorem foldl_insertBack {ys : List α} (h : (ys.map key).Nodup) :
    ys.foldl (insertBack key) xs = xs ++ ys.filter fun y => key y ∉ xs.map key := by
  induction ys generalizing xs with
  | nil => simp
  | cons y ys ih =>
    rw [List.map_cons, List.nodup_cons] at h
    rw [List.foldl_cons, ih h.2]
    unfold insertBack
    split
    · next htaken => rw [List.filter_cons_of_neg (by simpa using htaken)]
    · next hnew =>
      rw [List.filter_cons_of_pos (by simpa using hnew), List.append_assoc, List.singleton_append]
      -- the keys of what follows are not the one that was put in
      have hrest : ∀ z ∈ ys, (key z ∉ (xs ++ [y]).map key ↔ key z ∉ xs.map key) := by
        intro z hz
        have hne : key z ≠ key y := fun heq => h.1 (heq ▸ List.mem_map_of_mem hz)
        simp [hne]
      rw [List.filter_congr fun z hz => decide_eq_decide.mpr (hrest z hz)]

end Keyed
