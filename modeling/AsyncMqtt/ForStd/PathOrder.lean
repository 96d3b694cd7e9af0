import Mathlib.Data.List.Nodup

/-!
# The order of paths in a tree with ordered children

Two paths are compared where they part: the one that goes on to the earlier child is the earlier
one. A path that only goes on from the other is neither earlier nor later.

## Key results

- `PathOrder.Earlier.asymm`: of two paths, at most one is earlier
- `PathOrder.Earlier.append`, `PathOrder.Earlier.of_append`: paths that go on
- `PathOrder.mem_takeWhile_iff`: what stands before the first child of a kind
-/

namespace PathOrder

variable {L : Type} {kids : List L → List L} {p q r : List L} {s t : L}

/-- The path parts from the other one at an earlier child. -/
def Earlier (kids : List L → List L) (p q : List L) : Prop :=
  ∃ r s t p' q', p = r ++ s :: p' ∧ q = r ++ t :: q' ∧ [s, t].Sublist (kids r)

/-- Children of one node -/
theorem Earlier.of_kids (h : [s, t].Sublist (kids r)) : Earlier kids (r ++ [s]) (r ++ [t]) :=
  ⟨r, s, t, [], [], rfl, rfl, h⟩

/-- With more children, what was earlier stays earlier. -/
theorem Earlier.mono {kids' : List L → List L} (h : Earlier kids p q)
    (hkids : ∀ r, (kids r).Sublist (kids' r)) : Earlier kids' p q := by
  obtain ⟨r, s, t, p', q', hp, hq, hsub⟩ := h
  exact ⟨r, s, t, p', q', hp, hq, hsub.trans (hkids r)⟩

/-- Both paths may go on. -/
theorem Earlier.append (h : Earlier kids p q) (p' q' : List L) :
    Earlier kids (p ++ p') (q ++ q') := by
  obtain ⟨r, s, t, p₁, q₁, rfl, rfl, hkids⟩ := h
  exact ⟨r, s, t, p₁ ++ p', q₁ ++ q', by simp, by simp, hkids⟩

/-- What is as long as the earlier path decides. -/
theorem Earlier.of_append {q' : List L} (h : Earlier kids p (q ++ q')) (hlen : p.length ≤ q.length) :
    Earlier kids p q := by
  obtain ⟨r, s, t, p₁, q₁, rfl, hq, hkids⟩ := h
  have hr : r.length < q.length := by
    rw [List.length_append, List.length_cons] at hlen
    omega
  obtain ⟨q₂, rfl⟩ : r <+: q :=
    List.prefix_of_prefix_length_le ⟨t :: q₁, hq.symm⟩ (List.prefix_append q q') (Nat.le_of_lt hr)
  cases q₂ with
  | nil =>
    rw [List.append_nil] at hr
    exact absurd hr (Nat.lt_irrefl _)
  | cons t' q₂ =>
    rw [List.append_assoc, List.append_cancel_left_eq, List.cons_append] at hq
    obtain ⟨rfl, -⟩ := List.cons.inj hq
    exact ⟨r, s, t', p₁, q₂, rfl, rfl, hkids⟩

/-- A pair does not stand in a list both ways. -/
theorem not_sublist_swap {l : List L} (hl : l.Nodup) (h : [s, t].Sublist l) :
    ¬ [t, s].Sublist l := by
  intro h'
  induction l with
  | nil => exact nomatch h
  | cons a l ih =>
    obtain ⟨ha, hl⟩ := List.nodup_cons.mp hl
    cases h with
    | cons _ h =>
      cases h' with
      | cons _ h' => exact ih hl h h'
      | cons_cons _ h' => exact ha (h.subset (List.mem_cons_of_mem _ (List.mem_singleton.mpr rfl)))
    | cons_cons _ h =>
      cases h' with
      | cons _ h' => exact ha (h'.subset (List.mem_cons_of_mem _ (List.mem_singleton.mpr rfl)))
      | cons_cons _ h' => exact ha (h.subset (List.mem_singleton.mpr rfl))

/-- Of two paths, at most one is earlier. -/
theorem Earlier.asymm (hkids : ∀ r, (kids r).Nodup) (h : Earlier kids p q) :
    ¬ Earlier kids q p := by
  rintro ⟨r', s', t', q₁', p₁', hq, hp, hsub'⟩
  obtain ⟨r, s, t, p₁, q₁, rfl, rfl, hsub⟩ := h
  have hne : s ≠ t := fun heq => by
    have hnodup := (hkids r).sublist hsub
    simp [heq] at hnodup
  have hne' : s' ≠ t' := fun heq => by
    have hnodup := (hkids r').sublist hsub'
    simp [heq] at hnodup
  -- the paths part at one place only
  have hr : r = r' := by
    rcases List.append_eq_append_iff.mp hp with ⟨u, hr', hu⟩ | ⟨u, hr', hu⟩
    · cases u with
      | nil => exact (hr'.trans (List.append_nil r)).symm
      | cons a u =>
        obtain ⟨rfl, -⟩ := List.cons.inj hu
        rw [hr', List.append_assoc, List.append_cancel_left_eq] at hq
        exact absurd (List.cons.inj hq).1.symm hne
    · cases u with
      | nil => exact hr'.trans (List.append_nil r')
      | cons a u =>
        obtain ⟨rfl, -⟩ := List.cons.inj hu
        rw [hr', List.append_assoc, List.append_cancel_left_eq] at hq
        exact absurd (List.cons.inj hq).1.symm hne'
  subst hr
  obtain ⟨rfl, -⟩ := List.cons.inj (List.append_cancel_left hp)
  obtain ⟨rfl, -⟩ := List.cons.inj (List.append_cancel_left hq)
  exact not_sublist_swap (hkids r) hsub hsub'

/-- No path is earlier than itself. -/
theorem Earlier.irrefl (hkids : ∀ r, (kids r).Nodup) (h : Earlier kids p q) : p ≠ q := by
  rintro rfl
  exact h.asymm hkids h

/-- What stands in a list in this order -/
theorem sublist_pair_trans {l : List L} {u : L} (hl : l.Nodup) (h : [s, t].Sublist l)
    (h' : [t, u].Sublist l) : [s, u].Sublist l := by
  induction l with
  | nil => exact nomatch h
  | cons a l ih =>
    obtain ⟨ha, hl⟩ := List.nodup_cons.mp hl
    cases h' with
    | cons _ h' =>
      cases h with
      | cons _ h => exact (ih hl h h').cons a
      | cons_cons _ h =>
        have hu : u ∈ l := h'.subset (List.mem_cons_of_mem _ (List.mem_singleton.mpr rfl))
        exact (List.singleton_sublist.mpr hu).cons_cons _
    | cons_cons _ h' =>
      cases h with
      | cons _ h => exact absurd (h.subset (List.mem_cons_of_mem _ (List.mem_singleton.mpr rfl))) ha
      | cons_cons _ h => exact absurd (h.subset (List.mem_singleton.mpr rfl)) ha

/-- A path of one level is compared at the root. -/
theorem earlier_singleton_iff {q : List L} :
    Earlier kids [s] (t :: q) ↔ [s, t].Sublist (kids []) := by
  constructor
  · rintro ⟨r, a, b, p', q', hp, hq, hsub⟩
    have hr : r = [] := by
      cases r with
      | nil => rfl
      | cons c r =>
        have hlen := congrArg List.length hp
        simp at hlen
    subst hr
    obtain ⟨rfl, -⟩ := List.cons.inj hp
    obtain ⟨rfl, -⟩ := List.cons.inj hq
    exact hsub
  · exact fun hsub => ⟨[], s, t, [], q, rfl, rfl, hsub⟩

/-- What stands before the first child that is not of a kind. -/
theorem mem_takeWhile_iff {P : L → Bool} {l : List L} (hl : l.Nodup) :
    t ∈ l.takeWhile P ↔ t ∈ l ∧ P t ∧ ∀ s, P s = false → ¬ [s, t].Sublist l := by
  -- the induction is on the list, whose first element ends the way or belongs to it
  induction l with
  | nil => simp
  | cons a l ih =>
    obtain ⟨ha, hl⟩ := List.nodup_cons.mp hl
    cases hP : P a with
    | false =>
      rw [List.takeWhile_cons_of_neg (by simp [hP])]
      constructor
      · exact fun h => nomatch h
      · rintro ⟨hmem, ht, hfirst⟩
        rcases List.mem_cons.mp hmem with rfl | hmem
        · exact absurd ht (by simp [hP])
        · exact absurd ((List.singleton_sublist.mpr hmem).cons_cons a) (hfirst a hP)
    -- an element before which nothing fails comes after the first one
    | true =>
      rw [List.takeWhile_cons_of_pos hP, List.mem_cons, List.mem_cons, ih hl]
      constructor
      · rintro (rfl | ⟨hmem, ht, hfirst⟩)
        · refine ⟨.inl rfl, hP, fun s hs h => ?_⟩
          cases h with
          | cons _ h => exact ha (h.subset (List.mem_cons_of_mem _ (List.mem_singleton.mpr rfl)))
          | cons_cons _ h => exact absurd hP (by simp [hs])
        · refine ⟨.inr hmem, ht, fun s hs h => ?_⟩
          cases h with
          | cons _ h => exact hfirst s hs h
          | cons_cons _ h => exact absurd hP (by simp [hs])
      · rintro ⟨rfl | hmem, ht, hfirst⟩
        · exact .inl rfl
        · exact .inr ⟨hmem, ht, fun s hs h => hfirst s hs (h.cons a)⟩

end PathOrder
