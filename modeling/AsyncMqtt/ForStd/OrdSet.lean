import Mathlib.Order.Lattice
import Mathlib.Data.List.Basic

/-!
# Ordered sets as strictly increasing lists

`std::set` with its iteration order. The elements stand in a list that carries
the proof of being strictly increasing, so two sets with the same members are
equal and a loop over a set visits its members in order.

## Key results

- `OrdSet.mem_insert`, `OrdSet.mem_erase`: what the operations do to membership
- `OrdSet.size_insert`, `OrdSet.size_erase`: what they do to the number of members
-/

/-- A finite set that is iterated in increasing order. -/
structure OrdSet (α : Type) [LinearOrder α] where
  elems : List α
  increasing : elems.Pairwise (· < ·)
  deriving DecidableEq

namespace OrdSet

variable {α : Type} [LinearOrder α]

/-- An element is one of the list. -/
instance : Membership α (OrdSet α) := ⟨fun s a => a ∈ s.elems⟩

/-- The empty set -/
instance : EmptyCollection (OrdSet α) := ⟨⟨[], List.Pairwise.nil⟩⟩

/-- Whether an element is in the set can be decided. -/
instance (a : α) (s : OrdSet α) : Decidable (a ∈ s) :=
  inferInstanceAs (Decidable (a ∈ s.elems))

/-- An element is one of the list. -/
theorem mem_def {a : α} {s : OrdSet α} : a ∈ s ↔ a ∈ s.elems := Iff.rfl

/-- Nothing is in the empty set. -/
@[simp] theorem notMem_empty (a : α) : a ∉ (∅ : OrdSet α) := List.not_mem_nil

/-- The number of members. -/
def size (s : OrdSet α) : Nat := s.elems.length

/-- The empty set has no elements. -/
@[simp] theorem size_empty : (∅ : OrdSet α).size = 0 := rfl

/-- Insertion into a strictly increasing list. -/
def insertList (a : α) : List α → List α
  | [] => [a]
  | b :: bs => if a < b then a :: b :: bs else if a = b then b :: bs else b :: insertList a bs

/-- An insertion adds the element. -/
theorem mem_insertList {a b : α} {l : List α} : b ∈ insertList a l ↔ b = a ∨ b ∈ l := by
  induction l with
  | nil => simp [insertList]
  | cons c cs ih =>
    rw [insertList]
    split
    · simp
    · split
      · next h => subst h; simp
      · rw [List.mem_cons, ih, List.mem_cons]
        exact or_left_comm

/-- An insertion keeps the order. -/
theorem pairwise_insertList {a : α} {l : List α} (h : l.Pairwise (· < ·)) :
    (insertList a l).Pairwise (· < ·) := by
  induction l with
  | nil => simp [insertList]
  | cons c cs ih =>
    obtain ⟨hc, hcs⟩ := List.pairwise_cons.mp h
    rw [insertList]
    split
    · next hac =>
      refine List.pairwise_cons.mpr ⟨fun b hb => ?_, h⟩
      rcases List.mem_cons.mp hb with rfl | hb
      · exact hac
      · exact lt_trans hac (hc b hb)
    · next hac =>
      split
      · exact h
      · next hne =>
        refine List.pairwise_cons.mpr ⟨fun b hb => ?_, ih hcs⟩
        rcases mem_insertList.mp hb with rfl | hb
        · exact lt_of_le_of_ne (not_lt.mp hac) (Ne.symm hne)
        · exact hc b hb

/-- `insert` -/
def insert (s : OrdSet α) (a : α) : OrdSet α :=
  ⟨insertList a s.elems, pairwise_insertList s.increasing⟩

/-- `erase` -/
def erase (s : OrdSet α) (a : α) : OrdSet α :=
  ⟨s.elems.filter (· ≠ a), s.increasing.filter _⟩

/-- An insertion adds the element. -/
@[simp] theorem mem_insert {s : OrdSet α} {a b : α} : b ∈ s.insert a ↔ b = a ∨ b ∈ s :=
  mem_insertList

/-- An erasure removes the element. -/
@[simp] theorem mem_erase {s : OrdSet α} {a b : α} : b ∈ s.erase a ↔ b ∈ s ∧ b ≠ a := by
  simp [mem_def, erase]

/-- Sets with the same members are equal. -/
@[ext] theorem ext {s t : OrdSet α} (h : ∀ a, a ∈ s ↔ a ∈ t) : s = t := by
  obtain ⟨l, hl⟩ := s
  obtain ⟨m, hm⟩ := t
  have hperm : l.Perm m := (List.perm_ext_iff_of_nodup (hl.imp ne_of_lt) (hm.imp ne_of_lt)).mpr h
  obtain rfl : l = m := hperm.eq_of_pairwise
    (fun _ _ _ _ h₁ h₂ => absurd h₁ (lt_asymm h₂)) hl hm
  rfl

/-- An element that is there is not added again. -/
theorem insert_of_mem {s : OrdSet α} {a : α} (h : a ∈ s) : s.insert a = s :=
  ext fun b => by
    rw [mem_insert]
    exact ⟨fun hb => hb.elim (fun e => e ▸ h) id, Or.inr⟩

/-- An element that is not there is not removed. -/
theorem erase_of_notMem {s : OrdSet α} {a : α} (h : a ∉ s) : s.erase a = s :=
  ext fun b => by
    rw [mem_erase]
    exact ⟨And.left, fun hb => ⟨hb, fun e => h (e ▸ hb)⟩⟩

/-- An element is put back. -/
theorem insert_erase_of_mem {s : OrdSet α} {a : α} (h : a ∈ s) : (s.erase a).insert a = s :=
  ext fun b => by
    simp only [mem_erase, mem_insert]
    constructor
    · rintro (rfl | ⟨hb, -⟩)
      · exact h
      · exact hb
    · intro hb
      by_cases e : b = a
      · exact Or.inl e
      · exact Or.inr ⟨hb, e⟩

/-- A new element adds one. -/
theorem size_insert {s : OrdSet α} {a : α} (h : a ∉ s) : (s.insert a).size = s.size + 1 := by
  have key : ∀ l : List α, a ∉ l → (insertList a l).length = l.length + 1 := by
    intro l hl
    induction l with
    | nil => rfl
    | cons c cs ih =>
      obtain ⟨hac, hcs⟩ := List.ne_and_not_mem_of_not_mem_cons hl
      rw [insertList, if_neg hac]
      split
      · rfl
      · rw [List.length_cons, ih hcs, List.length_cons]
  exact key s.elems h

/-- An erased element takes one. -/
theorem size_erase {s : OrdSet α} {a : α} (h : a ∈ s) : (s.erase a).size + 1 = s.size := by
  have hnot : a ∉ s.erase a := fun ha => (mem_erase.mp ha).2 rfl
  rw [← size_insert hnot, insert_erase_of_mem h]

/-- An insertion adds one at most. -/
theorem size_insert_le (s : OrdSet α) (a : α) : (s.insert a).size ≤ s.size + 1 := by
  by_cases h : a ∈ s
  · rw [insert_of_mem h]
    exact Nat.le_succ _
  · exact Nat.le_of_eq (size_insert h)

/-- An erasure adds nothing. -/
theorem size_erase_le (s : OrdSet α) (a : α) : (s.erase a).size ≤ s.size := by
  by_cases h : a ∈ s
  · have hsize := size_erase h
    omega
  · exact Nat.le_of_eq (congrArg size (erase_of_notMem h))

end OrdSet
