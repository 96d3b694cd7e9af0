import Mathlib.Algebra.GroupWithZero.Nat
import Mathlib.Data.List.Nodup
import Mathlib.Data.List.Pairwise

/-!
# Pools of disjoint intervals

A set of natural numbers kept as an ordered set of disjoint intervals, the way
an ordered container with the order "lies completely below" keeps them: an
interval that overlaps a member is not inserted, and a member that is changed
into one that overlaps another is dropped.

## Key results

- `IntervalPool.mem_emplace`, `IntervalPool.mem_erase`, `IntervalPool.mem_replace`:
  the numbers of a pool after the operations
- `IntervalPool.mem_left`, `IntervalPool.mem_right`: the neighbours of a number
-/

/-- Disjoint intervals in increasing order. -/
structure IntervalPool where
  intervals : List (Nat × Nat)
  valid : ∀ iv ∈ intervals, iv.1 ≤ iv.2
  sorted : intervals.Pairwise fun a b => a.2 < b.1
  deriving DecidableEq

namespace IntervalPool

/-- A value is in the pool if one of the intervals has it. -/
instance : Membership Nat IntervalPool :=
  ⟨fun pool v => ∃ iv ∈ pool.intervals, iv.1 ≤ v ∧ v ≤ iv.2⟩

/-- Whether a value is in the pool can be decided. -/
instance (v : Nat) (pool : IntervalPool) : Decidable (v ∈ pool) :=
  inferInstanceAs (Decidable (∃ iv ∈ pool.intervals, iv.1 ≤ v ∧ v ≤ iv.2))

/-- A value of the pool lies in one of its intervals. -/
theorem mem_def {v : Nat} {pool : IntervalPool} :
    v ∈ pool ↔ ∃ iv ∈ pool.intervals, iv.1 ≤ v ∧ v ≤ iv.2 := Iff.rfl

/-- The pool without intervals. -/
def empty : IntervalPool := ⟨[], by simp, List.Pairwise.nil⟩

/-- The pool of one interval. -/
def singleton (low high : Nat) (h : low ≤ high) : IntervalPool :=
  ⟨[(low, high)], by simpa using h, List.pairwise_singleton _ _⟩

/-- The values of a single interval -/
theorem mem_singleton {low high v : Nat} (h : low ≤ high) :
    v ∈ singleton low high h ↔ low ≤ v ∧ v ≤ high := by
  simp [mem_def, singleton]

/-! ### Insertion and removal -/

/-- The order of the container. -/
def Below (a b : Nat × Nat) : Prop := a.1 < b.1 ∧ a.2 < b.1

/-- Whether an interval lies below another one can be decided. -/
instance (a b : Nat × Nat) : Decidable (Below a b) := inferInstanceAs (Decidable (_ ∧ _))

/-- Insertion, which does nothing if there is an equivalent interval. -/
def emplaceList (iv : Nat × Nat) : List (Nat × Nat) → List (Nat × Nat)
  | [] => [iv]
  | a :: as =>
    if Below iv a then iv :: a :: as
    else if Below a iv then a :: emplaceList iv as
    else a :: as

/-- Nothing but the new interval is added. -/
theorem mem_of_mem_emplaceList {iv a : Nat × Nat} {l : List (Nat × Nat)}
    (h : a ∈ emplaceList iv l) : a = iv ∨ a ∈ l := by
  induction l with
  | nil => exact Or.inl (by simpa [emplaceList] using h)
  | cons b bs ih =>
    rw [emplaceList] at h
    split at h
    · simpa using h
    · split at h
      · rcases List.mem_cons.mp h with rfl | h
        · exact Or.inr List.mem_cons_self
        · exact (ih h).imp_right (List.mem_cons_of_mem _)
      · exact Or.inr h

/-- No interval is lost. -/
theorem subset_emplaceList {iv : Nat × Nat} {l : List (Nat × Nat)} : l ⊆ emplaceList iv l := by
  induction l with
  | nil => exact List.nil_subset _
  | cons b bs ih =>
    rw [emplaceList]
    split
    · exact List.subset_cons_self _ _
    · split
      · exact List.cons_subset_cons _ ih
      · exact List.Subset.refl _

/-- The new interval is added if it overlaps no other one. -/
theorem mem_emplaceList_self {iv : Nat × Nat} {l : List (Nat × Nat)}
    (h : ∀ a ∈ l, Below iv a ∨ Below a iv) : iv ∈ emplaceList iv l := by
  induction l with
  | nil => exact List.mem_singleton.mpr rfl
  | cons b bs ih =>
    obtain ⟨hb, hbs⟩ := List.forall_mem_cons.mp h
    rw [emplaceList]
    split
    · exact List.mem_cons_self
    · next hlt =>
      rw [if_pos (hb.resolve_left hlt)]
      exact List.mem_cons_of_mem _ (ih hbs)

/-- The intervals stay apart, and in their order. -/
theorem pairwise_emplaceList {iv : Nat × Nat} {l : List (Nat × Nat)}
    (hiv : iv.1 ≤ iv.2) (hl : ∀ a ∈ l, a.1 ≤ a.2) (h : l.Pairwise fun a b => a.2 < b.1) :
    (emplaceList iv l).Pairwise fun a b => a.2 < b.1 := by
  induction l with
  | nil => exact List.pairwise_singleton _ _
  | cons b bs ih =>
    obtain ⟨hb, hbs⟩ := List.pairwise_cons.mp h
    obtain ⟨hvb, hvbs⟩ := List.forall_mem_cons.mp hl
    rw [emplaceList]
    split
    · next hlt =>
      refine List.pairwise_cons.mpr ⟨fun c hc => ?_, h⟩
      rcases List.mem_cons.mp hc with rfl | hc
      · exact hlt.2
      · have := hlt.2
        have := hb c hc
        omega
    · split
      · next hlt =>
        refine List.pairwise_cons.mpr ⟨fun c hc => ?_, ih hvbs hbs⟩
        rcases mem_of_mem_emplaceList hc with rfl | hc
        · exact hlt.2
        · exact hb c hc
      · exact h

/-- `emplace`; there is no interval whose bounds are the wrong way round. -/
def emplace (pool : IntervalPool) (low high : Nat) : IntervalPool :=
  if h : low ≤ high then
    ⟨emplaceList (low, high) pool.intervals,
      fun a ha => (mem_of_mem_emplaceList ha).elim (fun e => e ▸ h) (pool.valid a),
      pairwise_emplaceList h pool.valid pool.sorted⟩
  else pool

/-- Nothing but the values of the new interval is added. -/
theorem mem_emplace {pool : IntervalPool} {low high v : Nat} (h : v ∈ pool.emplace low high) :
    v ∈ pool ∨ (low ≤ v ∧ v ≤ high) := by
  unfold emplace at h
  split at h
  · obtain ⟨iv, hiv, hv⟩ := h
    rcases mem_of_mem_emplaceList hiv with rfl | hiv
    · exact Or.inr hv
    · exact Or.inl ⟨iv, hiv, hv⟩
  · exact Or.inl h

/-- An interval that overlaps another one is not added. -/
private theorem emplaceList_of_overlap {iv a : Nat × Nat} {l : List (Nat × Nat)}
    (hl : l.Pairwise fun a b => a.2 < b.1) (hv : ∀ b ∈ l, b.1 ≤ b.2) (ha : a ∈ l)
    (h₁ : ¬ Below iv a) (h₂ : ¬ Below a iv) : emplaceList iv l = l := by
  induction l with
  | nil => exact absurd ha List.not_mem_nil
  | cons b bs ih =>
    obtain ⟨hb, hbs⟩ := List.pairwise_cons.mp hl
    obtain ⟨hvb, hvbs⟩ := List.forall_mem_cons.mp hv
    rw [emplaceList]
    rcases List.mem_cons.mp ha with rfl | ha'
    · rw [if_neg h₁, if_neg h₂]
    · have hba := hb a ha'
      have hlt : ¬ Below iv b := by
        intro hlt
        have hlow := hlt.1
        have hhigh := hlt.2
        exact h₁ ⟨by omega, by omega⟩
      rw [if_neg hlt, ih hbs hvbs ha']
      split <;> rfl

/-- An interval that shares a number with the pool is not inserted. -/
theorem emplace_of_overlap {pool : IntervalPool} {low high v : Nat} (hv : v ∈ pool)
    (hlow : low ≤ v) (hhigh : v ≤ high) : pool.emplace low high = pool := by
  obtain ⟨a, ha, hav⟩ := hv
  unfold emplace
  split
  · have hsame : emplaceList (low, high) pool.intervals = pool.intervals :=
      emplaceList_of_overlap pool.sorted pool.valid ha (by simp only [Below]; omega)
        (by simp only [Below]; omega)
    cases pool
    simp_all
  · rfl

/-- No value is lost. -/
theorem mem_emplace_of_mem {pool : IntervalPool} {low high v : Nat} (hv : v ∈ pool) :
    v ∈ pool.emplace low high := by
  unfold emplace
  split
  · obtain ⟨a, ha, hav⟩ := hv
    exact ⟨a, subset_emplaceList ha, hav⟩
  · exact hv

/-- An interval that shares no number with the pool is inserted. -/
theorem mem_emplace_self {pool : IntervalPool} {low high v : Nat} (hlow : low ≤ v)
    (hhigh : v ≤ high) (h : ∀ w ∈ pool, w < low ∨ high < w) : v ∈ pool.emplace low high := by
  unfold emplace
  rw [dif_pos (by omega)]
  refine ⟨(low, high), mem_emplaceList_self fun a ha => ?_, hlow, hhigh⟩
  have hvalid := pool.valid a ha
  have h₁ := h a.1 ⟨a, ha, Nat.le_refl _, hvalid⟩
  have h₂ := h a.2 ⟨a, ha, hvalid, Nat.le_refl _⟩
  have h₃ : a.1 ≤ low → a.2 < low := fun hle => by
    by_contra hge
    have := h low ⟨a, ha, hle, by omega⟩
    omega
  simp only [Below]
  omega

/-- `erase` -/
def erase (pool : IntervalPool) (iv : Nat × Nat) : IntervalPool :=
  ⟨pool.intervals.filter (· ≠ iv), fun a ha => pool.valid a (List.mem_filter.mp ha).1,
    pool.sorted.filter _⟩

/-- One interval is left out. -/
theorem mem_intervals_erase {pool : IntervalPool} {iv a : Nat × Nat} :
    a ∈ (pool.erase iv).intervals ↔ a ∈ pool.intervals ∧ a ≠ iv := by
  simp [erase]

/-- Members that share a number are the same. -/
theorem eq_of_mem_of_mem {pool : IntervalPool} {a b : Nat × Nat} {v : Nat}
    (ha : a ∈ pool.intervals) (hb : b ∈ pool.intervals) (hva : a.1 ≤ v ∧ v ≤ a.2)
    (hvb : b.1 ≤ v ∧ v ≤ b.2) : a = b := by
  by_contra hne
  let Apart : Nat × Nat → Nat × Nat → Prop := fun a b => a.2 < b.1 ∨ b.2 < a.1
  have : Std.Symm Apart := ⟨fun _ _ => Or.symm⟩
  have hapart : pool.intervals.Pairwise Apart := pool.sorted.imp Or.inl
  rcases hapart.forall ha hb hne with h | h <;> omega

/-- What is left after an interval was taken out. -/
theorem mem_erase {pool : IntervalPool} {iv : Nat × Nat} {v : Nat} (hiv : iv ∈ pool.intervals) :
    v ∈ pool.erase iv ↔ v ∈ pool ∧ ¬ (iv.1 ≤ v ∧ v ≤ iv.2) := by
  constructor
  · rintro ⟨a, ha, hv⟩
    obtain ⟨ha, hne⟩ := mem_intervals_erase.mp ha
    exact ⟨⟨a, ha, hv⟩, fun h => hne (eq_of_mem_of_mem ha hiv hv h)⟩
  · rintro ⟨⟨a, ha, hv⟩, hout⟩
    refine ⟨a, mem_intervals_erase.mpr ⟨ha, ?_⟩, hv⟩
    rintro rfl
    exact hout hv

/-- `modify`: the interval is taken out and the new one is inserted in its place,
    unless it overlaps another one. -/
def replace (pool : IntervalPool) (iv : Nat × Nat) (low high : Nat) : IntervalPool :=
  (pool.erase iv).emplace low high

/-- A value after an interval was replaced -/
theorem mem_replace {pool : IntervalPool} {iv : Nat × Nat} {low high v : Nat}
    (hiv : iv ∈ pool.intervals) (h : v ∈ pool.replace iv low high) :
    (v ∈ pool ∧ ¬ (iv.1 ≤ v ∧ v ≤ iv.2)) ∨ (low ≤ v ∧ v ≤ high) :=
  (mem_emplace h).imp_left (mem_erase hiv).mp

/-- An interval that shares no number with the others takes the place of the old one. -/
theorem mem_replace_of_apart {pool : IntervalPool} {iv : Nat × Nat} {low high v : Nat}
    (h : ∀ w ∈ pool.erase iv, w < low ∨ high < w)
    (hv : v ∈ pool.erase iv ∨ (low ≤ v ∧ v ≤ high)) : v ∈ pool.replace iv low high :=
  hv.elim mem_emplace_of_mem fun hv => mem_emplace_self hv.1 hv.2 h

/-! ### The number of members -/

/-- The numbers of the pool. -/
def values (pool : IntervalPool) : List Nat :=
  pool.intervals.flatMap fun iv => List.range' iv.1 (iv.2 + 1 - iv.1)

/-- How many numbers the pool has. -/
def count (pool : IntervalPool) : Nat := (pool.intervals.map fun iv => iv.2 + 1 - iv.1).sum

/-- The values are counted. -/
theorem length_values (pool : IntervalPool) : pool.values.length = pool.count := by
  simp [values, count, List.length_flatMap]

/-- The values are those of the intervals. -/
theorem mem_values {pool : IntervalPool} {v : Nat} : v ∈ pool.values ↔ v ∈ pool := by
  simp only [values, List.mem_flatMap, mem_def, List.mem_range'_1]
  refine exists_congr fun iv => and_congr_right fun hiv => ?_
  have hvalid := pool.valid iv hiv
  omega

/-- No value is listed twice. -/
theorem nodup_values (pool : IntervalPool) : pool.values.Nodup := by
  refine List.nodup_flatMap.mpr ⟨fun iv _ => List.nodup_range', ?_⟩
  refine (List.Pairwise.and_mem.mp pool.sorted).imp fun {a b} h v hva hvb => ?_
  have hvalid := pool.valid b h.2.1
  rw [List.mem_range'_1] at hva hvb
  omega

/-- The count is 0 exactly when the pool is empty. -/
theorem count_eq_zero {pool : IntervalPool} : pool.count = 0 ↔ ∀ v, v ∉ pool := by
  rw [← length_values, List.length_eq_zero_iff, List.eq_nil_iff_forall_not_mem]
  exact forall_congr' fun v => not_congr mem_values

/-- A pool with one more number. -/
theorem count_of_insert {pool pool' : IntervalPool} {v : Nat} (hv : v ∉ pool)
    (h : ∀ w, w ∈ pool' ↔ w ∈ pool ∨ w = v) : pool'.count = pool.count + 1 := by
  have hnodup : (v :: pool.values).Nodup :=
    List.nodup_cons.mpr ⟨fun hmem => hv (mem_values.mp hmem), pool.nodup_values⟩
  have hperm : pool'.values.Perm (v :: pool.values) := by
    refine (List.perm_ext_iff_of_nodup pool'.nodup_values hnodup).mpr fun w => ?_
    rw [mem_values, h, List.mem_cons, mem_values, or_comm]
  rw [← length_values, hperm.length_eq, List.length_cons, length_values]

/-! ### Looking up -/

/-- The first interval. -/
def first (pool : IntervalPool) : Option (Nat × Nat) := pool.intervals.head?

/-- The first interval is one of the pool. -/
theorem mem_first {pool : IntervalPool} {iv : Nat × Nat} (h : pool.first = some iv) :
    iv ∈ pool.intervals := List.mem_of_mem_head? h

/-- The first interval lies below all others. -/
theorem first_lt {pool : IntervalPool} {iv a : Nat × Nat} (h : pool.first = some iv)
    (ha : a ∈ pool.intervals) (hne : a ≠ iv) : iv.2 < a.1 := by
  obtain ⟨l, hl⟩ : ∃ l, pool.intervals = iv :: l := List.head?_eq_some_iff.mp h
  have hsorted := pool.sorted
  rw [hl] at ha hsorted
  exact (List.pairwise_cons.mp hsorted).1 a ((List.mem_cons.mp ha).resolve_left hne)

/-- The first interval begins with the least number. -/
theorem first_le {pool : IntervalPool} {iv : Nat × Nat} {v : Nat} (h : pool.first = some iv)
    (hv : v ∈ pool) : iv.1 ≤ v := by
  obtain ⟨a, ha, hlow, -⟩ := hv
  by_cases heq : a = iv
  · rw [← heq]
    exact hlow
  · have hlt := first_lt h ha heq
    have hvalid := pool.valid iv (mem_first h)
    omega

/-- `find`: the interval that is equivalent to the one-element interval of `v`. -/
def find (pool : IntervalPool) (v : Nat) : Option (Nat × Nat) :=
  pool.intervals.find? fun iv => ¬ Below iv (v, v) ∧ ¬ Below (v, v) iv

/-- Neither interval lies below the other exactly when the value is inside. -/
private theorem equivalent_iff {iv : Nat × Nat} {v : Nat} (h : iv.1 ≤ iv.2) :
    (¬ Below iv (v, v) ∧ ¬ Below (v, v) iv) ↔ iv.1 ≤ v ∧ v ≤ iv.2 := by
  simp only [Below]
  omega

/-- The interval that is found has the value. -/
theorem find_eq_some {pool : IntervalPool} {v : Nat} {iv : Nat × Nat} (h : pool.find v = some iv) :
    iv ∈ pool.intervals ∧ iv.1 ≤ v ∧ v ≤ iv.2 := by
  have hmem := List.mem_of_find?_eq_some h
  have hprop := List.find?_some h
  exact ⟨hmem, (equivalent_iff (pool.valid _ hmem)).mp (by simpa using hprop)⟩

/-- A value of the pool is found. -/
theorem find_isSome {pool : IntervalPool} {v : Nat} : (pool.find v).isSome ↔ v ∈ pool := by
  rw [find, List.find?_isSome, mem_def]
  refine exists_congr fun iv => and_congr_right fun hiv => ?_
  rw [decide_eq_true_iff]
  exact equivalent_iff (pool.valid iv hiv)

/-- The last interval that is not above `v`. -/
def left (pool : IntervalPool) (v : Nat) : Option (Nat × Nat) :=
  (pool.intervals.takeWhile fun iv => ¬ Below (v, v) iv).getLast?

/-- `upper_bound`: the first interval that is above `v`. -/
def right (pool : IntervalPool) (v : Nat) : Option (Nat × Nat) :=
  pool.intervals.find? fun iv => Below (v, v) iv

/-- The left neighbour is one of the intervals. -/
theorem mem_left {pool : IntervalPool} {v : Nat} {iv : Nat × Nat} (h : pool.left v = some iv) :
    iv ∈ pool.intervals :=
  (List.takeWhile_sublist _).subset (List.mem_of_getLast? h)

/-- The left neighbour does not begin above the value. -/
theorem left_le {pool : IntervalPool} {v : Nat} {iv : Nat × Nat} (h : pool.left v = some iv) :
    iv.1 ≤ v := by
  have hall := List.all_eq_true.mp List.all_takeWhile iv (List.mem_of_getLast? h)
  have hnot : ¬ Below (v, v) iv := by simpa using hall
  simp only [Below] at hnot
  omega

/-- All other intervals lie below `left`, or above `v`. -/
theorem left_last {pool : IntervalPool} {v : Nat} {iv a : Nat × Nat} (h : pool.left v = some iv)
    (ha : a ∈ pool.intervals) (hne : a ≠ iv) : a.2 < iv.1 ∨ v < a.1 := by
  obtain ⟨l, hl⟩ := List.getLast?_eq_some_iff.mp h
  have hsplit := List.takeWhile_append_dropWhile (l := pool.intervals)
    (p := fun iv => ¬ Below (v, v) iv)
  by_cases hlow : a.1 ≤ v
  · left
    have hsorted := pool.sorted
    rw [← hsplit] at ha hsorted
    obtain ⟨htake, -, hcross⟩ := List.pairwise_append.mp hsorted
    -- the intervals below come first, and the left neighbour is the last of them
    rcases List.mem_append.mp ha with ha | ha
    · rw [hl] at ha htake
      obtain ⟨-, -, hlast⟩ := List.pairwise_append.mp htake
      rcases List.mem_append.mp ha with ha | ha
      · exact hlast a ha iv (List.mem_singleton_self _)
      · exact absurd (List.mem_singleton.mp ha) hne
    · -- the first interval of the rest is above `v`, and `a` is not below it
      obtain ⟨d, ds, hd⟩ := List.exists_cons_of_ne_nil (List.ne_nil_of_mem ha)
      have hhead : Below (v, v) d := by
        have hnot := List.head?_dropWhile_not (fun iv => decide (¬ Below (v, v) iv)) pool.intervals
        rw [hd] at hnot
        simpa using hnot
      have hdrop := (List.pairwise_append.mp hsorted).2.1
      rw [hd] at ha hdrop
      have hdv := pool.valid d (by rw [← hsplit, hd]; simp)
      have hvd := hhead.1
      rcases List.mem_cons.mp ha with rfl | ha
      · simp only at hvd
        omega
      · have hda := (List.pairwise_cons.mp hdrop).1 a ha
        simp only at hvd
        omega
  · exact .inr (by omega)

/-- Without an interval on the left all intervals lie above `v`. -/
theorem lt_of_left_none {pool : IntervalPool} {v : Nat} (h : pool.left v = none) {a : Nat × Nat}
    (ha : a ∈ pool.intervals) : v < a.1 := by
  have htake : pool.intervals.takeWhile (fun iv => ¬ Below (v, v) iv) = [] :=
    List.getLast?_eq_none_iff.mp h
  obtain ⟨d, ds, hd⟩ := List.exists_cons_of_ne_nil (List.ne_nil_of_mem ha)
  have hsorted := pool.sorted
  have hdv := pool.valid d (by rw [hd]; simp)
  rw [hd] at ha hsorted htake
  have hhead : Below (v, v) d := by
    by_contra hnot
    simp [hnot] at htake
  have hvd : v < d.1 := hhead.1
  rcases List.mem_cons.mp ha with rfl | ha
  · exact hvd
  · have hda := (List.pairwise_cons.mp hsorted).1 a ha
    omega

/-- The right neighbour is one of the intervals, and begins above the value. -/
theorem mem_right {pool : IntervalPool} {v : Nat} {iv : Nat × Nat} (h : pool.right v = some iv) :
    iv ∈ pool.intervals ∧ v < iv.1 := by
  have hprop : Below (v, v) iv := by simpa using List.find?_some h
  exact ⟨List.mem_of_find?_eq_some h, hprop.1⟩

/-- All other intervals lie above `right`, or begin at or below `v`. -/
theorem right_first {pool : IntervalPool} {v : Nat} {iv a : Nat × Nat}
    (h : pool.right v = some iv) (ha : a ∈ pool.intervals) (hne : a ≠ iv) :
    a.1 ≤ v ∨ iv.2 < a.1 := by
  obtain ⟨-, as, bs, hsplit, has⟩ := List.find?_eq_some_iff_append.mp h
  have hsorted := pool.sorted
  rw [hsplit] at ha hsorted
  rcases List.mem_append.mp ha with ha | ha
  · left
    have hnot : ¬ Below (v, v) a := by simpa using has a ha
    simp only [Below] at hnot
    omega
  · right
    have hcons := (List.pairwise_append.mp hsorted).2.1
    rcases List.mem_cons.mp ha with rfl | ha
    · exact absurd rfl hne
    · exact (List.pairwise_cons.mp hcons).1 a ha

/-! ### Intervals that do not touch -/

/-- The number after an interval is not in the pool. -/
def Apart (pool : IntervalPool) : Prop := ∀ iv ∈ pool.intervals, iv.2 + 1 ∉ pool

/-- A single interval touches no other. -/
theorem apart_singleton {low high : Nat} (h : low ≤ high) : (singleton low high h).Apart := by
  intro iv hiv hmem
  obtain rfl := List.mem_singleton.mp hiv
  have := ((mem_singleton h).mp hmem).2
  omega

/-- Between two intervals that do not touch there is a number that is not in the pool. -/
theorem Apart.pairwise {pool : IntervalPool} (h : pool.Apart) :
    pool.intervals.Pairwise fun a b => a.2 + 1 < b.1 := by
  refine (List.Pairwise.and_mem.mp pool.sorted).imp fun {a b} hab => ?_
  obtain ⟨ha, hb, hlt⟩ := hab
  have hvalid := pool.valid b hb
  have hne : a.2 + 1 ≠ b.1 := fun heq => h a ha ⟨b, hb, by omega, by omega⟩
  omega

/-- A smaller pool is apart if its intervals end where others ended, or where a number is
    missing now. -/
theorem Apart.of_ends {pool pool' : IntervalPool} (h : pool.Apart) (hsub : ∀ v ∈ pool', v ∈ pool)
    (hends : ∀ a ∈ pool'.intervals, a.2 + 1 ∉ pool' ∨ ∃ b ∈ pool.intervals, b.2 = a.2) :
    pool'.Apart := by
  intro a ha hmem
  rcases hends a ha with hout | ⟨b, hb, heq⟩
  · exact hout hmem
  · exact h b hb (by rw [heq]; exact hsub _ hmem)

/-- An interval after one was added -/
theorem mem_intervals_emplace {pool : IntervalPool} {low high : Nat} {a : Nat × Nat}
    (h : a ∈ (pool.emplace low high).intervals) : a = (low, high) ∨ a ∈ pool.intervals := by
  unfold emplace at h
  split at h
  · exact mem_of_mem_emplaceList h
  · exact .inr h

/-- An interval after one was replaced -/
theorem mem_intervals_replace {pool : IntervalPool} {iv a : Nat × Nat} {low high : Nat}
    (h : a ∈ (pool.replace iv low high).intervals) :
    a = (low, high) ∨ a ∈ pool.intervals ∧ a ≠ iv :=
  (mem_intervals_emplace h).imp_right mem_intervals_erase.mp

/-- An interval that ends right below a number that is not in the pool is the one on its left. -/
theorem left_of_touch {pool : IntervalPool} {v : Nat} {a : Nat × Nat} (ha : a ∈ pool.intervals)
    (hv : v ∉ pool) (h : a.2 + 1 = v) : pool.left v = some a := by
  have hvalid := pool.valid a ha
  cases hleft : pool.left v with
  | none =>
    have := lt_of_left_none hleft ha
    omega
  | some itl =>
    by_contra hne
    have hitl := mem_left hleft
    have hle := left_le hleft
    have hvalidl := pool.valid itl hitl
    rcases left_last hleft ha (fun heq => hne (congrArg some heq.symm)) with hlt | hlt
    · exact hv ⟨itl, hitl, by omega, by omega⟩
    · omega

/-- An interval that begins right above a number is the one on its right. -/
theorem right_of_touch {pool : IntervalPool} {v : Nat} {a : Nat × Nat} (ha : a ∈ pool.intervals)
    (h : v + 1 = a.1) : pool.right v = some a := by
  have hvalid := pool.valid a ha
  cases hright : pool.right v with
  | none =>
    have hnot : ¬ Below (v, v) a := by simpa using List.find?_eq_none.mp hright a ha
    simp only [Below] at hnot
    omega
  | some itr =>
    by_contra hne
    have hitr := mem_right hright
    have hvalidr := pool.valid itr hitr.1
    rcases right_first hright ha (fun heq => hne (congrArg some heq.symm)) with hlt | hlt
    all_goals omega

end IntervalPool
