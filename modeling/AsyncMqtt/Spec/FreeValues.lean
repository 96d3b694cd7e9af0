import AsyncMqtt.ForStd.Run
import AsyncMqtt.Native.Connection
import AsyncMqtt.Spec.PacketIdCorrect
import Mathlib.Order.Bounds.Basic

/-!
# The value allocator as a set of free values

What `value_allocator` is for: it keeps a set of free values and gives out the least one. The
intervals are one way to keep the set. They never touch each other, so an interval ends where
the next value is in use, and this is what makes the branches of `deallocate` complete.

## Key results

- `ValueAllocator.apart_deallocate`, `ValueAllocator.apart_use`, `ValueAllocator.apart_allocate`:
  the intervals stay apart
- `ValueAllocator.Refines.next`: one call of the allocator is one step of the set
- `ValueAllocator.refines_freeValues`: every sequence of calls
-/

namespace AsyncMqtt

namespace ValueAllocator

variable {lowest highest : Nat}

/-- A call that changes the allocator. Values are given back within the range, which the allocator
    asserts; any value of the type can be declared as used. -/
inductive Op (lowest highest : Nat) where
  | allocate
  | use (value : Fin (2 ^ 16))
  | deallocate (value : Nat) (h : lowest ≤ value ∧ value ≤ highest)
  | clear

/-- The allocator after a call. -/
def next (va : ValueAllocator .two) : Op lowest highest → ValueAllocator .two
  | .allocate => va.allocate.2
  | .use value => (va.use value).2
  | .deallocate value _ => va.deallocate value
  | .clear => va.clear

end ValueAllocator

/-! ### The set of free values -/

namespace FreeValues

variable {lowest highest : Nat}

/-- The free values after a call. -/
def next (free : Set Nat) : ValueAllocator.Op lowest highest → Set Nat
  | .allocate => {v ∈ free | ¬ IsLeast free v}
  | .use value => free \ {value.val}
  | .deallocate value _ => insert value free
  | .clear => Set.Icc lowest highest

/-- The least free value, or none if no value is free. -/
def Least (free : Set Nat) : Option Nat → Prop
  | some v => IsLeast free v
  | none => free = ∅

end FreeValues

namespace ValueAllocator

variable {va : ValueAllocator .two} {v : Nat}

/-! ### The first interval -/

/-- The first interval begins with the least number of the pool. -/
theorem isLeast_first {iv : Nat × Nat} (h : va.pool.first = some iv) :
    IsLeast {w | w ∈ va.pool} iv.1 := by
  have hiv := IntervalPool.mem_first h
  refine ⟨⟨iv, hiv, Nat.le_refl _, va.pool.valid iv hiv⟩, ?_⟩
  intro w hw
  exact IntervalPool.first_le h hw

/-- Without a first interval there are no values. -/
theorem first_eq_none (h : va.pool.first = none) (w : Nat) : w ∉ va.pool := by
  rintro ⟨a, ha, -⟩
  rw [IntervalPool.first, List.head?_eq_none_iff] at h
  rw [h] at ha
  cases ha

/-! ### What the calls do to the pool -/

/-- Declaring a value as used takes this value away and no other. -/
theorem mem_use_iff {w : Nat} : w ∈ (va.use v).2.pool ↔ w ∈ va.pool ∧ w ≠ v := by
  constructor
  · intro hw
    rcases huse : va.use v with ⟨ok, va'⟩
    rw [huse] at hw
    cases ok with
    | true => exact (mem_use huse nofun fun hwrap => nomatch hwrap.1).2 w hw
    | false =>
      obtain ⟨rfl, hv⟩ := use_false huse
      exact ⟨hw, fun heq => hv (heq ▸ hw)⟩
  · rintro ⟨hw, hne⟩
    exact mem_use_of_ne hw hne fun _ => rfl

/-- An allocation takes the first vacant value. -/
theorem mem_allocate_iff {w : Nat} (hrange : ∀ x ∈ va.pool, x < 2 ^ 16) :
    w ∈ va.allocate.2.pool ↔ w ∈ va.pool ∧ va.firstVacant ≠ some w := by
  rcases halloc : va.allocate with ⟨out, va'⟩
  have hout : va.firstVacant = out := by rw [← allocate_fst, halloc]
  rw [hout]
  cases out with
  | none =>
    rw [allocate_none halloc]
    simp
  | some x =>
    have hmem := mem_allocate halloc hrange fun hwrap => nomatch hwrap.1
    refine ⟨fun hw => ?_, fun hw => mem_allocate_of_ne halloc hw.1 fun heq => hw.2 (heq ▸ rfl)⟩
    exact ⟨(hmem.2 w hw).1, fun heq => (hmem.2 w hw).2 (Option.some.inj heq).symm⟩

/-! ### The intervals stay apart -/

/-- An allocation keeps the intervals apart. -/
theorem apart_allocate (h : va.pool.Apart) (hrange : ∀ x ∈ va.pool, x < 2 ^ 16) :
    va.allocate.2.pool.Apart := by
  refine h.of_ends (fun w hw => ((mem_allocate_iff hrange).mp hw).1) fun a ha => .inr ?_
  rcases halloc : va.allocate with ⟨out, va'⟩
  rw [halloc] at ha
  cases out with
  | none =>
    obtain rfl := allocate_none halloc
    exact ⟨a, ha, rfl⟩
  | some v =>
    obtain ⟨iv, hfirst, -, hpool⟩ := allocate_some halloc
    rw [hpool] at ha
    split at ha
    · rcases IntervalPool.mem_intervals_replace ha with rfl | ha
      · exact ⟨iv, IntervalPool.mem_first hfirst, rfl⟩
      · exact ⟨a, ha.1, rfl⟩
    · exact ⟨a, (IntervalPool.mem_intervals_erase.mp ha).1, rfl⟩

/-- A use keeps the intervals apart. -/
theorem apart_use (h : va.pool.Apart) : (va.use v).2.pool.Apart := by
  refine h.of_ends (fun w hw => (mem_use_iff.mp hw).1) fun a ha => ?_
  by_cases hend : a.2 + 1 = v
  · exact .inl fun hmem => (mem_use_iff.mp hmem).2 hend
  refine .inr ?_
  unfold use at ha
  cases hfind : va.pool.find v with
  | none =>
    rw [hfind] at ha
    exact ⟨a, ha, rfl⟩
  | some iv =>
    rw [hfind] at ha
    obtain ⟨hiv, hlow, hhigh⟩ := IntervalPool.find_eq_some hfind
    dsimp only at ha
    -- the lower part ends right below `v`
    have hlower : a ∈ (if iv.1 < v then (va.pool.erase iv).emplace iv.1 (v - 1)
        else va.pool.erase iv).intervals → ∃ b ∈ va.pool.intervals, b.2 = a.2 := by
      intro ha
      split at ha
      · rcases IntervalPool.mem_intervals_emplace ha with rfl | ha
        · simp only at hend
          omega
        · exact ⟨a, (IntervalPool.mem_intervals_erase.mp ha).1, rfl⟩
      · exact ⟨a, (IntervalPool.mem_intervals_erase.mp ha).1, rfl⟩
    split at ha
    · rcases IntervalPool.mem_intervals_emplace ha with rfl | ha
      · exact ⟨iv, hiv, rfl⟩
      · exact hlower ha
    · exact hlower ha

/-- Giving a value back joins it with the intervals that it touches. -/
theorem apart_deallocate (h : va.pool.Apart) (hv : v ∉ va.pool) :
    (va.deallocate v).pool.Apart := by
  have hplus : ∀ w, plusOne .two w = w + 1 := fun _ => rfl
  -- where `v` touches an interval, this is the one on its left or on its right
  have hleft : ∀ a ∈ va.pool.intervals, a.2 + 1 = v → va.pool.left v = some a :=
    fun a ha heq => IntervalPool.left_of_touch ha hv heq
  have hright : v + 1 ∈ va.pool → ∃ b, va.pool.right v = some b ∧ v + 1 = b.1 := by
    rintro ⟨b, hb, hlow, hhigh⟩
    have hne : ¬ b.1 ≤ v := fun hle => hv ⟨b, hb, hle, by omega⟩
    have heq : v + 1 = b.1 := by omega
    exact ⟨b, IntervalPool.right_of_touch hb heq, heq⟩
  -- so it is enough that an interval ends neither below `v` nor below another number
  suffices hends : ∀ a ∈ (va.deallocate v).pool.intervals, a.2 + 1 ∉ va.pool ∧ a.2 + 1 ≠ v by
    intro a ha hmem
    obtain ⟨hout, hne⟩ := hends a ha
    exact (mem_deallocate hmem).elim hout hne
  intro a ha
  unfold deallocate at ha
  simp only [hplus] at ha
  split at ha
  · next hl hr =>
    have hnone : v + 1 ∉ va.pool := fun hmem => by
      obtain ⟨b, hb, -⟩ := hright hmem
      exact nomatch hr.symm.trans hb
    rcases IntervalPool.mem_intervals_emplace ha with rfl | ha
    · exact ⟨hnone, Nat.succ_ne_self v⟩
    · exact ⟨h a ha, fun heq => nomatch hl.symm.trans (hleft a ha heq)⟩
  · next itl hl hr =>
    have hnone : v + 1 ∉ va.pool := fun hmem => by
      obtain ⟨b, hb, -⟩ := hright hmem
      exact nomatch hr.symm.trans hb
    split at ha
    · rcases IntervalPool.mem_intervals_replace ha with rfl | ⟨ha, hne⟩
      · exact ⟨hnone, Nat.succ_ne_self v⟩
      · exact ⟨h a ha, fun heq => hne (Option.some.inj ((hleft a ha heq).symm.trans hl))⟩
    · next htouch =>
      rcases IntervalPool.mem_intervals_emplace ha with rfl | ha
      · exact ⟨hnone, Nat.succ_ne_self v⟩
      · refine ⟨h a ha, fun heq => htouch ?_⟩
        rw [← Option.some.inj ((hleft a ha heq).symm.trans hl)]
        exact heq
  · next itr hl hr =>
    have hitr := IntervalPool.mem_right hr
    have hvalid := va.pool.valid itr hitr.1
    split at ha
    · rcases IntervalPool.mem_intervals_replace ha with rfl | ⟨ha, hne⟩
      · exact ⟨h itr hitr.1, by dsimp only; omega⟩
      · exact ⟨h a ha, fun heq => nomatch hl.symm.trans (hleft a ha heq)⟩
    · next htouch =>
      rcases IntervalPool.mem_intervals_emplace ha with rfl | ha
      · refine ⟨fun hmem => ?_, Nat.succ_ne_self v⟩
        obtain ⟨b, hb, heq⟩ := hright hmem
        exact htouch (Option.some.inj (hr.symm.trans hb) ▸ heq)
      · exact ⟨h a ha, fun heq => nomatch hl.symm.trans (hleft a ha heq)⟩
  · next itl itr hl hr =>
    have hitr := IntervalPool.mem_right hr
    have hvalid := va.pool.valid itr hitr.1
    -- an interval that is left as it is does not end below `v`
    have hkept : ∀ a ∈ va.pool.intervals, a ≠ itl → a.2 + 1 ∉ va.pool ∧ a.2 + 1 ≠ v :=
      fun a ha hne => ⟨h a ha, fun heq => hne (Option.some.inj ((hleft a ha heq).symm.trans hl))⟩
    have hnone : v + 1 ≠ itr.1 → v + 1 ∉ va.pool := fun htouch hmem => by
      obtain ⟨b, hb, heq⟩ := hright hmem
      exact htouch (Option.some.inj (hr.symm.trans hb) ▸ heq)
    split at ha
    · next htouchl =>
      split at ha
      · rcases IntervalPool.mem_intervals_replace ha with rfl | ⟨ha, hne⟩
        · exact ⟨h itr hitr.1, by dsimp only; omega⟩
        · exact hkept a (IntervalPool.mem_intervals_erase.mp ha).1 hne
      · next htouchr =>
        rcases IntervalPool.mem_intervals_replace ha with rfl | ⟨ha, hne⟩
        · exact ⟨hnone htouchr, Nat.succ_ne_self v⟩
        · exact hkept a ha hne
    · next htouchl =>
      have hkept' : ∀ a ∈ va.pool.intervals, a.2 + 1 ∉ va.pool ∧ a.2 + 1 ≠ v := by
        intro a ha
        refine ⟨h a ha, fun heq => htouchl ?_⟩
        rw [← Option.some.inj ((hleft a ha heq).symm.trans hl)]
        exact heq
      split at ha
      · rcases IntervalPool.mem_intervals_replace ha with rfl | ⟨ha, -⟩
        · exact ⟨h itr hitr.1, by dsimp only; omega⟩
        · exact hkept' a ha
      · next htouchr =>
        rcases IntervalPool.mem_intervals_emplace ha with rfl | ha
        · exact ⟨hnone htouchr, Nat.succ_ne_self v⟩
        · exact hkept' a ha

/-- Giving back a free value changes nothing. -/
theorem deallocate_of_mem (h : va.pool.Apart) (hv : v ∈ va.pool) : va.deallocate v = va := by
  have hplus : ∀ w, plusOne .two w = w + 1 := fun _ => rfl
  have hsame : ({ va with pool := va.pool.emplace v v } : ValueAllocator .two) = va := by
    rw [IntervalPool.emplace_of_overlap hv (Nat.le_refl v) (Nat.le_refl v)]
  -- an interval does not end below `v`
  have hleft : ∀ itl, va.pool.left v = some itl → itl.2 + 1 ≠ v := fun itl hl heq =>
    h itl (IntervalPool.mem_left hl) (heq ▸ hv)
  -- and none begins above `v`, since the one of `v` would end at `v`
  have hright : ∀ itr, va.pool.right v = some itr → v + 1 ≠ itr.1 := by
    intro itr hr heq
    obtain ⟨a, ha, hlow, hhigh⟩ := hv
    have hitr := IntervalPool.mem_right hr
    have hvalid := va.pool.valid itr hitr.1
    have hne : a ≠ itr := fun h => by
      rw [h] at hlow
      omega
    have hlt := (IntervalPool.right_first hr ha hne)
    have hend : a.2 + 1 ∉ va.pool := h a ha
    by_cases heqv : a.2 = v
    · exact hend ⟨itr, hitr.1, by omega, by omega⟩
    · have heqi := IntervalPool.eq_of_mem_of_mem ha hitr.1 (v := v + 1) (by omega) (by omega)
      exact hne heqi
  unfold deallocate
  simp only [hplus]
  split
  · exact hsame
  · next itl hl hr =>
    rw [if_neg (hleft itl hl)]
    exact hsame
  · next itr hl hr =>
    rw [if_neg (hright itr hr)]
    exact hsame
  · next itl itr hl hr =>
    rw [if_neg (hleft itl hl), if_neg (hright itr hr)]
    exact hsame

/-! ### Refinement -/

/-- The allocator keeps the set of free values. -/
structure Refines (lowest highest : Nat) (va : ValueAllocator .two) (free : Set Nat) : Prop where
  lowest_eq : va.lowest = lowest
  highest_eq : va.highest = highest
  limit : highest ≤ 65535
  apart : va.pool.Apart
  range : ∀ w ∈ va.pool, lowest ≤ w ∧ w ≤ highest
  mem : ∀ w, w ∈ va.pool ↔ w ∈ free

variable {lowest highest : Nat} {free : Set Nat}

/-- A new allocator refines the whole range. -/
theorem refines_make (h : lowest ≤ highest) (hlimit : highest ≤ 65535) :
    Refines lowest highest (make .two lowest highest h) (Set.Icc lowest highest) where
  lowest_eq := rfl
  highest_eq := rfl
  limit := hlimit
  apart := IntervalPool.apart_singleton h
  range _ hw := (IntervalPool.mem_singleton h).mp hw
  mem _ := IntervalPool.mem_singleton h

/-- A free value fits the type. -/
theorem Refines.lt_limit (h : Refines lowest highest va free) : ∀ w ∈ va.pool, w < 2 ^ 16 := by
  intro w hw
  have hlimit := h.limit
  have hhigh := (h.range w hw).2
  omega

/-- The least free value begins the first interval. -/
theorem Refines.least_firstVacant (h : Refines lowest highest va free) :
    FreeValues.Least free va.firstVacant := by
  have hset : {w | w ∈ va.pool} = free := Set.ext h.mem
  rw [firstVacant]
  cases hfirst : va.pool.first with
  | none =>
    exact Set.eq_empty_of_forall_notMem fun w hw => first_eq_none hfirst w ((h.mem w).mpr hw)
  | some iv => exact hset ▸ isLeast_first hfirst

/-- A value is taken as the first vacant one if and only if it is the least free one. -/
theorem Refines.firstVacant_iff (h : Refines lowest highest va free) {w : Nat} :
    va.firstVacant = some w ↔ IsLeast free w := by
  have hleast := h.least_firstVacant
  constructor
  · intro hsome
    rwa [hsome] at hleast
  · intro hw
    cases hfirst : va.firstVacant with
    | none =>
      rw [hfirst] at hleast
      have hmem : w ∈ free := hw.1
      rw [show free = ∅ from hleast] at hmem
      exact nomatch hmem
    | some x =>
      rw [hfirst] at hleast
      exact congrArg some (IsLeast.unique hleast hw)

/-- An allocation takes the least free value. -/
theorem refines_allocate (h : Refines lowest highest va free) :
    Refines lowest highest va.allocate.2 {w ∈ free | ¬ IsLeast free w} where
  lowest_eq := by rw [lowest_allocate, h.lowest_eq]
  highest_eq := by rw [highest_allocate, h.highest_eq]
  limit := h.limit
  apart := apart_allocate h.apart h.lt_limit
  range w hw := h.range w ((mem_allocate_iff h.lt_limit).mp hw).1
  mem w := by
    rw [mem_allocate_iff h.lt_limit, h.mem, ne_eq, h.firstVacant_iff]
    rfl

/-- A use takes its value. -/
theorem refines_use (h : Refines lowest highest va free) (v : Nat) :
    Refines lowest highest (va.use v).2 (free \ {v}) where
  lowest_eq := by rw [lowest_use, h.lowest_eq]
  highest_eq := by rw [highest_use, h.highest_eq]
  limit := h.limit
  apart := apart_use h.apart
  range w hw := h.range w (mem_use_iff.mp hw).1
  mem w := by
    rw [mem_use_iff, h.mem]
    rfl

/-- A deallocation gives its value back. -/
theorem refines_deallocate (h : Refines lowest highest va free)
    (hv : lowest ≤ v ∧ v ≤ highest) :
    Refines lowest highest (va.deallocate v) (insert v free) := by
  by_cases hfree : v ∈ va.pool
  · rw [deallocate_of_mem h.apart hfree, Set.insert_eq_of_mem ((h.mem v).mp hfree)]
    exact h
  · have hmem : ∀ w, w ∈ (va.deallocate v).pool ↔ w ∈ va.pool ∨ w = v :=
      fun w => ⟨mem_deallocate, mem_deallocate_of hfree⟩
    refine ⟨h.lowest_eq, h.highest_eq, h.limit, apart_deallocate h.apart hfree, fun w hw => ?_,
      fun w => ?_⟩
    · rcases (hmem w).mp hw with hw | rfl
      · exact h.range w hw
      · exact hv
    · rw [hmem, h.mem, Set.mem_insert_iff, or_comm]

/-- A clear gives all values back. -/
theorem refines_clear (h : Refines lowest highest va free) :
    Refines lowest highest va.clear (Set.Icc lowest highest) := by
  have hmem : ∀ w, w ∈ va.clear.pool ↔ lowest ≤ w ∧ w ≤ highest := by
    intro w
    rw [← h.lowest_eq, ← h.highest_eq]
    exact IntervalPool.mem_singleton va.inRange
  exact ⟨h.lowest_eq, h.highest_eq, h.limit, IntervalPool.apart_singleton va.inRange,
    fun w hw => (hmem w).mp hw, hmem⟩

/-- One call of the allocator is one step of the set. -/
theorem Refines.next (h : Refines lowest highest va free) (op : Op lowest highest) :
    Refines lowest highest (va.next op) (FreeValues.next free op) := by
  cases op with
  | allocate => exact refines_allocate h
  | use value => exact refines_use h value
  | deallocate value hvalue => exact refines_deallocate h hvalue
  | clear => exact refines_clear h

/-- Every run refines the free values. -/
theorem Refines.run (h : Refines lowest highest va free) (ops : List (Op lowest highest)) :
    Refines lowest highest (Run.final ValueAllocator.next va ops)
      (Run.final FreeValues.next free ops) := by
  induction ops generalizing va free with
  | nil => exact h
  | cons op ops ih => exact ih (h.next op)

/-- What can be seen of an allocator whose free values are these. -/
structure Shows (lowest highest : Nat) (va : ValueAllocator .two) (free : Set Nat) : Prop where
  /-- the intervals are disjoint and do not touch -/
  apart : va.pool.intervals.Pairwise fun a b => a.2 + 1 < b.1
  within : ∀ iv ∈ va.pool.intervals, lowest ≤ iv.1 ∧ iv.1 ≤ iv.2 ∧ iv.2 ≤ highest
  union : ∀ v, (∃ iv ∈ va.pool.intervals, iv.1 ≤ v ∧ v ≤ iv.2) ↔ v ∈ free
  allocate : FreeValues.Least free va.allocate.1
  firstVacant : FreeValues.Least free va.firstVacant
  use : ∀ v : Fin (2 ^ 16), (va.use v).1 = true ↔ v.val ∈ free ∧ lowest ≤ v.val ∧ v.val ≤ highest
  isUsed : ∀ v, lowest ≤ v ∧ v ≤ highest → (va.isUsed v = true ↔ v ∉ free)
  deallocate : ∀ v ∈ free, va.deallocate v = va
  /-- `acquire_unique_packet_id` of a connection with these packet identifiers: only they change, as
      `allocate` changes them. -/
  acquire : ∀ (role : Role) (c : Connection role .two), c.pidMan = va →
    FreeValues.Least free c.acquireUniquePacketId.1 ∧
      c.acquireUniquePacketId.2 = { c with pidMan := va.allocate.2 }

/-- What is returned is told by the free values. -/
theorem Refines.shows (h : Refines lowest highest va free) : Shows lowest highest va free where
  apart := h.apart.pairwise
  within iv hiv := by
    have hvalid := va.pool.valid iv hiv
    have hlow := h.range iv.1 ⟨iv, hiv, Nat.le_refl _, hvalid⟩
    have hhigh := h.range iv.2 ⟨iv, hiv, hvalid, Nat.le_refl _⟩
    omega
  union := h.mem
  allocate := by
    rw [allocate_fst]
    exact h.least_firstVacant
  firstVacant := h.least_firstVacant
  use v := by
    rw [use_fst, ← h.mem]
    exact ⟨fun hv => ⟨hv, h.range v hv⟩, fun hv => hv.1⟩
  isUsed v _ := by rw [isUsed_iff, h.mem]
  deallocate v hv := deallocate_of_mem h.apart ((h.mem v).mpr hv)
  acquire role c hc := by
    have hfst : c.acquireUniquePacketId.1 = va.allocate.1 := by rw [← hc]; rfl
    rw [hfst, allocate_fst]
    refine ⟨h.least_firstVacant, ?_⟩
    rw [← hc]
    rfl

/-- After any sequence of calls the allocator shows the set of the values that are not in use. -/
theorem refines_freeValues {lowest highest : Nat} (h : lowest ≤ highest)
    (hlimit : highest ≤ 65535) (ops : List (Op lowest highest)) :
    Shows lowest highest (Run.final ValueAllocator.next (make .two lowest highest h) ops)
      (Run.final FreeValues.next (Set.Icc lowest highest) ops) :=
  ((refines_make h hlimit).run ops).shows

/-- A run on the values from one to three -/
theorem refines_freeValues_three :
    let ops : List (Op 1 3) :=
      [.use 2, .allocate, .deallocate 2 (by decide), .deallocate 2 (by decide), .allocate]
    Shows 1 3 (Run.final ValueAllocator.next (make .two 1 3 (by decide)) ops)
      (Run.final FreeValues.next (Set.Icc 1 3) ops) :=
  refines_freeValues (by decide) (by decide) _

-- the value that is given back joins the intervals on both sides
example : (Run.final ValueAllocator.next (make .two 1 3 (by decide))
    ([.use 2, .deallocate 2 (by decide)] : List (Op 1 3))).pool.intervals = [(1, 3)] := by decide

end ValueAllocator

end AsyncMqtt
