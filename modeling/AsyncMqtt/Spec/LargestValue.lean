import AsyncMqtt.ForStd.Run
import AsyncMqtt.Spec.PacketIdCorrect

/-!
# The largest value of a four-byte allocator

`value_allocator<std::uint32_t>` under any calls on values in its range. It looks
for the values that remain of an interval with `value + 1`, which is 0 for the
largest value of the type. Every call does what it should, unless it takes the
largest value of the type while no other value is vacant.

## Key results

- `ValueAllocator.InRange.next`: what a call that spares the largest value keeps
- `ValueAllocator.keeps_iff`: such calls are the ones that keep the allocator right
- `ValueAllocator.madeInside_iff`: when also the intervals are in the range that the
  pool does not take
-/

namespace AsyncMqtt

namespace ValueAllocator

variable {lowest highest : Nat}

/-! ### Calls -/

/-- A call that changes the allocator, on a value in its range. -/
inductive Call (lowest highest : Nat) where
  | allocate
  | use (value : Nat) (h : lowest ≤ value ∧ value ≤ highest)
  | deallocate (value : Nat) (h : lowest ≤ value ∧ value ≤ highest)
  | clear

/-- An allocator, and the values that the calls have taken and not given back. -/
structure Usage where
  allocator : ValueAllocator .four
  used : List Nat

/-- The largest four-byte value -/
def largest : Nat := 2 ^ 32 - 1

namespace Usage

/-- A new allocator -/
def start (h : lowest ≤ highest) : Usage := ⟨make .four lowest highest h, []⟩

/-- The value that a call gives out -/
def result (s : Usage) : Call lowest highest → Option Nat
  | .allocate => s.allocator.allocate.1
  | .use .. | .deallocate .. | .clear => none

/-- What is left after a call -/
def next (s : Usage) : Call lowest highest → Usage
  | .allocate => ⟨s.allocator.allocate.2, s.allocator.allocate.1.toList ++ s.used⟩
  | .use value _ =>
    ⟨(s.allocator.use value).2, if (s.allocator.use value).1 then value :: s.used else s.used⟩
  | .deallocate value _ => ⟨s.allocator.deallocate value, s.used.filter (· ≠ value)⟩
  | .clear => ⟨s.allocator.clear, []⟩

/-- The changes of the pool in a call -/
def changes (s : Usage) : Call lowest highest → List PoolChange
  | .allocate => s.allocator.allocateChanges
  | .use value _ => s.allocator.useChanges value
  | .deallocate value _ => s.allocator.deallocateChanges value
  | .clear => s.allocator.clearChanges

/-- The assertions of a call hold. -/
def Asserts (s : Usage) : Call lowest highest → Prop
  | .allocate => s.allocator.AllocateAsserts
  | .deallocate value _ => s.allocator.DeallocateAsserts value
  | .use .. | .clear => True

/-- The changes of a call lead from the pool before it to the pool after it. -/
theorem pool_next (s : Usage) (c : Call lowest highest) :
    (s.next c).allocator.pool = (s.changes c).foldl PoolChange.apply s.allocator.pool := by
  cases c with
  | allocate => exact pool_allocate s.allocator
  | use value _ => exact pool_use s.allocator value
  | deallocate value _ => exact pool_deallocate s.allocator value
  | clear => exact pool_clear s.allocator

end Usage

/-! ### What is asked of a call -/

/-- The bounds of an interval are in the range, and in order. -/
def Inside (lowest highest : Nat) (iv : Nat × Nat) : Prop :=
  lowest ≤ iv.1 ∧ iv.1 ≤ iv.2 ∧ iv.2 ≤ highest

/-- A call keeps the allocator right: the assertions hold, a value that is given out is in the range
    and not in use, the intervals of the pool are in the range, and no value in use is vacant, so
    that it cannot be given out. -/
structure Keeps (s : Usage) (c : Call lowest highest) : Prop where
  asserts : s.Asserts c
  result : ∀ v ∈ s.result c, lowest ≤ v ∧ v ≤ highest ∧ v ∉ s.used
  inside : ∀ iv ∈ (s.next c).allocator.pool.intervals, Inside lowest highest iv
  unused : ∀ v ∈ (s.next c).used, v ∉ (s.next c).allocator.pool

/-- Also the intervals that the pool does not take are in the range. -/
def MadeInside (s : Usage) (c : Call lowest highest) : Prop :=
  ∀ iv ∈ (s.changes c).filterMap PoolChange.made, Inside lowest highest iv

/-- The largest value of the type is not taken as the only vacant one. -/
def Spares (s : Usage) : Call lowest highest → Prop
  | .allocate => s.allocator.firstVacant ≠ some largest
  | .use value _ => value = largest → s.allocator.firstVacant ≠ some largest
  | .deallocate .. | .clear => True

/-- If the largest value of the type is taken with `use`, then 0 is in the range. -/
def FromZero (s : Usage) : Call lowest highest → Prop
  | .use value _ => value = largest → value ∈ s.allocator.pool → lowest = 0
  | .allocate | .deallocate .. | .clear => True

/-! ### What the calls keep -/

/-- What holds between two calls. -/
structure InRange (lowest highest : Nat) (s : Usage) : Prop where
  lowest_eq : s.allocator.lowest = lowest
  highest_eq : s.allocator.highest = highest
  range : ∀ v ∈ s.allocator.pool, lowest ≤ v ∧ v ≤ highest
  unused : ∀ v ∈ s.used, v ∉ s.allocator.pool

/-- In the beginning the pool is the whole range. -/
theorem inRange_start (h : lowest ≤ highest) : InRange lowest highest (Usage.start h) where
  lowest_eq := rfl
  highest_eq := rfl
  range _ hv := (IntervalPool.mem_singleton h).mp hv
  unused _ hv := absurd hv List.not_mem_nil

/-- The bounds of an interval are numbers of the pool. -/
theorem InRange.inside {s : Usage} (h : InRange lowest highest s) :
    ∀ iv ∈ s.allocator.pool.intervals, Inside lowest highest iv := by
  intro iv hiv
  have hvalid := s.allocator.pool.valid iv hiv
  have hlow := h.range iv.1 ⟨iv, hiv, Nat.le_refl _, hvalid⟩
  have hhigh := h.range iv.2 ⟨iv, hiv, hvalid, Nat.le_refl _⟩
  exact ⟨hlow.1, hvalid, hhigh.2⟩

/-- The values are four-byte values. -/
theorem InRange.lt_limit {s : Usage} (h : InRange lowest highest s) (hmax : highest ≤ largest) :
    ∀ v ∈ s.allocator.pool, v < PacketIdBytes.four.limit := by
  intro v hv
  have hle := (h.range v hv).2
  have hlimit : PacketIdBytes.four.limit = largest + 1 := by decide
  omega

/-- An allocation stays in the range, unless it takes the largest value of the type. -/
theorem InRange.allocate {s : Usage} (h : InRange lowest highest s) (hmax : highest ≤ largest)
    (hspare : s.allocator.firstVacant ≠ some largest) :
    InRange lowest highest (s.next (.allocate : Call lowest highest)) := by
  have hlow := (lowest_allocate s.allocator).trans h.lowest_eq
  have hhigh := (highest_allocate s.allocator).trans h.highest_eq
  rcases halloc : s.allocator.allocate with ⟨v?, va⟩
  simp only [Usage.next, halloc] at hlow hhigh ⊢
  cases v? with
  | none =>
    obtain rfl := allocate_none halloc
    exact ⟨h.lowest_eq, h.highest_eq, h.range, h.unused⟩
  | some v =>
    obtain ⟨hv, hafter⟩ := mem_allocate halloc (h.lt_limit hmax) fun hwrap => hspare hwrap.2
    refine ⟨hlow, hhigh, fun w hw => h.range w (hafter w hw).1, fun w hw hmem => ?_⟩
    rcases List.mem_cons.mp hw with rfl | hw
    · exact (hafter w hmem).2 rfl
    · exact h.unused w hw (hafter w hmem).1

/-- If the largest value is the first vacant one, it is the only one. -/
theorem InRange.eq_largest {s : Usage} (h : InRange lowest highest s) (hmax : highest ≤ largest)
    (hfirst : s.allocator.firstVacant = some largest) {v : Nat} (hv : v ∈ s.allocator.pool) :
    v = largest := by
  obtain ⟨iv, hiv, hlow⟩ := Option.map_eq_some_iff.mp hfirst
  have hle := IntervalPool.first_le hiv hv
  have hrange := h.range v hv
  omega

/-- Only a declaration that takes the largest value can wrap around. -/
theorem InRange.use {s : Usage} (h : InRange lowest highest s) (hmax : highest ≤ largest) {v : Nat}
    (hv : lowest ≤ v ∧ v ≤ highest)
    (hspare : v = largest → s.allocator.firstVacant ≠ some largest) :
    InRange lowest highest (s.next (.use v hv : Call lowest highest)) := by
  have hlow := (lowest_use s.allocator v).trans h.lowest_eq
  have hhigh := (highest_use s.allocator v).trans h.highest_eq
  rcases huse : s.allocator.use v with ⟨ok, va⟩
  simp only [Usage.next, huse] at hlow hhigh ⊢
  cases ok with
  | false =>
    obtain ⟨rfl, -⟩ := use_false huse
    exact ⟨h.lowest_eq, h.highest_eq, h.range, h.unused⟩
  | true =>
    have hvacant : v ∈ s.allocator.pool := use_fst.mp (by rw [huse])
    have hwrap : ¬ s.allocator.Wraps := fun hwrap =>
      hspare (h.eq_largest hmax hwrap.2 hvacant) hwrap.2
    obtain ⟨-, hafter⟩ := mem_use huse (fun _ => h.lt_limit hmax v hvacant) hwrap
    refine ⟨hlow, hhigh, fun w hw => h.range w (hafter w hw).1, fun w hw hmem => ?_⟩
    simp only [if_true, List.mem_cons] at hw
    obtain rfl | hw := hw
    · exact (hafter w hmem).2 rfl
    · exact h.unused w hw (hafter w hmem).1

/-- A deallocation stays in the range. -/
theorem InRange.deallocate {s : Usage} (h : InRange lowest highest s) {v : Nat}
    (hv : lowest ≤ v ∧ v ≤ highest) :
    InRange lowest highest (s.next (.deallocate v hv : Call lowest highest)) where
  lowest_eq := h.lowest_eq
  highest_eq := h.highest_eq
  range w hw := by
    obtain hw | rfl := mem_deallocate hw
    · exact h.range w hw
    · exact hv
  unused w hw hmem := by
    have hused := List.mem_filter.mp hw
    obtain hmem | rfl := mem_deallocate hmem
    · exact h.unused w hused.1 hmem
    · simp at hused

/-- A clear stays in the range. -/
theorem InRange.clear {s : Usage} (h : InRange lowest highest s) :
    InRange lowest highest (s.next (.clear : Call lowest highest)) where
  lowest_eq := h.lowest_eq
  highest_eq := h.highest_eq
  range w hw := by
    have hmem := (IntervalPool.mem_singleton s.allocator.inRange).mp hw
    rwa [h.lowest_eq, h.highest_eq] at hmem
  unused w hw := absurd hw List.not_mem_nil

/-- What holds between two calls holds after a call that spares the largest value. -/
theorem InRange.next {s : Usage} (h : InRange lowest highest s) (hmax : highest ≤ largest)
    {c : Call lowest highest} (hspare : Spares s c) : InRange lowest highest (s.next c) := by
  cases c with
  | allocate => exact h.allocate hmax hspare
  | use v hv => exact h.use hmax hv hspare
  | deallocate v hv => exact h.deallocate hv
  | clear => exact h.clear

/-! ### The assertions and what is given out -/

/-- The asserts of the allocator hold. -/
theorem InRange.asserts {s : Usage} (h : InRange lowest highest s) (hmax : highest ≤ largest)
    {c : Call lowest highest} (hspare : Spares s c) : s.Asserts c := by
  cases c with
  | allocate =>
    intro iv hiv hplus
    have hmem := IntervalPool.mem_first hiv
    have hin := h.inside iv hmem
    -- a number follows in the interval, since the sum does not wrap around
    have hne : iv.1 ≠ largest := fun heq => hspare (by rw [firstVacant, hiv, Option.map_some, heq])
    have hlt : iv.1 < 2 ^ 32 := h.lt_limit hmax iv.1 ⟨iv, hmem, Nat.le_refl _, hin.2.1⟩
    rw [plusOne_of_lt hlt fun _ => hne] at hplus
    rw [h.highest_eq]
    have := hin.2.2
    omega
  | use v hv => trivial
  | deallocate v hv =>
    show s.allocator.lowest ≤ v ∧ v ≤ s.allocator.highest
    rw [h.lowest_eq, h.highest_eq]
    exact hv
  | clear => trivial

/-- The value that is returned is in the range and was not in use. -/
theorem InRange.result {s : Usage} (h : InRange lowest highest s) {c : Call lowest highest} :
    ∀ v ∈ s.result c, lowest ≤ v ∧ v ≤ highest ∧ v ∉ s.used := by
  intro v hv
  cases c with
  | allocate =>
    have hfirst : s.allocator.firstVacant = some v := (allocate_fst s.allocator).symm.trans hv
    obtain ⟨iv, hiv, rfl⟩ := Option.map_eq_some_iff.mp hfirst
    have hmem := IntervalPool.mem_first hiv
    have hvacant : iv.1 ∈ s.allocator.pool :=
      ⟨iv, hmem, Nat.le_refl _, s.allocator.pool.valid iv hmem⟩
    have hrange := h.range iv.1 hvacant
    exact ⟨hrange.1, hrange.2, fun hused => h.unused iv.1 hused hvacant⟩
  | use v hv => exact nomatch hv
  | deallocate v hv => exact nomatch hv
  | clear => exact nomatch hv

/-! ### The largest value as the only vacant one -/

/-- There is only the interval of the largest value. -/
theorem InRange.first_eq {s : Usage} (h : InRange lowest highest s) (hmax : highest ≤ largest)
    (hfirst : s.allocator.firstVacant = some largest) :
    s.allocator.pool.first = some (largest, largest) := by
  obtain ⟨iv, hiv, hlow⟩ := Option.map_eq_some_iff.mp hfirst
  have hmem := IntervalPool.mem_first hiv
  have hhigh := h.eq_largest hmax hfirst ⟨iv, hmem, (h.inside iv hmem).2.1, Nat.le_refl _⟩
  rw [hiv]
  exact congrArg some (Prod.ext hlow hhigh)

/-- An allocation of the largest value does not keep the range. -/
theorem not_keeps_allocate {s : Usage} (h : InRange lowest highest s) (hmax : highest ≤ largest)
    (hfirst : s.allocator.firstVacant = some largest) :
    ¬ Keeps s (.allocate : Call lowest highest) := by
  intro hkeeps
  have hlt : largest < s.allocator.highest :=
    hkeeps.asserts (largest, largest) (h.first_eq hmax hfirst) (by decide)
  rw [h.highest_eq] at hlt
  omega

/-- A use of the largest value does not keep the range. -/
theorem not_keeps_use {s : Usage} (h : InRange lowest highest s) (hmax : highest ≤ largest)
    (hfirst : s.allocator.firstVacant = some largest) (hv : lowest ≤ largest ∧ largest ≤ highest) :
    ¬ Keeps s (.use largest hv : Call lowest highest) := by
  intro hkeeps
  have hmem := IntervalPool.mem_first (h.first_eq hmax hfirst)
  have hvacant : largest ∈ s.allocator.pool := ⟨_, hmem, Nat.le_refl _, Nat.le_refl _⟩
  have hused : largest ∈ (s.next (.use largest hv : Call lowest highest)).used := by
    show largest ∈ if (s.allocator.use largest).1 then largest :: s.used else s.used
    rw [if_pos (use_fst.mpr hvacant)]
    exact List.mem_cons_self
  apply hkeeps.unused largest hused
  -- the pool is empty without the value, so it takes the interval that starts over at 0
  show largest ∈ (s.allocator.use largest).2.pool
  cases hfind : s.allocator.pool.find largest with
  | none =>
    have hsome := IntervalPool.find_isSome.mpr hvacant
    rw [hfind] at hsome
    exact nomatch hsome
  | some iv =>
    obtain ⟨hiv, hlow, hhigh⟩ := IntervalPool.find_eq_some hfind
    have hiv' := h.eq_largest hmax hfirst ⟨iv, hiv, Nat.le_refl _, Nat.le_trans hlow hhigh⟩
    have hplus : plusOne .four largest = 0 := by decide
    have hempty : ∀ w, w ∉ s.allocator.pool.erase iv := by
      intro w hw
      have hout := (IntervalPool.mem_erase hiv).mp hw
      have hw := h.eq_largest hmax hfirst hout.1
      omega
    unfold ValueAllocator.use
    simp only [hfind, hplus, hiv', Nat.lt_irrefl, if_false, Nat.zero_le, if_true]
    exact IntervalPool.mem_emplace_self (Nat.zero_le _) hhigh fun w hw => absurd hw (hempty w)

/-- A call keeps the range exactly when it spares the largest value. -/
theorem keeps_iff {s : Usage} (h : InRange lowest highest s) (hmax : highest ≤ largest)
    (c : Call lowest highest) : Keeps s c ↔ Spares s c := by
  constructor
  · intro hkeeps
    cases c with
    | allocate => exact fun hfirst => not_keeps_allocate h hmax hfirst hkeeps
    | use v hv =>
      rintro rfl hfirst
      exact not_keeps_use h hmax hfirst hv hkeeps
    | deallocate v hv => trivial
    | clear => trivial
  · intro hspare
    have hnext := h.next hmax hspare
    exact ⟨h.asserts hmax hspare, h.result, hnext.inside, hnext.unused⟩

/-! ### The intervals that are made -/

/-- The intervals that a use makes -/
theorem mem_made_use {s : Usage} {v : Nat} {hv : lowest ≤ v ∧ v ≤ highest} {a : Nat × Nat} :
    a ∈ (s.changes (.use v hv : Call lowest highest)).filterMap PoolChange.made ↔
      ∃ iv, s.allocator.pool.find v = some iv ∧
        (iv.1 < v ∧ a = (iv.1, v - 1) ∨
          plusOne .four v ≤ iv.2 ∧ a = (plusOne .four v, iv.2)) := by
  show a ∈ (s.allocator.useChanges v).filterMap PoolChange.made ↔ _
  unfold useChanges
  cases s.allocator.pool.find v with
  | none => simp
  | some iv =>
    by_cases hlow : iv.1 < v <;> by_cases hhigh : plusOne .four v ≤ iv.2 <;>
      simp [hlow, hhigh, PoolChange.made, @eq_comm _ a]

/-- A deallocation makes intervals inside the range. -/
theorem inside_deallocate {s : Usage} (h : InRange lowest highest s) {v : Nat}
    (hv : lowest ≤ v ∧ v ≤ highest) :
    MadeInside s (.deallocate v hv : Call lowest highest) := by
  intro a ha
  have hleft : ∀ itl, s.allocator.pool.left v = some itl → lowest ≤ itl.1 ∧ itl.1 ≤ v :=
    fun itl hl => ⟨(h.inside itl (IntervalPool.mem_left hl)).1, IntervalPool.left_le hl⟩
  have hright : ∀ itr, s.allocator.pool.right v = some itr → v ≤ itr.2 ∧ itr.2 ≤ highest := by
    intro itr hr
    obtain ⟨hmem, hlt⟩ := IntervalPool.mem_right hr
    have hin := h.inside itr hmem
    exact ⟨Nat.le_trans (Nat.le_of_lt hlt) hin.2.1, hin.2.2⟩
  -- every change makes one interval, which reaches from a left end to a right end
  have hshape : ∃ low high, a = (low, high) ∧ lowest ≤ low ∧ low ≤ v ∧ v ≤ high ∧
      high ≤ highest := by
    change a ∈ (s.allocator.deallocateChanges v).filterMap PoolChange.made at ha
    have hsingle : a = (v, v) → ∃ low high, a = (low, high) ∧ lowest ≤ low ∧ low ≤ v ∧ v ≤ high ∧
        high ≤ highest := fun heq => ⟨v, v, heq, hv.1, Nat.le_refl _, Nat.le_refl _, hv.2⟩
    unfold deallocateChanges at ha
    split at ha
    · exact hsingle (by simpa [PoolChange.made] using ha)
    · next itl hl hr =>
      have hitl := hleft itl hl
      split at ha
      · exact ⟨itl.1, v, by simpa [PoolChange.made] using ha, hitl.1, hitl.2, Nat.le_refl _, hv.2⟩
      · exact hsingle (by simpa [PoolChange.made] using ha)
    · next itr hl hr =>
      have hitr := hright itr hr
      split at ha
      · exact ⟨v, itr.2, by simpa [PoolChange.made] using ha, hv.1, Nat.le_refl _, hitr⟩
      · exact hsingle (by simpa [PoolChange.made] using ha)
    · next itl itr hl hr =>
      have hitl := hleft itl hl
      have hitr := hright itr hr
      split at ha
      · split at ha
        · exact ⟨itl.1, itr.2, by simpa [PoolChange.made, eq_comm] using ha, hitl.1, hitl.2, hitr⟩
        · exact ⟨itl.1, v, by simpa [PoolChange.made] using ha, hitl.1, hitl.2, Nat.le_refl _,
            hv.2⟩
      · split at ha
        · exact ⟨v, itr.2, by simpa [PoolChange.made] using ha, hv.1, Nat.le_refl _, hitr⟩
        · exact hsingle (by simpa [PoolChange.made] using ha)
  obtain ⟨low, high, rfl, hlow, hlowv, hvhigh, hhigh⟩ := hshape
  exact ⟨hlow, Nat.le_trans hlowv hvhigh, hhigh⟩

/-- Of the calls that spare the largest value, those keep all intervals in the range that do not take
    the largest value away from an allocator without 0. -/
theorem madeInside_iff {s : Usage} (h : InRange lowest highest s) (hmax : highest ≤ largest)
    {c : Call lowest highest} (hspare : Spares s c) : MadeInside s c ↔ FromZero s c := by
  cases c with
  | allocate =>
    refine iff_of_true (fun a ha => ?_) trivial
    change a ∈ s.allocator.allocateChanges.filterMap PoolChange.made at ha
    unfold allocateChanges at ha
    split at ha
    · cases ha
    · next iv hiv =>
      have hmem := IntervalPool.mem_first hiv
      have hin := h.inside iv hmem
      -- the largest value is not the first vacant one, so that nothing wraps around
      have hne : iv.1 ≠ largest := fun heq =>
        hspare (by rw [firstVacant, hiv, Option.map_some, heq])
      have hlt : iv.1 < 2 ^ 32 := h.lt_limit hmax iv.1 ⟨iv, hmem, Nat.le_refl _, hin.2.1⟩
      rw [plusOne_of_lt hlt fun _ => hne] at ha
      split at ha
      · next hle =>
        obtain rfl : a = (iv.1 + 1, iv.2) := by simpa [PoolChange.made] using ha
        exact ⟨Nat.le_succ_of_le hin.1, hle, hin.2.2⟩
      · cases ha
  | use v hv =>
    constructor
    -- what is left of the interval above `v` would begin at 0
    · intro hmade heq hvacant
      subst heq
      obtain ⟨iv, hfind⟩ := Option.isSome_iff_exists.mp (IntervalPool.find_isSome.mpr hvacant)
      have hplus : plusOne .four largest = 0 := by decide
      have hin := hmade (0, iv.2) (mem_made_use.mpr
        ⟨iv, hfind, .inr ⟨by rw [hplus]; exact Nat.zero_le _, by rw [hplus]⟩⟩)
      exact Nat.le_zero.mp hin.1
    · intro hzero a ha
      obtain ⟨iv, hfind, hcase⟩ := mem_made_use.mp ha
      obtain ⟨hiv, hlow, hhigh⟩ := IntervalPool.find_eq_some hfind
      have hin := h.inside iv hiv
      have hvacant : v ∈ s.allocator.pool := ⟨iv, hiv, hlow, hhigh⟩
      obtain ⟨hlt, rfl⟩ | ⟨hle, rfl⟩ := hcase
      · exact ⟨hin.1, by show iv.1 ≤ v - 1; omega, by show v - 1 ≤ highest; omega⟩
      · refine ⟨?_, hle, hin.2.2⟩
        show lowest ≤ plusOne .four v
        -- the part above `v` begins at 0 for the largest value, and right above `v` otherwise
        by_cases heq : v = largest
        · rw [hzero heq hvacant]
          exact Nat.zero_le _
        · rw [plusOne_of_lt (h.lt_limit hmax v hvacant) fun _ => heq]
          omega
  | deallocate v hv => exact iff_of_true (inside_deallocate h hv) trivial
  | clear =>
    refine iff_of_true (fun a ha => ?_) trivial
    obtain rfl : a = (s.allocator.lowest, s.allocator.highest) := by
      simpa [Usage.changes, clearChanges, PoolChange.made, eq_comm] using ha
    exact ⟨Nat.le_of_eq h.lowest_eq.symm, s.allocator.inRange, Nat.le_of_eq h.highest_eq⟩

/-! ### Sequences of calls -/

/-- Whether a call spares the largest value can be decided. -/
instance (s : Usage) (c : Call lowest highest) : Decidable (Spares s c) :=
  match c with
  | .allocate => inferInstanceAs (Decidable (_ ≠ _))
  | .use _ _ => inferInstanceAs (Decidable (_ → _))
  | .deallocate _ _ => .isTrue trivial
  | .clear => .isTrue trivial

/-- A sequence of calls keeps the allocator right if and only if no call takes the largest value of
    the type as the only vacant one. All intervals that are made are then in the range, also those
    that the pool does not take, if and only if moreover no `use` takes the largest value of the
    type while 0 is not in the range. The intervals are those of the changes that the calls make. -/
theorem largest_value_spared_iff (hle : lowest ≤ highest) (hmax : highest ≤ largest)
    (calls : List (Call lowest highest)) :
    (Run.All Usage.next Keeps (Usage.start hle) calls ↔
      Run.All Usage.next Spares (Usage.start hle) calls) ∧
    (Run.All Usage.next (fun s c => Keeps s c ∧ MadeInside s c) (Usage.start hle) calls ↔
      Run.All Usage.next (fun s c => Spares s c ∧ FromZero s c) (Usage.start hle) calls) ∧
    ∀ (s : Usage) (c : Call lowest highest),
      (s.next c).allocator.pool = (s.changes c).foldl PoolChange.apply s.allocator.pool := by
  have hstart : Usage.start hle = Usage.start hle ∧ InRange lowest highest (Usage.start hle) :=
    ⟨rfl, inRange_start hle⟩
  -- both sides of each part are about the same run, in which the invariant holds
  refine ⟨?_, ?_, Usage.pool_next⟩
  · refine Run.all_iff (R := fun s t => s = t ∧ InRange lowest highest s) ?_ ?_ hstart
    · rintro s _ c ⟨rfl, h⟩
      exact keeps_iff h hmax c
    · rintro s _ c ⟨rfl, h⟩ hspare
      exact ⟨rfl, h.next hmax hspare⟩
  · refine Run.all_iff (R := fun s t => s = t ∧ InRange lowest highest s) ?_ ?_ hstart
    · rintro s _ c ⟨rfl, h⟩
      rw [keeps_iff h hmax c]
      exact and_congr_right fun hspare => madeInside_iff h hmax hspare
    · rintro s _ c ⟨rfl, h⟩ hspare
      exact ⟨rfl, h.next hmax hspare.1⟩

/-- A run in which the largest value is taken last -/
theorem largest_value_spared_run :
    let calls : List (Call 1 largest) :=
      [.use largest (by decide), .allocate, .deallocate largest (by decide), .clear]
    Run.All Usage.next Keeps (Usage.start (by decide : 1 ≤ largest)) calls := by
  refine ((largest_value_spared_iff (by decide) (by decide) _).1).mpr ?_
  refine Run.all_cons.mpr ⟨by decide, Run.all_cons.mpr ⟨by decide, ?_⟩⟩
  exact Run.all_cons.mpr ⟨by decide, Run.all_cons.mpr ⟨by decide, Run.all_nil⟩⟩

/-- With the two largest values, the third call gives out 0; with the largest one alone, the
    assertion of the first call fails; and from 1 on, one declaration makes an interval from 0. -/
theorem largest_value_taken :
    (let calls : List (Call (largest - 1) largest) :=
      [.allocate, .use largest (by decide), .allocate]
    let start := Usage.start (by decide : largest - 1 ≤ largest)
    ¬ Run.All Usage.next Keeps start calls ∧
      (Run.final Usage.next start (calls.take 2)).result
        (.allocate : Call (largest - 1) largest) = some 0) ∧
    ¬ (Usage.start (Nat.le_refl largest)).Asserts (.allocate : Call largest largest) ∧
    (0, largest) ∈ ((Usage.start (by decide : 1 ≤ largest)).changes
      (.use largest (by decide) : Call 1 largest)).filterMap PoolChange.made := by
  refine ⟨⟨fun hall => ?_, by decide⟩, fun hasserts => ?_, by decide⟩
  · have hout := (hall 2 .allocate rfl).result 0 (by decide)
    exact absurd hout.1 (by decide)
  · exact absurd (hasserts (largest, largest) (by decide) (by decide)) (by decide)

end ValueAllocator

end AsyncMqtt
