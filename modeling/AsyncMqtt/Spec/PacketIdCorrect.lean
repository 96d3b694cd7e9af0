import AsyncMqtt.Native.ValueAllocator

/-!
# What the value allocator does to the set of vacant values

Giving a value back adds at most that value to the vacant ones, and taking one
removes it. The exception is the largest four-byte value as the only vacant one:
taking it makes the allocator start over with every value vacant.

## Key results

- `ValueAllocator.mem_deallocate`, `ValueAllocator.mem_allocate`, `ValueAllocator.mem_use`
- `ValueAllocator.mem_deallocate_self`: a value that is given back is vacant
-/

namespace AsyncMqtt

namespace ValueAllocator

variable {pb : PacketIdBytes}

/-- The next value that is taken is the largest four-byte value. -/
def Wraps (va : ValueAllocator pb) : Prop := pb = .four ∧ va.firstVacant = some (2 ^ 32 - 1)

/-- Whether the values wrap around can be decided. -/
instance (va : ValueAllocator pb) : Decidable va.Wraps := inferInstanceAs (Decidable (_ ∧ _))

/-- The next value, as long as it does not wrap around -/
theorem plusOne_of_lt {v : Nat} (h : v < pb.limit) (hne : pb = .four → v ≠ 2 ^ 32 - 1) :
    plusOne pb v = v + 1 := by
  cases pb with
  | two => rfl
  | four =>
    have hlt : v < 2 ^ 32 := h
    have := hne rfl
    exact Nat.mod_eq_of_lt (by omega)

/-- A value is in use exactly when it is not in the pool. -/
theorem isUsed_iff {va : ValueAllocator pb} {v : Nat} : va.isUsed v = true ↔ v ∉ va.pool := by
  rw [isUsed, Option.isNone_iff_eq_none, ← IntervalPool.find_isSome, Option.not_isSome_iff_eq_none]

/-- The next value is not more than one above. -/
theorem plusOne_le (pb : PacketIdBytes) (v : Nat) : plusOne pb v ≤ v + 1 := by
  cases pb with
  | two => exact Nat.le_refl _
  | four => exact Nat.mod_le _ _

/-- Giving a value back makes at most that value vacant. -/
theorem mem_deallocate {va : ValueAllocator pb} {v w : Nat} (h : w ∈ (va.deallocate v).pool) :
    w ∈ va.pool ∨ w = v := by
  have hself : ∀ {x}, v ≤ x ∧ x ≤ v → x = v := fun hx => Nat.le_antisymm hx.2 hx.1
  -- the neighbours that are extended end right below `v` or begin right above it
  have hleft : ∀ {itl : Nat × Nat}, itl ∈ va.pool.intervals → plusOne pb itl.2 = v →
      itl.1 ≤ w ∧ w ≤ v → w ∈ va.pool ∨ w = v := by
    intro itl hmem hplus hw
    have hle := plusOne_le pb itl.2
    by_cases hin : w ≤ itl.2
    · exact Or.inl ⟨itl, hmem, hw.1, hin⟩
    · exact Or.inr (by omega)
  have hright : ∀ {itr : Nat × Nat}, itr ∈ va.pool.intervals → plusOne pb v = itr.1 →
      v ≤ w ∧ w ≤ itr.2 → w ∈ va.pool ∨ w = v := by
    intro itr hmem hplus hw
    have hle := plusOne_le pb v
    by_cases hin : itr.1 ≤ w
    · exact Or.inl ⟨itr, hmem, hin, hw.2⟩
    · exact Or.inr (by omega)
  unfold deallocate at h
  simp only at h
  split at h
  · exact (IntervalPool.mem_emplace h).imp_right hself
  · next itl hl hr =>
    split at h
    · next hplus =>
      rcases IntervalPool.mem_replace (IntervalPool.mem_left hl) h with h | h
      · exact Or.inl h.1
      · exact hleft (IntervalPool.mem_left hl) hplus h
    · exact (IntervalPool.mem_emplace h).imp_right hself
  · next itr hl hr =>
    split at h
    · next hplus =>
      rcases IntervalPool.mem_replace (IntervalPool.mem_right hr).1 h with h | h
      · exact Or.inl h.1
      · exact hright (IntervalPool.mem_right hr).1 hplus h
    · exact (IntervalPool.mem_emplace h).imp_right hself
  · next itl itr hl hr =>
    have hltr : itl ≠ itr := by
      rintro rfl
      have := IntervalPool.left_le hl
      have := (IntervalPool.mem_right hr).2
      omega
    split at h
    · next hplusl =>
      split at h
      · next hplusr =>
        have hmem : itl ∈ (va.pool.erase itr).intervals :=
          IntervalPool.mem_intervals_erase.mpr ⟨IntervalPool.mem_left hl, hltr⟩
        rcases IntervalPool.mem_replace hmem h with h | h
        · exact Or.inl ((IntervalPool.mem_erase (IntervalPool.mem_right hr).1).mp h.1).1
        · by_cases hv : w ≤ v
          · exact hleft (IntervalPool.mem_left hl) hplusl ⟨h.1, hv⟩
          · exact hright (IntervalPool.mem_right hr).1 hplusr ⟨by omega, h.2⟩
      · rcases IntervalPool.mem_replace (IntervalPool.mem_left hl) h with h | h
        · exact Or.inl h.1
        · exact hleft (IntervalPool.mem_left hl) hplusl h
    · split at h
      · next hplusr =>
        rcases IntervalPool.mem_replace (IntervalPool.mem_right hr).1 h with h | h
        · exact Or.inl h.1
        · exact hright (IntervalPool.mem_right hr).1 hplusr h
      · exact (IntervalPool.mem_emplace h).imp_right hself

/-- Giving a value back leaves the vacant ones vacant, and makes that value vacant. -/
theorem mem_deallocate_of {va : ValueAllocator pb} {v w : Nat} (h : v ∉ va.pool)
    (hw : w ∈ va.pool ∨ w = v) : w ∈ (va.deallocate v).pool := by
  -- an interval that reaches down to `v` does not contain it
  have hbelow : ∀ {a : Nat × Nat}, a ∈ va.pool.intervals → a.1 ≤ v → a.2 < v := by
    intro a ha hlow
    by_contra hhigh
    exact h ⟨a, ha, hlow, by omega⟩
  have hsingle : w ∈ va.pool.emplace v v := by
    rcases hw with hw | rfl
    · exact IntervalPool.mem_emplace_of_mem hw
    · refine IntervalPool.mem_emplace_self (Nat.le_refl _) (Nat.le_refl _) fun x hx => ?_
      have hne : x ≠ w := fun hxw => h (hxw ▸ hx)
      omega
  -- an interval that grows keeps what it has
  have hgrow : ∀ {iv : Nat × Nat} {low high : Nat}, iv ∈ va.pool.intervals → low ≤ iv.1 →
      iv.2 ≤ high → low ≤ v → v ≤ high → w ∈ va.pool.erase iv ∨ low ≤ w ∧ w ≤ high := by
    intro iv low high hiv hlow hhigh hlowv hvhigh
    rcases hw with hw | rfl
    · by_cases hin : iv.1 ≤ w ∧ w ≤ iv.2
      · exact .inr (by omega)
      · exact .inl ((IntervalPool.mem_erase hiv).mpr ⟨hw, hin⟩)
    · exact .inr ⟨hlowv, hvhigh⟩
  unfold deallocate
  simp only
  split
  · exact hsingle
  · next itl hl hr =>
    split
    · have hle := IntervalPool.left_le hl
      have hitl := IntervalPool.mem_left hl
      have hlt := hbelow hitl hle
      refine IntervalPool.mem_replace_of_apart (fun x hx => ?_)
        (hgrow hitl (Nat.le_refl _) (Nat.le_of_lt hlt) hle (Nat.le_refl _))
      obtain ⟨a, ha, hx⟩ := hx
      obtain ⟨ha, hne⟩ := IntervalPool.mem_intervals_erase.mp ha
      rcases IntervalPool.left_last hl ha hne with h | h <;> omega
    · exact hsingle
  · next itr hl hr =>
    split
    · have hitr := IntervalPool.mem_right hr
      have hvalid := va.pool.valid itr hitr.1
      refine IntervalPool.mem_replace_of_apart (fun x hx => ?_)
        (hgrow hitr.1 (Nat.le_of_lt hitr.2) (Nat.le_refl _) (Nat.le_refl _) (by omega))
      obtain ⟨a, ha, hx⟩ := hx
      obtain ⟨ha, hne⟩ := IntervalPool.mem_intervals_erase.mp ha
      have := IntervalPool.lt_of_left_none hl ha
      rcases IntervalPool.right_first hr ha hne with h | h <;> omega
    · exact hsingle
  · next itl itr hl hr =>
    have hle := IntervalPool.left_le hl
    have hitl := IntervalPool.mem_left hl
    have hlt := hbelow hitl hle
    have hitr := IntervalPool.mem_right hr
    have hvalid := va.pool.valid itr hitr.1
    split
    · split
      · have hne : itl ≠ itr := fun heq => by
          rw [heq] at hlt
          omega
        have hitl' : itl ∈ (va.pool.erase itr).intervals :=
          IntervalPool.mem_intervals_erase.mpr ⟨hitl, hne⟩
        refine IntervalPool.mem_replace_of_apart (fun x hx => ?_) ?_
        · obtain ⟨a, ha, hx⟩ := hx
          obtain ⟨ha, hnel⟩ := IntervalPool.mem_intervals_erase.mp ha
          obtain ⟨ha, hner⟩ := IntervalPool.mem_intervals_erase.mp ha
          rcases IntervalPool.left_last hl ha hnel with h | h
          · omega
          · rcases IntervalPool.right_first hr ha hner with h | h <;> omega
        · rcases hgrow hitr.1 (Nat.le_of_lt hitr.2) (Nat.le_refl _) (Nat.le_refl _) (by omega) with
            hw | hw
          · by_cases hin : itl.1 ≤ w ∧ w ≤ itl.2
            · exact .inr (by omega)
            · exact .inl ((IntervalPool.mem_erase hitl').mpr ⟨hw, hin⟩)
          · exact .inr (by omega)
      · refine IntervalPool.mem_replace_of_apart (fun x hx => ?_)
          (hgrow hitl (Nat.le_refl _) (Nat.le_of_lt hlt) hle (Nat.le_refl _))
        obtain ⟨a, ha, hx⟩ := hx
        obtain ⟨ha, hne⟩ := IntervalPool.mem_intervals_erase.mp ha
        rcases IntervalPool.left_last hl ha hne with h | h <;> omega
    · split
      · refine IntervalPool.mem_replace_of_apart (fun x hx => ?_)
          (hgrow hitr.1 (Nat.le_of_lt hitr.2) (Nat.le_refl _) (Nat.le_refl _) (by omega))
        obtain ⟨a, ha, hx⟩ := hx
        obtain ⟨ha, hne⟩ := IntervalPool.mem_intervals_erase.mp ha
        rcases IntervalPool.right_first hr ha hne with h | h
        · have := hbelow ha h
          omega
        · omega
      · exact hsingle

/-- A value that is given back is vacant. -/
theorem mem_deallocate_self {va : ValueAllocator pb} {v : Nat} (h : v ∉ va.pool) :
    v ∈ (va.deallocate v).pool := mem_deallocate_of h (.inr rfl)

/-- An allocation that succeeds takes the low end of the first interval. -/
theorem allocate_some {va va' : ValueAllocator pb} {v : Nat} (h : va.allocate = (some v, va')) :
    ∃ iv, va.pool.first = some iv ∧ iv.1 = v ∧
      va'.pool = if plusOne pb iv.1 ≤ iv.2 then va.pool.replace iv (plusOne pb iv.1) iv.2
        else va.pool.erase iv := by
  unfold allocate at h
  cases hfirst : va.pool.first with
  | none =>
    rw [hfirst] at h
    exact nomatch h
  | some iv =>
    rw [hfirst] at h
    refine ⟨iv, rfl, ?_⟩
    dsimp only at h
    split at h
    · next hmore =>
      cases h
      exact ⟨rfl, (if_pos hmore).symm⟩
    · next hlast =>
      cases h
      exact ⟨rfl, (if_neg hlast).symm⟩

/-- Taking the next value removes it from the vacant ones. -/
theorem mem_allocate {va va' : ValueAllocator pb} {v : Nat} (h : va.allocate = (some v, va'))
    (hrange : ∀ w ∈ va.pool, w < pb.limit) (hwrap : ¬ va.Wraps) :
    v ∈ va.pool ∧ ∀ w ∈ va'.pool, w ∈ va.pool ∧ w ≠ v := by
  obtain ⟨iv, hfirst, rfl, hpool⟩ := allocate_some h
  have hiv := IntervalPool.mem_first hfirst
  have hvalid := va.pool.valid iv hiv
  have hmem : iv.1 ∈ va.pool := ⟨iv, hiv, Nat.le_refl _, hvalid⟩
  have hplus : plusOne pb iv.1 = iv.1 + 1 := by
    refine plusOne_of_lt (hrange _ hmem) fun hfour hmax => hwrap ⟨hfour, ?_⟩
    rw [firstVacant, hfirst, Option.map_some, hmax]
  refine ⟨hmem, fun w hw => ?_⟩
  rw [hpool, hplus] at hw
  split at hw
  · rcases IntervalPool.mem_replace hiv hw with hw | hw
    · exact ⟨hw.1, by rintro rfl; exact hw.2 ⟨Nat.le_refl _, hvalid⟩⟩
    · exact ⟨⟨iv, hiv, by omega, hw.2⟩, by omega⟩
  · have hw' := (IntervalPool.mem_erase hiv).mp hw
    exact ⟨hw'.1, by rintro rfl; exact hw'.2 ⟨Nat.le_refl _, hvalid⟩⟩

/-- Taking the next value leaves the other ones vacant. -/
theorem mem_allocate_of_ne {va va' : ValueAllocator pb} {v w : Nat}
    (h : va.allocate = (some v, va')) (hw : w ∈ va.pool) (hne : w ≠ v) : w ∈ va'.pool := by
  obtain ⟨iv, hfirst, rfl, hpool⟩ := allocate_some h
  have hiv := IntervalPool.mem_first hfirst
  have hle := plusOne_le pb iv.1
  -- without the interval `w` is vacant, unless it is in what the interval keeps
  have hrest : w ∈ va.pool.erase iv ∨ plusOne pb iv.1 ≤ w ∧ w ≤ iv.2 := by
    by_cases hin : iv.1 ≤ w ∧ w ≤ iv.2
    · exact .inr ⟨by omega, hin.2⟩
    · exact .inl ((IntervalPool.mem_erase hiv).mpr ⟨hw, hin⟩)
  rw [hpool]
  split
  · refine IntervalPool.mem_replace_of_apart (fun x hx => ?_) hrest
    obtain ⟨a, ha, hx⟩ := hx
    obtain ⟨ha, hne⟩ := IntervalPool.mem_intervals_erase.mp ha
    have := IntervalPool.first_lt hfirst ha hne
    omega
  · next hlast => exact hrest.resolve_right fun hin => hlast (Nat.le_trans hin.1 hin.2)

/-- The first vacant value is allocated. -/
theorem allocate_fst (va : ValueAllocator pb) : va.allocate.1 = va.firstVacant := by
  unfold allocate firstVacant
  cases va.pool.first with
  | none => rfl
  | some iv =>
    dsimp only [Option.map_some]
    split <;> rfl

/-- Taking a value takes one away. -/
theorem count_allocate {va va' : ValueAllocator pb} {v : Nat} (h : va.allocate = (some v, va'))
    (hrange : ∀ w ∈ va.pool, w < pb.limit) (hwrap : ¬ va.Wraps) :
    va.pool.count = va'.pool.count + 1 := by
  obtain ⟨hv, hsub⟩ := mem_allocate h hrange hwrap
  refine IntervalPool.count_of_insert (fun hmem => (hsub v hmem).2 rfl) fun w => ⟨fun hw => ?_, ?_⟩
  · by_cases hne : w = v
    · exact .inr hne
    · exact .inl (mem_allocate_of_ne h hw hne)
  · rintro (hw | rfl)
    · exact (hsub w hw).1
    · exact hv

/-- Giving a value back adds one. -/
theorem count_deallocate {va : ValueAllocator pb} {v : Nat} (h : v ∉ va.pool) :
    (va.deallocate v).pool.count = va.pool.count + 1 :=
  IntervalPool.count_of_insert h fun _ => ⟨mem_deallocate, mem_deallocate_of h⟩

/-- Nothing is allocated exactly when the pool is empty. -/
theorem allocate_eq_none (va : ValueAllocator pb) :
    va.allocate.1 = none ↔ va.pool.count = 0 := by
  have hfirst : va.pool.first = none ↔ va.pool.count = 0 := by
    rw [IntervalPool.count_eq_zero, IntervalPool.first, List.head?_eq_none_iff]
    refine ⟨fun hnil v hv => ?_, fun hnone => List.eq_nil_iff_forall_not_mem.mpr fun iv hiv => ?_⟩
    · obtain ⟨iv, hiv, -⟩ := hv
      rw [hnil] at hiv
      cases hiv
    · exact hnone iv.1 ⟨iv, hiv, Nat.le_refl _, va.pool.valid iv hiv⟩
  rw [← hfirst, allocate]
  split
  · next hnone => exact iff_of_true rfl hnone
  · next iv hsome =>
    refine iff_of_false ?_ (by rw [hsome]; rintro ⟨⟩)
    split <;> rintro ⟨⟩

/-- A failed allocation changes nothing. -/
theorem allocate_none {va va' : ValueAllocator pb} (h : va.allocate = (none, va')) : va' = va := by
  unfold allocate at h
  split at h
  · exact (Prod.mk.inj h).2.symm
  · split at h <;> cases h

/-- Unless the largest four-byte value was the only vacant one, something below it
    is still vacant when it is taken. -/
private theorem exists_mem_lower {va : ValueAllocator .four} {iv : Nat × Nat}
    (hiv : iv ∈ va.pool.intervals) (hlow : iv.1 ≤ 2 ^ 32 - 1) (hhigh : 2 ^ 32 - 1 ≤ iv.2)
    (hwrap : ¬ va.Wraps) :
    ∃ x ∈ (if iv.1 < 2 ^ 32 - 1 then (va.pool.erase iv).emplace iv.1 (2 ^ 32 - 1 - 1)
      else va.pool.erase iv), x ≤ iv.2 := by
  -- the interval has a value below the largest one, or the first interval is another one
  by_cases hlt : iv.1 < 2 ^ 32 - 1
  · rw [if_pos hlt]
    refine ⟨iv.1, IntervalPool.mem_emplace_self (Nat.le_refl _) (by omega) fun w hw => ?_,
      by omega⟩
    have := ((IntervalPool.mem_erase hiv).mp hw).2
    omega
  · rw [if_neg hlt]
    cases hfirst : va.pool.first with
    | none =>
      rw [IntervalPool.first, List.head?_eq_none_iff] at hfirst
      rw [hfirst] at hiv
      exact absurd hiv List.not_mem_nil
    | some fv =>
      have hne : iv ≠ fv := by
        rintro rfl
        refine hwrap ⟨rfl, ?_⟩
        rw [firstVacant, hfirst, Option.map_some]
        congr 1
        omega
      have hfv := IntervalPool.mem_first hfirst
      have hbelow := IntervalPool.first_lt hfirst hiv hne
      have hvalid := va.pool.valid fv hfv
      exact ⟨fv.1, ⟨fv, IntervalPool.mem_intervals_erase.mpr ⟨hfv, hne.symm⟩, Nat.le_refl _,
        hvalid⟩, by omega⟩

/-- Declaring a value as used removes it from the vacant ones. -/
theorem mem_use {va va' : ValueAllocator pb} {v : Nat} (h : va.use v = (true, va'))
    (hv : pb = .four → v < pb.limit) (hwrap : ¬ va.Wraps) :
    v ∈ va.pool ∧ ∀ w ∈ va'.pool, w ∈ va.pool ∧ w ≠ v := by
  unfold use at h
  cases hfind : va.pool.find v with
  | none =>
    rw [hfind] at h
    exact nomatch h
  | some iv =>
    rw [hfind] at h
    obtain ⟨hiv, hlow, hhigh⟩ := IntervalPool.find_eq_some hfind
    obtain rfl := (Prod.mk.inj h).2
    refine ⟨⟨iv, hiv, hlow, hhigh⟩, ?_⟩
    clear h
    -- the pool without the upper part of the interval
    have hlower : ∀ w ∈ (if iv.1 < v then (va.pool.erase iv).emplace iv.1 (v - 1)
        else va.pool.erase iv), w ∈ va.pool ∧ w ≠ v := by
      intro w hw
      have hout : w ∈ va.pool.erase iv → w ∈ va.pool ∧ w ≠ v := fun hw =>
        have hw' := (IntervalPool.mem_erase hiv).mp hw
        ⟨hw'.1, by rintro rfl; exact hw'.2 ⟨hlow, hhigh⟩⟩
      split at hw
      · rcases IntervalPool.mem_emplace hw with hw | hw
        · exact hout hw
        · exact ⟨⟨iv, hiv, hw.1, by omega⟩, by omega⟩
      · exact hout hw
    simp only
    split
    · next hplus =>
      intro w hw
      by_cases hmax : pb = .four ∧ v = 2 ^ 32 - 1
      · -- the bounds wrapped around, and the interval is not inserted
        obtain ⟨rfl, rfl⟩ := hmax
        obtain ⟨x, hx, hxle⟩ := exists_mem_lower hiv hlow hhigh hwrap
        rw [IntervalPool.emplace_of_overlap hx (by simp [plusOne]) hxle] at hw
        exact hlower w hw
      · have hsucc : plusOne pb v = v + 1 := by
          cases pb with
          | two => rfl
          | four => exact plusOne_of_lt (hv rfl) fun hfour hv => hmax ⟨hfour, hv⟩
        rw [hsucc] at hw
        rcases IntervalPool.mem_emplace hw with hw | hw
        · exact hlower w hw
        · exact ⟨⟨iv, hiv, by omega, hw.2⟩, by omega⟩
    · exact hlower

/-- Declaring a value as used leaves the other ones vacant. -/
theorem mem_use_of_ne {va : ValueAllocator pb} {v w : Nat} (h : w ∈ va.pool) (hne : w ≠ v)
    (hplus : v < w → plusOne pb v = v + 1) : w ∈ (va.use v).2.pool := by
  unfold use
  cases hfind : va.pool.find v with
  | none => exact h
  | some iv =>
    obtain ⟨hiv, hlow, hhigh⟩ := IntervalPool.find_eq_some hfind
    dsimp only
    have herase : ∀ x ∈ va.pool.erase iv, x < iv.1 ∨ iv.2 < x := by
      intro x hx
      have hout := ((IntervalPool.mem_erase hiv).mp hx).2
      omega
    -- the part below `v`
    have hlower : w < v ∨ ¬ (iv.1 ≤ w ∧ w ≤ iv.2) →
        w ∈ (if iv.1 < v then (va.pool.erase iv).emplace iv.1 (v - 1) else va.pool.erase iv) := by
      intro hw
      by_cases hin : iv.1 ≤ w ∧ w ≤ iv.2
      · have hlt : w < v := hw.resolve_right (not_not.mpr hin)
        rw [if_pos (by omega)]
        refine IntervalPool.mem_emplace_self hin.1 (by omega) fun x hx => ?_
        have := herase x hx
        omega
      · have hmem : w ∈ va.pool.erase iv := (IntervalPool.mem_erase hiv).mpr ⟨h, hin⟩
        split
        · exact IntervalPool.mem_emplace_of_mem hmem
        · exact hmem
    by_cases hin : v < w ∧ w ≤ iv.2
    · -- the part above `v`
      rw [hplus hin.1, if_pos (by omega)]
      refine IntervalPool.mem_emplace_self (by omega) hin.2 fun x hx => ?_
      split at hx
      · rcases IntervalPool.mem_emplace hx with hx | hx
        · have := herase x hx
          omega
        · omega
      · have := herase x hx
        omega
    · have hw := hlower (by omega)
      split
      · exact IntervalPool.mem_emplace_of_mem hw
      · exact hw

/-- A value is taken exactly when it was vacant. -/
theorem use_fst {va : ValueAllocator pb} {v : Nat} : (va.use v).1 = true ↔ v ∈ va.pool := by
  rw [← IntervalPool.find_isSome, use]
  cases va.pool.find v with
  | none => exact iff_of_false nofun nofun
  | some iv => exact iff_of_true rfl rfl

/-- A value that is not vacant is not taken. -/
theorem use_false {va va' : ValueAllocator pb} {v : Nat} (h : va.use v = (false, va')) :
    va' = va ∧ v ∉ va.pool := by
  unfold use at h
  split at h
  · next hfind =>
    refine ⟨(Prod.mk.inj h).2.symm, fun hmem => ?_⟩
    rw [← IntervalPool.find_isSome, hfind] at hmem
    exact nomatch hmem
  · exact nomatch h

/-- Declaring a vacant value as used takes one away. -/
theorem count_use {va : ValueAllocator pb} {v : Nat} (hv : v ∈ va.pool)
    (hrange : ∀ w ∈ va.pool, w < pb.limit) (hwrap : ¬ va.Wraps) :
    (∀ w ∈ (va.use v).2.pool, w ∈ va.pool) ∧
      va.pool.count = (va.use v).2.pool.count + 1 := by
  have huse : va.use v = (true, (va.use v).2) := Prod.ext (use_fst.mpr hv) rfl
  obtain ⟨-, hsub⟩ := mem_use huse (fun _ => hrange v hv) hwrap
  refine ⟨fun w hw => (hsub w hw).1,
    IntervalPool.count_of_insert (fun hmem => (hsub v hmem).2 rfl) fun w => ⟨fun hw => ?_, ?_⟩⟩
  · by_cases hne : w = v
    · exact .inr hne
    · refine .inl (mem_use_of_ne hw hne fun hlt => ?_)
      refine plusOne_of_lt (hrange v hv) fun hfour hmax => ?_
      have hlimit := hrange w hw
      subst hfour
      have hbound : w < 2 ^ 32 := hlimit
      omega
  · rintro (hw | rfl)
    · exact (hsub w hw).1
    · exact hv

/-- An allocation leaves the highest value. -/
theorem highest_allocate (va : ValueAllocator pb) : va.allocate.2.highest = va.highest := by
  unfold allocate
  split
  · rfl
  · split <;> rfl

/-- The same for the allocator that was returned -/
theorem highest_of_allocate {va va' : ValueAllocator pb} {v : Option Nat}
    (h : va.allocate = (v, va')) : va'.highest = va.highest := by
  rw [← highest_allocate va, h]

/-- An allocation leaves the lowest value. -/
theorem lowest_allocate (va : ValueAllocator pb) : va.allocate.2.lowest = va.lowest := by
  unfold allocate
  split
  · rfl
  · split <;> rfl

/-- Using a value leaves the lowest one. -/
theorem lowest_use (va : ValueAllocator pb) (v : Nat) : (va.use v).2.lowest = va.lowest := by
  unfold use
  split <;> rfl

/-- Using a value leaves the highest one. -/
theorem highest_use (va : ValueAllocator pb) (v : Nat) : (va.use v).2.highest = va.highest := by
  unfold use
  split <;> rfl

/-- Two-byte values do not wrap around: declaring one as used leaves no other vacant. -/
theorem mem_of_mem_use {va : ValueAllocator .two} {v w : Nat} (h : w ∈ (va.use v).2.pool) :
    w ∈ va.pool := by
  rcases huse : va.use v with ⟨ok, va'⟩
  rw [huse] at h
  cases ok with
  | true => exact ((mem_use huse nofun fun hwrap => nomatch hwrap.1).2 w h).1
  | false => exact (use_false huse).1 ▸ h

end ValueAllocator

end AsyncMqtt
