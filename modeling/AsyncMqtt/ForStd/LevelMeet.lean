import AsyncMqtt.ForStd.LevelMatch

/-!
# The order of patterns with wildcards

Two patterns of levels have a meet, which is a pattern again, and it is decidable whether one of them
covers the other. Both are found level by level: nothing has to be tried on what the patterns match,
as long as there is always another level than a given one.

## Key results

- `LevelMatch.any_meet`: the meet matches what both match
- `LevelMatch.isMatch_of_covers`, `LevelMatch.exists_of_not_covers`: a pattern covers another one if
  and only if it misses no match of it
-/

namespace LevelMatch

variable {L : Type} [DecidableEq L] {one many f g t : L} {fs gs ts : List L}

/-- In a pattern, `many` stands at the end only. -/
def WellFormed (many : L) (fs : List L) : Prop := many ∉ fs.dropLast

omit [DecidableEq L] in
theorem WellFormed.of_cons (h : WellFormed many (f :: fs)) : WellFormed many fs := by
  cases fs with
  | nil => exact List.not_mem_nil
  | cons g gs => exact fun hmem => h (List.mem_cons_of_mem _ hmem)

omit [DecidableEq L] in
theorem WellFormed.eq_nil_of_many (h : WellFormed many (many :: fs)) : fs = [] := by
  cases fs with
  | nil => rfl
  | cons g gs => exact absurd (List.mem_cons_self ..) h

/-- No level is matched by a level only. -/
theorem isMatch_cons_nil_false (f : L) (fs : List L) :
    isMatch one many false (f :: fs) [] = false := by
  by_cases h : fs = [] ∧ f = many
  · obtain ⟨rfl, rfl⟩ := h
    simp
  · exact isMatch_cons_nil h

/-- The first level of a match, if it is not `many`. -/
theorem isMatch_cons_ne (hf : f ≠ many) :
    isMatch one many false (f :: fs) (t :: ts) =
      ((f = t || f = one) && isMatch one many false fs ts) :=
  isMatch_cons_cons fun h => hf h.2

/-! ### The meet -/

/-- The pattern of what both patterns match. -/
def meet (one many : L) : List L → List L → Option (List L)
  | [], [] => some []
  | [], _ :: _ => none
  | _ :: _, [] => none
  | f :: fs, g :: gs =>
    if f = many then some (g :: gs)
    else if g = many then some (f :: fs)
    else if f = one then (meet one many fs gs).map (g :: ·)
    else if g = one ∨ f = g then (meet one many fs gs).map (f :: ·)
    else none

/-- A level of a pattern that matches a level. -/
theorem any_map_cons {p : Option (List L)} (hg : g ≠ many) :
    (p.map (g :: ·)).any (isMatch one many false · (t :: ts)) =
      ((g = t || g = one) && p.any (isMatch one many false · ts)) := by
  cases p with
  | none => simp
  | some fs => exact isMatch_cons_ne hg

/-- The meet matches what both match. -/
theorem any_meet (hf : WellFormed many fs) (hg : WellFormed many gs) (ts : List L) :
    (meet one many fs gs).any (isMatch one many false · ts) =
      (isMatch one many false fs ts && isMatch one many false gs ts) := by
  -- the induction is on the first pattern; both consume a level in each round
  induction fs generalizing gs ts with
  | nil =>
    cases gs with
    | nil => simp [meet]
    | cons g gs =>
      cases ts with
      | nil => simp [meet, isMatch_cons_nil_false]
      | cons t ts => simp [meet]
  | cons f fs ih =>
    cases gs with
    | nil =>
      cases ts with
      | nil => simp [meet, isMatch_cons_nil_false]
      | cons t ts => simp [meet]
    | cons g gs =>
      have hrest := ih hf.of_cons hg.of_cons
      rw [meet]
      by_cases hfm : f = many
      · -- all levels that are left
        subst hfm
        rw [if_pos rfl, hf.eq_nil_of_many, isMatch_many]
        cases ts with
        | nil => simp [isMatch_cons_nil_false]
        | cons t ts => simp
      · rw [if_neg hfm]
        by_cases hgm : g = many
        · subst hgm
          rw [if_pos rfl, hg.eq_nil_of_many, isMatch_many]
          cases ts with
          | nil => simp [isMatch_cons_nil_false]
          | cons t ts => simp
        · rw [if_neg hgm]
          cases ts with
          -- a pattern with another level does not match without one
          | nil =>
            rw [isMatch_cons_nil_false, Bool.false_and]
            split
            · cases meet one many fs gs <;> simp [isMatch_cons_nil_false]
            · split
              · cases meet one many fs gs <;> simp [isMatch_cons_nil_false]
              · rfl
          | cons t ts =>
            rw [isMatch_cons_ne hfm, isMatch_cons_ne hgm]
            by_cases hfo : f = one
            · rw [if_pos hfo, any_map_cons hgm, hrest]
              simp [hfo, Bool.and_left_comm]
            · rw [if_neg hfo]
              -- the meet has a level that both accept
              by_cases hfg : g = one ∨ f = g
              · rw [if_pos hfg, any_map_cons hfm, hrest]
                by_cases hft : f = t
                · have hlevel : (decide (g = t) || decide (g = one)) = true := by
                    rcases hfg with h | h
                    · simp [h]
                    · simp [← h, hft]
                  rw [hlevel, Bool.true_and, Bool.and_assoc]
                · simp [hft, hfo]
              · -- two levels that are different
                obtain ⟨hgo, hne⟩ := not_or.mp hfg
                rw [if_neg hfg]
                by_cases hft : f = t
                · have hgt : g ≠ t := fun h => hne (hft.trans h.symm)
                  simp [hgt, hgo]
                · simp [hft, hfo]

/-- The meet is a pattern, and its levels are those of the two. -/
theorem meet_levels {rs : List L} (hf : WellFormed many fs) (hg : WellFormed many gs)
    (h : meet one many fs gs = some rs) :
    WellFormed many rs ∧ ∀ t ∈ rs, t ∈ fs ∨ t ∈ gs := by
  induction fs generalizing gs rs with
  | nil =>
    cases gs with
    | nil =>
      obtain rfl := Option.some.inj h
      exact ⟨List.not_mem_nil, nofun⟩
    | cons g gs => exact nomatch h
  | cons f fs ih =>
    cases gs with
    | nil => exact nomatch h
    | cons g gs =>
      -- a first level before the meet of the rest
      have hcons {k : L} (hk : k = f ∨ k = g) (hne : k ≠ many)
          (h : (meet one many fs gs).map (k :: ·) = some rs) :
          WellFormed many rs ∧ ∀ t ∈ rs, t ∈ f :: fs ∨ t ∈ g :: gs := by
        obtain ⟨qs, hqs, rfl⟩ := Option.map_eq_some_iff.mp h
        obtain ⟨hwf, hmem⟩ := ih hf.of_cons hg.of_cons hqs
        constructor
        · cases qs with
          | nil => exact List.not_mem_nil
          | cons q qs =>
            intro hmany
            rcases List.mem_cons.mp hmany with heq | hmany
            · exact hne heq.symm
            · exact hwf hmany
        · intro t ht
          rcases List.mem_cons.mp ht with rfl | ht
          · rcases hk with rfl | rfl
            · exact .inl (List.mem_cons_self ..)
            · exact .inr (List.mem_cons_self ..)
          · exact (hmem t ht).imp (List.mem_cons_of_mem _) (List.mem_cons_of_mem _)
      rw [meet] at h
      split at h
      · obtain rfl := Option.some.inj h
        exact ⟨hg, fun t ht => .inr ht⟩
      · next hfm =>
        split at h
        · obtain rfl := Option.some.inj h
          exact ⟨hf, fun t ht => .inl ht⟩
        · next hgm =>
          split at h
          · exact hcons (.inr rfl) hgm h
          · split at h
            · exact hcons (.inl rfl) hfm h
            · exact nomatch h

theorem meet_eq_some_nil (h : meet one many fs gs = some []) : fs = [] ∧ gs = [] := by
  cases fs with
  | nil =>
    cases gs with
    | nil => exact ⟨rfl, rfl⟩
    | cons g gs => exact nomatch h
  | cons f fs =>
    cases gs with
    | nil => exact nomatch h
    | cons g gs =>
      rw [meet] at h
      split at h
      · exact nomatch h
      · split at h
        · exact nomatch h
        · split at h
          · obtain ⟨qs, -, hqs⟩ := Option.map_eq_some_iff.mp h
            exact nomatch hqs
          · split at h
            · obtain ⟨qs, -, hqs⟩ := Option.map_eq_some_iff.mp h
              exact nomatch hqs
            · exact nomatch h

/-- A meet of one level is one of the patterns. -/
theorem eq_of_meet_singleton {k : L} (h : meet one many fs gs = some [k]) :
    fs = [k] ∨ gs = [k] := by
  cases fs with
  | nil =>
    cases gs with
    | nil => exact nomatch h
    | cons g gs => exact nomatch h
  | cons f fs =>
    cases gs with
    | nil => exact nomatch h
    | cons g gs =>
      rw [meet] at h
      split at h
      · exact .inr (Option.some.inj h)
      · split at h
        · exact .inl (Option.some.inj h)
        · split at h
          · obtain ⟨qs, hqs, heq⟩ := Option.map_eq_some_iff.mp h
            obtain ⟨rfl, rfl⟩ := List.cons.inj heq
            rw [(meet_eq_some_nil hqs).2]
            exact .inr rfl
          · split at h
            · obtain ⟨qs, hqs, heq⟩ := Option.map_eq_some_iff.mp h
              obtain ⟨rfl, rfl⟩ := List.cons.inj heq
              rw [(meet_eq_some_nil hqs).1]
              exact .inl rfl
            · exact nomatch h

/-! ### Levels that are no wildcards -/

/-- The pattern with a level in the place of each wildcard -/
def fill (one many x : L) (fs : List L) : List L :=
  fs.map fun f => if f = one ∨ f = many then x else f

/-- Every pattern matches something. -/
theorem isMatch_fill (hf : WellFormed many fs) (x : L) :
    isMatch one many false fs (fill one many x fs) := by
  induction fs with
  | nil => rfl
  | cons f fs ih =>
    by_cases hfm : f = many
    · subst hfm
      rw [hf.eq_nil_of_many, isMatch_many]
      rfl
    · show isMatch one many false (f :: fs) (_ :: fill one many x fs)
      rw [isMatch_cons_ne hfm, ih hf.of_cons]
      by_cases hfo : f = one
      · simp [hfo]
      · simp [hfo, hfm]

/-- There is a level that is no wildcard and differs from a given one. -/
def Plenty (P : L → Prop) : Prop := ∀ f, ∃ x, P x ∧ x ≠ f

theorem mem_fill {P : L → Prop} {x : L} (hx : P x) (hfs : ∀ f ∈ fs, f = one ∨ f = many ∨ P f)
    (ht : t ∈ fill one many x fs) : P t := by
  obtain ⟨f, hf, rfl⟩ := List.mem_map.mp ht
  split
  · exact hx
  · next hne =>
    obtain ⟨hfo, hfm⟩ := not_or.mp hne
    exact ((hfs f hf).resolve_left hfo).resolve_left hfm

/-! ### Covering -/

/-- The first pattern matches whatever the second one does. -/
def covers (one many : L) : List L → List L → Bool
  | [], gs => gs.isEmpty
  | _ :: _, [] => false
  | f :: fs, g :: gs =>
    if f = many then true
    else if g = many then false
    else (f = g || f = one) && covers one many fs gs

/-- A pattern matches what one that it covers matches. -/
theorem isMatch_of_covers (hf : WellFormed many fs) (h : covers one many fs gs)
    (hmatch : isMatch one many false gs ts) : isMatch one many false fs ts := by
  -- the induction is on the covering filter, with the other filter and the topic along
  induction fs generalizing gs ts with
  | nil =>
    obtain rfl : gs = [] := by simpa [covers] using h
    exact hmatch
  | cons f fs ih =>
    cases gs with
    | nil => exact nomatch h
    | cons g gs =>
      cases ts with
      | nil =>
        rw [isMatch_cons_nil_false] at hmatch
        exact nomatch hmatch
      | cons t ts =>
        rw [covers] at h
        split at h
        -- the wildcard for the rest covers everything
        · next hfm =>
          subst hfm
          rw [hf.eq_nil_of_many, isMatch_many]
          rfl
        · next hfm =>
          split at h
          · exact nomatch h
          -- both filters take one level
          · next hgm =>
            obtain ⟨hfg, hrest⟩ := Bool.and_eq_true_iff.mp h
            rw [isMatch_cons_ne hgm] at hmatch
            obtain ⟨hgt, hts⟩ := Bool.and_eq_true_iff.mp hmatch
            rw [isMatch_cons_ne hfm, ih hf.of_cons hrest hts]
            have hft : f = t ∨ f = one := by
              simp only [Bool.or_eq_true, decide_eq_true_iff] at hfg hgt
              rcases hfg with rfl | hfo
              · exact hgt
              · exact .inr hfo
            simpa using hft

/-- A pattern that does not cover another one misses something that the other one matches. -/
theorem exists_of_not_covers {P : L → Prop} (hP : Plenty P) (hf : WellFormed many fs)
    (hg : WellFormed many gs) (hgs : ∀ g ∈ gs, g = one ∨ g = many ∨ P g)
    (h : covers one many fs gs = false) :
    ∃ ts, (∀ t ∈ ts, P t) ∧ isMatch one many false gs ts = true ∧
      isMatch one many false fs ts = false := by
  obtain ⟨x, hx, -⟩ := hP one
  induction fs generalizing gs with
  | nil =>
    -- no level is missing, but there are some
    refine ⟨fill one many x gs, fun t ht => mem_fill hx hgs ht, isMatch_fill hg x, ?_⟩
    cases gs with
    | nil => exact nomatch h
    | cons g gs => rfl
  | cons f fs ih =>
    cases gs with
    | nil => exact ⟨[], nofun, rfl, isMatch_cons_nil_false f fs⟩
    | cons g gs =>
      have hgs' : ∀ g ∈ gs, g = one ∨ g = many ∨ P g := fun g hg => hgs g (List.mem_cons_of_mem _ hg)
      rw [covers] at h
      split at h
      · exact nomatch h
      · next hfm =>
        split at h
        · next hgm =>
          subst hgm
          rw [hg.eq_nil_of_many]
          by_cases hfo : f = one
          · -- `many` may stand for one level or for two
            subst hfo
            cases fs with
            | nil => exact ⟨[x, x], by simp [hx], by simp, by rw [isMatch_cons_ne hfm]; simp⟩
            | cons f' fs =>
              refine ⟨[x], by simp [hx], by simp, ?_⟩
              rw [isMatch_cons_ne hfm, isMatch_cons_nil_false, Bool.and_false]
          · obtain ⟨y, hy, hne⟩ := hP f
            refine ⟨[y], by simp [hy], by simp, ?_⟩
            rw [isMatch_cons_ne hfm]
            simp [hne.symm, hfo]
        · next hgm =>
          rcases Bool.and_eq_false_iff.mp h with hfg | hrest
          · -- another level than `f`
            obtain ⟨hfg, hfo⟩ : f ≠ g ∧ f ≠ one := by simpa using hfg
            obtain ⟨y, hy, hyf, hgy⟩ : ∃ y, P y ∧ y ≠ f ∧ (g = y ∨ g = one) := by
              rcases hgs g (List.mem_cons_self ..) with hgo | hgm' | hPg
              · obtain ⟨y, hy, hne⟩ := hP f
                exact ⟨y, hy, hne, .inr hgo⟩
              · exact absurd hgm' hgm
              · exact ⟨g, hPg, hfg.symm, .inl rfl⟩
            refine ⟨y :: fill one many x gs, ?_, ?_, ?_⟩
            · intro t ht
              rcases List.mem_cons.mp ht with rfl | ht
              · exact hy
              · exact mem_fill hx hgs' ht
            · rw [isMatch_cons_ne hgm, isMatch_fill hg.of_cons]
              simpa using hgy
            · rw [isMatch_cons_ne hfm]
              simp [hyf.symm, hfo]
          · obtain ⟨ts, hts, hmatch, hmiss⟩ := ih hf.of_cons hg.of_cons hgs' hrest
            obtain ⟨y, hy, hgy⟩ : ∃ y, P y ∧ (g = y ∨ g = one) := by
              rcases hgs g (List.mem_cons_self ..) with hgo | hgm' | hPg
              · exact ⟨x, hx, .inr hgo⟩
              · exact absurd hgm' hgm
              · exact ⟨g, hPg, .inl rfl⟩
            refine ⟨y :: ts, ?_, ?_, ?_⟩
            · intro t ht
              rcases List.mem_cons.mp ht with rfl | ht
              · exact hy
              · exact hts t ht
            · rw [isMatch_cons_ne hgm, hmatch]
              simpa using hgy
            · rw [isMatch_cons_ne hfm, hmiss, Bool.and_false]

end LevelMatch
