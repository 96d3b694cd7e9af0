import Mathlib.Data.List.Infix
import Mathlib.Data.List.Nodup

/-!
# Patterns with wildcards

Patterns and what they match are lists over a type of levels. One level, `one`, stands for any
level where it stands in a pattern. Another, `many`, stands for any number of levels at the end of a
pattern; whether none is one of these numbers is a parameter. `search` finds the patterns of a
prefix-closed set that match, all at once.

## Key results

- `LevelMatch.mem_search`: what is found is what matches
- `LevelMatch.nodup_search`: nothing is found twice
-/

namespace LevelMatch

variable {L : Type} [DecidableEq L]

/-- The pattern matches the levels. With `parent`, `many` may stand for no level. -/
def isMatch (one many : L) (parent : Bool) : List L → List L → Bool
  | [], ts => ts.isEmpty
  | f :: fs, ts =>
    if fs = [] ∧ f = many then parent || ! ts.isEmpty
    else
      match ts with
      | [] => false
      | t :: ts => (f = t || f = one) && isMatch one many parent fs ts

variable {one many : L} {parent : Bool} {f t : L} {fs ts : List L}

@[simp] theorem isMatch_nil : isMatch one many parent [] ts = ts.isEmpty := rfl

@[simp] theorem isMatch_many : isMatch one many parent [many] ts = (parent || ! ts.isEmpty) := by
  simp [isMatch]

theorem isMatch_cons_nil (h : ¬ (fs = [] ∧ f = many)) :
    isMatch one many parent (f :: fs) [] = false := by
  rw [isMatch, if_neg h]

theorem isMatch_cons_cons (h : ¬ (fs = [] ∧ f = many)) :
    isMatch one many parent (f :: fs) (t :: ts) =
      ((f = t || f = one) && isMatch one many parent fs ts) := by
  rw [isMatch, if_neg h]

/-- The first level of a match. -/
theorem isMatch_cons_iff :
    isMatch one many false fs (t :: ts) ↔
      fs = [many] ∨ ∃ g gs, fs = g :: gs ∧ (g = t ∨ g = one) ∧ isMatch one many false gs ts := by
  cases fs with
  | nil => simp
  | cons g gs =>
    by_cases h : gs = [] ∧ g = many
    · obtain ⟨rfl, rfl⟩ := h
      simp
    · rw [isMatch_cons_cons h]
      constructor
      · intro hm
        obtain ⟨hg, hgs⟩ := Bool.and_eq_true_iff.mp hm
        exact .inr ⟨g, gs, rfl, by simpa using hg, hgs⟩
      · rintro (heq | ⟨g', gs', heq, hg, hgs⟩)
        · obtain ⟨rfl, rfl⟩ := List.cons.inj heq
          exact absurd ⟨rfl, rfl⟩ h
        · obtain ⟨rfl, rfl⟩ := List.cons.inj heq
          simpa [hgs] using hg

/-- What matches without its parent matches with it. -/
theorem isMatch_mono (h : isMatch one many false fs ts) : isMatch one many true fs ts := by
  induction fs generalizing ts with
  | nil => exact h
  | cons f fs ih =>
    by_cases hmany : fs = [] ∧ f = many
    · obtain ⟨rfl, rfl⟩ := hmany
      simp
    · cases ts with
      | nil =>
        rw [isMatch_cons_nil hmany] at h
        exact nomatch h
      | cons t ts =>
        rw [isMatch_cons_cons hmany] at h ⊢
        obtain ⟨hft, hts⟩ := Bool.and_eq_true_iff.mp h
        exact Bool.and_eq_true_iff.mpr ⟨hft, ih hts⟩

/-! ### Patterns without `many` -/

/-- Without `many`, a pattern is as long as what it matches. -/
theorem length_eq_of_isMatch (hfs : many ∉ fs) (h : isMatch one many parent fs ts) :
    ts.length = fs.length := by
  induction fs generalizing ts with
  | nil => simpa using h
  | cons f fs ih =>
    obtain ⟨hf, hfs⟩ := not_or.mp (mt List.mem_cons.mpr hfs)
    have hmany : ¬ (fs = [] ∧ f = many) := fun heq => hf heq.2.symm
    cases ts with
    | nil =>
      rw [isMatch_cons_nil hmany] at h
      exact nomatch h
    | cons t ts =>
      rw [isMatch_cons_cons hmany] at h
      rw [List.length_cons, List.length_cons, ih hfs (Bool.and_eq_true_iff.mp h).2]

/-- What `many` at the end stands for comes after a match of the levels before it. -/
theorem isMatch_append_many (hfs : many ∉ fs) :
    isMatch one many parent (fs ++ [many]) ts ↔
      ∃ p r, ts = p ++ r ∧ isMatch one many parent fs p ∧ (parent ∨ r ≠ []) := by
  -- the induction is on the levels of the filter before the wildcard
  induction fs generalizing ts with
  | nil =>
    rw [List.nil_append, isMatch_many]
    constructor
    · intro h
      exact ⟨[], ts, rfl, rfl, by simpa using h⟩
    · rintro ⟨p, r, rfl, hp, hr⟩
      obtain rfl : p = [] := by simpa using hp
      simpa using hr
  -- the first level takes one level of the topic, and the rest is split as before
  | cons f fs ih =>
    obtain ⟨hf, hfs⟩ := not_or.mp (mt List.mem_cons.mpr hfs)
    have hmany : ¬ (fs = [] ∧ f = many) := fun heq => hf heq.2.symm
    have hmany' : ¬ (fs ++ [many] = [] ∧ f = many) := fun heq => hf heq.2.symm
    rw [List.cons_append]
    cases ts with
    | nil =>
      rw [isMatch_cons_nil hmany']
      constructor
      · exact fun h => nomatch h
      · rintro ⟨p, r, heq, hp, -⟩
        obtain rfl := (List.append_eq_nil_iff.mp heq.symm).1
        rw [isMatch_cons_nil hmany] at hp
        exact nomatch hp
    | cons t ts =>
      rw [isMatch_cons_cons hmany', Bool.and_eq_true_iff, ih hfs]
      constructor
      · rintro ⟨hft, p, r, rfl, hp, hr⟩
        refine ⟨t :: p, r, rfl, ?_, hr⟩
        rw [isMatch_cons_cons hmany]
        exact Bool.and_eq_true_iff.mpr ⟨hft, hp⟩
      · rintro ⟨p, r, heq, hp, hr⟩
        -- a level of the filter cannot match the empty beginning
        cases p with
        | nil =>
          rw [isMatch_cons_nil hmany] at hp
          exact nomatch hp
        | cons t' p =>
          obtain ⟨rfl, rfl⟩ := List.cons.inj heq
          rw [isMatch_cons_cons hmany] at hp
          obtain ⟨hft, hp⟩ := Bool.and_eq_true_iff.mp hp
          exact ⟨hft, p, r, rfl, hp, hr⟩

/-! ### Searching for patterns -/

/-- The paths that are in the set among some. -/
def present (has : List L → Bool) (ps : List (List L)) : List (List L) := ps.filter has

/-- The patterns in the set `has` that begin with one of `qs` and go on with a match. -/
def search (one many : L) (has : List L → Bool) : List L → List (List L) → List (List L)
  | [], qs => qs
  | t :: ts, qs =>
    qs.flatMap (fun q => present has [q ++ [many]]) ++
      search one many has ts (qs.flatMap fun q => present has [q ++ [t], q ++ [one]])

variable {has : List L → Bool} {qs : List (List L)} {r : List L}

omit [DecidableEq L] in
theorem mem_present {ps : List (List L)} : r ∈ present has ps ↔ r ∈ ps ∧ has r := List.mem_filter

/-- What is found is what matches. -/
theorem mem_search (hpre : ∀ p q, p <+: q → has q → has p) (hqs : ∀ q ∈ qs, has q) :
    r ∈ search one many has ts qs ↔
      ∃ q ∈ qs, ∃ s, r = q ++ s ∧ has r ∧ isMatch one many false s ts := by
  induction ts generalizing qs with
  | nil =>
    rw [search]
    constructor
    · exact fun hr => ⟨r, hr, [], by simp, hqs r hr, rfl⟩
    · rintro ⟨q, hq, s, rfl, -, hs⟩
      cases s with
      | nil => simpa using hq
      | cons f fs =>
        by_cases h : fs = [] ∧ f = many
        · obtain ⟨rfl, rfl⟩ := h
          simp at hs
        · rw [isMatch_cons_nil h] at hs
          exact nomatch hs
  | cons t ts ih =>
    have hnext : ∀ q ∈ qs.flatMap (fun q => present has [q ++ [t], q ++ [one]]), has q := by
      intro q hq
      obtain ⟨q', -, hq'⟩ := List.mem_flatMap.mp hq
      exact (mem_present.mp hq').2
    rw [search, List.mem_append, ih hnext]
    constructor
    · rintro (hr | ⟨q', hq', s, rfl, hr, hs⟩)
      · obtain ⟨q, hq, hr⟩ := List.mem_flatMap.mp hr
        obtain ⟨hr, hhas⟩ := mem_present.mp hr
        obtain rfl := List.mem_singleton.mp hr
        exact ⟨q, hq, [many], rfl, hhas, by simp⟩
      · obtain ⟨q, hq, hq'⟩ := List.mem_flatMap.mp hq'
        obtain ⟨hq', -⟩ := mem_present.mp hq'
        -- the level that leads from `q` to `q'`
        obtain ⟨g, hg, rfl⟩ : ∃ g, (g = t ∨ g = one) ∧ q' = q ++ [g] := by
          rcases List.mem_cons.mp hq' with h | h
          · exact ⟨t, .inl rfl, h⟩
          · exact ⟨one, .inr rfl, List.mem_singleton.mp h⟩
        refine ⟨q, hq, g :: s, by simp, hr, ?_⟩
        exact isMatch_cons_iff.mpr (.inr ⟨g, s, rfl, hg, hs⟩)
    · rintro ⟨q, hq, s, rfl, hr, hs⟩
      rcases isMatch_cons_iff.mp hs with rfl | ⟨g, gs, rfl, hg, hgs⟩
      · left
        refine List.mem_flatMap.mpr ⟨q, hq, mem_present.mpr ⟨?_, hr⟩⟩
        exact List.mem_singleton_self _
      · right
        have hstep : has (q ++ [g]) := hpre _ _ ⟨gs, by simp⟩ hr
        refine ⟨q ++ [g], List.mem_flatMap.mpr ⟨q, hq, ?_⟩, gs, by simp, hr, hgs⟩
        refine mem_present.mpr ⟨?_, hstep⟩
        rcases hg with rfl | rfl <;> simp

omit [DecidableEq L] in
/-- Every path that is found begins with one of those from which the search starts. -/
theorem prefix_of_mem_search (h : r ∈ search one many has ts qs) : ∃ q ∈ qs, q <+: r := by
  induction ts generalizing qs with
  | nil => exact ⟨r, h, List.prefix_refl r⟩
  | cons t ts ih =>
    have hstep : ∀ {q' : List L} {ps : List L → List (List L)},
        (∀ q, ∀ p ∈ ps q, q <+: p) → q' ∈ qs.flatMap (fun q => present has (ps q)) →
        ∃ q ∈ qs, q <+: q' := by
      intro q' ps hps hq'
      obtain ⟨q, hq, hq'⟩ := List.mem_flatMap.mp hq'
      exact ⟨q, hq, hps q q' (mem_present.mp hq').1⟩
    rcases List.mem_append.mp h with h | h
    · exact hstep (fun q p hp => List.mem_singleton.mp hp ▸ List.prefix_append q _) h
    · obtain ⟨q', hq', hr⟩ := ih h
      obtain ⟨q, hq, hqq⟩ : ∃ q ∈ qs, q <+: q' := by
        refine hstep (fun q p hp => ?_) hq'
        rcases List.mem_cons.mp hp with rfl | hp
        · exact List.prefix_append q _
        · exact List.mem_singleton.mp hp ▸ List.prefix_append q _
      exact ⟨q, hq, hqq.trans hr⟩

omit [DecidableEq L] in
/-- The next level keeps the paths apart. -/
theorem nodup_next {ls : List L} (hls : ls.Nodup) (hqs : qs.Nodup) :
    (qs.flatMap fun q => present has (ls.map fun g => q ++ [g])).Nodup := by
  rw [List.nodup_flatMap]
  constructor
  · intro q _
    refine List.Nodup.filter _ (hls.map fun a b hab => ?_)
    exact List.singleton_inj.mp (List.append_cancel_left hab)
  · refine hqs.imp_of_mem fun {q q'} _ _ hne => ?_
    intro r hr hr'
    obtain ⟨g, -, rfl⟩ := List.mem_map.mp (mem_present.mp hr).1
    obtain ⟨g', -, heq⟩ := List.mem_map.mp (mem_present.mp hr').1
    exact hne (List.append_inj' heq.symm rfl).1

omit [DecidableEq L] in
/-- Nothing is found twice, if no level is a wildcard. -/
theorem nodup_search (hne : one ≠ many) (hts : ∀ t ∈ ts, t ≠ one ∧ t ≠ many) (hqs : qs.Nodup)
    {k : Nat} (hlen : ∀ q ∈ qs, q.length = k) : (search one many has ts qs).Nodup := by
  induction ts generalizing qs k with
  | nil => exact hqs
  | cons t ts ih =>
    obtain ⟨htone, htmany⟩ := hts t (List.mem_cons_self ..)
    have hmany : (qs.flatMap fun q => present has [q ++ [many]]).Nodup :=
      nodup_next (List.nodup_singleton many) hqs
    have hnext : (qs.flatMap fun q => present has [q ++ [t], q ++ [one]]).Nodup :=
      nodup_next (by simpa using htone : [t, one].Nodup) hqs
    have hnextlen : ∀ q ∈ qs.flatMap (fun q => present has [q ++ [t], q ++ [one]]),
        q.length = k + 1 := by
      intro q hq
      obtain ⟨q', hq', hq⟩ := List.mem_flatMap.mp hq
      have hlen' := hlen q' hq'
      rcases List.mem_cons.mp (mem_present.mp hq).1 with rfl | hq
      · simp [hlen']
      · obtain rfl := List.mem_singleton.mp hq
        simp [hlen']
    rw [search]
    refine hmany.append (ih (fun t ht => hts t (List.mem_cons_of_mem _ ht)) hnext hnextlen) ?_
    -- a path that ends with `many` is none of those that go on
    intro r hr hr'
    obtain ⟨q, hq, hr⟩ := List.mem_flatMap.mp hr
    obtain rfl := List.mem_singleton.mp (mem_present.mp hr).1
    obtain ⟨q', hq', hpre⟩ := prefix_of_mem_search hr'
    have heq : q' = q ++ [many] := by
      refine hpre.eq_of_length ?_
      rw [hnextlen q' hq', List.length_append, hlen q hq]
      rfl
    obtain ⟨q'', -, hq''⟩ := List.mem_flatMap.mp hq'
    rcases List.mem_cons.mp (mem_present.mp hq'').1 with h | h
    · have hlast := (List.append_inj' (heq.symm.trans h) rfl).2
      exact htmany (List.singleton_inj.mp hlast).symm
    · have hlast := (List.append_inj' (heq.symm.trans (List.mem_singleton.mp h)) rfl).2
      exact hne (List.singleton_inj.mp hlast).symm

end LevelMatch
