import AsyncMqtt.Spec.TopicFilterGrammar

/-!
# Comparing a topic filter with a topic name

`compare_topic_filter` compares two strings and removes what it has compared. Character by character
it does the following: equal characters are removed from both, a `+` is removed from the filter and
the rest of a level from the name, and a `#` ends the comparison. If the level is the last one, there
is no separator after it and the code removes more characters than there are.

## Key results

- `compareWildcards_levels`: what the loop does with the levels
- `compareTopicFilter_eq`: the loop compares level by level, unless it comes to a `+` at the last
  level of the name
-/

namespace AsyncMqtt

open StringView

variable {f t u : Buffer} {fs ts us : List Buffer} {c d : UInt8} {idx pos : Nat}

/-! ### Character by character -/

/-- The wildcard characters -/
abbrev wildcards : Buffer := [0x2b, 0x23]

theorem findFirstOf_nil (chars : Buffer) : findFirstOf [] chars pos = none := by
  simp [findFirstOf]

theorem findFirstOf_cons_zero (c : UInt8) (f chars : Buffer) :
    findFirstOf (c :: f) chars 0 =
      if c ∈ chars then some 0 else (findFirstOf f chars 0).map (· + 1) := by
  unfold findFirstOf
  rw [List.drop_zero, List.drop_zero, List.findIdx?_cons]
  by_cases hc : c ∈ chars
  · simp [hc]
  · simp [hc, Function.comp_def]

theorem findFirstOf_cons_succ (c : UInt8) (f chars : Buffer) (pos : Nat) :
    findFirstOf (c :: f) chars (pos + 1) = (findFirstOf f chars pos).map (· + 1) := by
  unfold findFirstOf
  rw [List.drop_succ_cons, Option.map_map]
  congr 1
  funext i
  show pos + 1 + i = pos + i + 1
  omega

theorem removePrefix_cons (c : UInt8) (f : Buffer) (n : Option Nat) :
    removePrefix (c :: f) (n.map (· + 1)) = removePrefix f n := by
  cases n with
  | none => rfl
  | some n => simp [removePrefix]

/-- One turn of the loop -/
theorem compareWildcards_eq (f t : Buffer) :
    compareWildcards f t =
      match findFirstOf f wildcards 0 with
      | none => some (decide (f = t))
      | some idx =>
        if f[idx]? = some 0x2b then
          if substr f idx = substr t idx then
            (removePrefix f (some (idx + 1))).bind fun f =>
              (removePrefix t (StringView.find t topicFilterSeparator idx)).bind
                (compareWildcards f)
          else some false
        else some (decide (substr f idx = substr t idx)) := by
  rw [compareWildcards]
  cases hidx : findFirstOf f wildcards 0 with
  | none => rfl
  | some idx =>
    dsimp only
    split
    · split
      · cases removePrefix f (some (idx + 1)) with
        | none => rfl
        | some f' =>
          cases removePrefix t (StringView.find t topicFilterSeparator idx) with
          | none => rfl
          | some t' => rfl
      · rfl
    · rfl

/-- At the end of the filter, the name has to end. -/
theorem compareWildcards_nil (t : Buffer) : compareWildcards [] t = some (decide (t = [])) := by
  rw [compareWildcards_eq, findFirstOf_nil]
  simp [eq_comm]

/-- `#` -/
theorem compareWildcards_hash (f t : Buffer) : compareWildcards (0x23 :: f) t = some true := by
  rw [compareWildcards_eq, findFirstOf_cons_zero]
  simp [substr]

/-- `+`: the rest of the level is removed from the name. -/
theorem compareWildcards_plus (f t : Buffer) :
    compareWildcards (0x2b :: f) t =
      (removePrefix t (StringView.find t topicFilterSeparator 0)).bind (compareWildcards f) := by
  rw [compareWildcards_eq, findFirstOf_cons_zero]
  simp [substr, removePrefix]

/-- Other characters have to be equal. -/
theorem compareWildcards_cons (hc : c ∉ wildcards) (f t : Buffer) :
    compareWildcards (c :: f) t =
      match t with
      | [] => some false
      | d :: t => if c = d then compareWildcards f t else some false := by
  rw [compareWildcards_eq, findFirstOf_cons_zero, if_neg hc]
  cases t with
  | nil =>
    cases findFirstOf f wildcards 0 with
    | none => simp
    | some idx => simp [substr]
  | cons d t =>
    dsimp only
    -- the characters before the first wildcard are compared one by one
    by_cases hcd : c = d
    · rw [if_pos hcd, compareWildcards_eq f t]
      subst hcd
      cases findFirstOf f wildcards 0 with
      | none => simp
      | some idx =>
        have hfind : StringView.find (c :: t) topicFilterSeparator (idx + 1) =
            (StringView.find t topicFilterSeparator idx).map (· + 1) :=
          findFirstOf_cons_succ c t _ idx
        have hremove : removePrefix (c :: f) (some (idx + 1 + 1)) =
            removePrefix f (some (idx + 1)) := removePrefix_cons c f (some (idx + 1))
        -- up to the wildcard the filter and the name have to agree
        by_cases htake : f.take idx = t.take idx
        · simp [substr, htake, hfind, hremove, removePrefix_cons]
        · simp [substr, htake]
    · rw [if_neg hcd]
      cases findFirstOf f wildcards 0 with
      | none => simp [hcd]
      | some idx => simp [substr, hcd]

/-! ### Level by level -/

theorem compareWildcards_separator (f t : Buffer) :
    compareWildcards (topicFilterSeparator :: f) (topicFilterSeparator :: t) =
      compareWildcards f t := by
  rw [compareWildcards_cons (by decide)]
  exact if_pos rfl

/-- A level that is not a wildcard has to be equal. -/
theorem compareWildcards_level (hf : IsPlainLevel f) (hsep : topicFilterSeparator ∉ f)
    (hu : topicFilterSeparator ∉ u) :
    compareWildcards (f ++ below fs) (u ++ below us) =
      if f = u then compareWildcards (below fs) (below us) else some false := by
  induction f generalizing u with
  | nil =>
    cases u with
    | nil => simp
    | cons d u =>
      -- the level of the filter ends first
      have hd : topicFilterSeparator ≠ d := fun heq => hu (heq ▸ List.mem_cons_self ..)
      rw [if_neg (List.cons_ne_nil d u).symm, List.nil_append, List.cons_append]
      cases fs with
      | nil => exact compareWildcards_nil _
      | cons g gs =>
        show compareWildcards (topicFilterSeparator :: (g ++ below gs)) _ = _
        rw [compareWildcards_cons (by decide)]
        exact if_neg hd
  | cons c f ih =>
    have hc : c ∉ wildcards := by
      have hplus : c ≠ 0x2b := fun heq => hf.1 (heq ▸ List.mem_cons_self ..)
      have hhash : c ≠ 0x23 := fun heq => hf.2 (heq ▸ List.mem_cons_self ..)
      simp [wildcards, hplus, hhash]
    have hf' : IsPlainLevel f :=
      ⟨fun h => hf.1 (List.mem_cons_of_mem _ h), fun h => hf.2 (List.mem_cons_of_mem _ h)⟩
    have hcsep : c ≠ topicFilterSeparator := fun heq => hsep (heq ▸ List.mem_cons_self ..)
    rw [List.cons_append, compareWildcards_cons hc]
    cases u with
    | nil =>
      -- the level of the name ends first
      rw [if_neg (List.cons_ne_nil c f)]
      cases us with
      | nil => rfl
      | cons v us => exact if_neg hcsep
    | cons d u =>
      have hrest := ih hf' (fun h => hsep (List.mem_cons_of_mem _ h))
        (fun h => hu (List.mem_cons_of_mem _ h)) (u := u)
      dsimp only [List.cons_append]
      rw [hrest]
      by_cases hcd : c = d
      · simp [hcd]
      · simp [hcd]

/-- The rest of a level is removed up to the next one, if there is one. -/
theorem removePrefix_level (hu : topicFilterSeparator ∉ u) :
    removePrefix (u ++ below us) (StringView.find (u ++ below us) topicFilterSeparator 0) =
      if us = [] then none else some (below us) := by
  induction u with
  | nil =>
    cases us with
    | nil => simp [below, StringView.find, findFirstOf_nil, removePrefix]
    | cons v us =>
      show removePrefix (topicFilterSeparator :: (v ++ below us))
        (findFirstOf (topicFilterSeparator :: (v ++ below us)) [topicFilterSeparator] 0) = _
      rw [findFirstOf_cons_zero, if_pos (List.mem_singleton.mpr rfl)]
      rfl
  | cons c u ih =>
    have hc : c ∉ [topicFilterSeparator] := by
      rw [List.mem_singleton]
      exact fun heq => hu (heq ▸ List.mem_cons_self ..)
    have hrest := ih fun h => hu (List.mem_cons_of_mem _ h)
    rw [List.cons_append, StringView.find, findFirstOf_cons_zero, if_neg hc, removePrefix_cons]
    exact hrest

/-- What the loop does with the levels: it comes to no result at a `+` after which the name ends. -/
def compareLevels : List Buffer → List Buffer → Option Bool
  | [], ts => some ts.isEmpty
  | _ :: _, [] => some false
  | f :: fs, t :: ts =>
    if f = hashLevel then some true
    else if f = plusLevel then if ts = [] then none else compareLevels fs ts
    else if f = t then compareLevels fs ts
    else some false

theorem compareWildcards_levels (hfs : IsFilterLevels fs) (hfsep : IsSplit fs) (htsep : IsSplit ts) :
    compareWildcards (below fs) (below ts) = compareLevels fs ts := by
  -- the induction is on the levels of the filter
  induction fs generalizing ts with
  | nil =>
    rw [compareLevels]
    cases ts with
    | nil => exact compareWildcards_nil []
    | cons u us => exact compareWildcards_nil (below (u :: us))
  | cons f fs ih =>
    have hsepf := hfsep f (List.mem_cons_self ..)
    have hfsep' : IsSplit fs := fun t ht => hfsep t (List.mem_cons_of_mem _ ht)
    -- the name may end before the filter
    cases ts with
    | nil =>
      show compareWildcards (topicFilterSeparator :: (f ++ below fs)) [] = some false
      rw [compareWildcards_cons (by decide)]
    | cons u us =>
      have hsepu := htsep u (List.mem_cons_self ..)
      have htsep' : IsSplit us := fun t ht => htsep t (List.mem_cons_of_mem _ ht)
      show compareWildcards (topicFilterSeparator :: (f ++ below fs))
        (topicFilterSeparator :: (u ++ below us)) = _
      rw [compareWildcards_separator, compareLevels]
      obtain ⟨hf, hrest⟩ := isFilterLevels_cons.mp hfs
      have hfs' : IsFilterLevels fs := by
        rcases hrest with rfl | hrest
        · exact isFilterLevels_nil
        · exact hrest
      -- the level of the filter is `#`, `+` or has no wildcard
      by_cases hhash : f = hashLevel
      · rw [if_pos hhash, hhash]
        exact compareWildcards_hash (below fs) _
      · rw [if_neg hhash]
        by_cases hplus : f = plusLevel
        · -- the rest of the level is removed, if the name goes on
          rw [if_pos hplus, hplus]
          show compareWildcards (0x2b :: below fs) (u ++ below us) = _
          rw [compareWildcards_plus, removePrefix_level hsepu]
          by_cases hus : us = []
          · rw [if_pos hus, if_pos hus]
            rfl
          · rw [if_neg hus, if_neg hus]
            exact ih hfs' hfsep' htsep'
        · have hplain : IsPlainLevel f := by
            rcases hf with h | ⟨h, -⟩ | h
            · exact absurd h hplus
            · exact absurd h hhash
            · exact h
          rw [if_neg hplus, compareWildcards_level hplain hsepf hsepu, ih hfs' hfsep' htsep']

/-- The comparison comes to a `+` at the last level of the name. -/
def StopsAtPlus (fs ts : List Buffer) : Prop :=
  ∃ gs hs us u, fs = gs ++ plusLevel :: hs ∧ ts = us ++ [u] ∧
    LevelMatch.isMatch plusLevel hashLevel false gs us

theorem stopsAtPlus_nil : ¬ StopsAtPlus [] ts := by
  rintro ⟨gs, hs, us, u, hfs, -⟩
  simp at hfs

theorem stopsAtPlus_cons_nil : ¬ StopsAtPlus fs [] := by
  rintro ⟨gs, hs, us, u, -, hts, -⟩
  simp at hts

theorem stopsAtPlus_plus (fs : List Buffer) (t : Buffer) : StopsAtPlus (plusLevel :: fs) [t] :=
  ⟨[], fs, [], t, rfl, rfl, rfl⟩

/-- What the first level says, if it is not the last one -/
theorem stopsAtPlus_cons (hhash : f ≠ hashLevel) (hlast : f = plusLevel → ts ≠ []) :
    StopsAtPlus (f :: fs) (t :: ts) ↔ (f = t ∨ f = plusLevel) ∧ StopsAtPlus fs ts := by
  have hmany (gs : List Buffer) : ¬ (gs = [] ∧ f = hashLevel) := fun h => hhash h.2
  constructor
  · rintro ⟨gs, hs, us, u, hfs, hts, hmatch⟩
    cases gs with
    | nil =>
      -- the first level is `+`, and nothing comes before it in the name
      obtain ⟨rfl, rfl⟩ := List.cons.inj hfs
      obtain rfl : us = [] := by simpa using hmatch
      obtain ⟨-, rfl⟩ := List.cons.inj hts
      exact absurd rfl (hlast rfl)
    | cons g gs =>
      obtain ⟨rfl, rfl⟩ := List.cons.inj hfs
      cases us with
      | nil =>
        rw [LevelMatch.isMatch_cons_nil (hmany gs)] at hmatch
        cases hmatch
      | cons v us =>
        obtain ⟨rfl, rfl⟩ := List.cons.inj hts
        rw [LevelMatch.isMatch_cons_cons (hmany gs)] at hmatch
        obtain ⟨hfirst, hrest⟩ := Bool.and_eq_true_iff.mp hmatch
        exact ⟨by simpa using hfirst, gs, hs, us, u, rfl, rfl, hrest⟩
  · rintro ⟨hfirst, gs, hs, us, u, rfl, rfl, hmatch⟩
    refine ⟨f :: gs, hs, t :: us, u, rfl, rfl, ?_⟩
    rw [LevelMatch.isMatch_cons_cons (hmany gs), hmatch]
    simpa using hfirst

/-- The levels are compared as they match, but for the `+` at the last level of the name. -/
theorem compareLevels_cases (hfs : IsFilterLevels fs) (ts : List Buffer) :
    (StopsAtPlus fs ts ∧ compareLevels fs ts = none) ∨
      (¬ StopsAtPlus fs ts ∧ compareLevels fs ts =
        some (LevelMatch.isMatch plusLevel hashLevel false fs ts)) := by
  induction fs generalizing ts with
  | nil => exact .inr ⟨stopsAtPlus_nil, by rw [compareLevels, LevelMatch.isMatch_nil]⟩
  | cons f fs ih =>
    obtain ⟨hf, hrest⟩ := isFilterLevels_cons.mp hfs
    have hfs' : IsFilterLevels fs := by
      rcases hrest with rfl | hrest
      · exact isFilterLevels_nil
      · exact hrest
    cases ts with
    -- the name has ended; only a `#` that is left matches
    | nil =>
      right
      refine ⟨stopsAtPlus_cons_nil, ?_⟩
      by_cases hmany : fs = [] ∧ f = hashLevel
      · obtain ⟨rfl, rfl⟩ := hmany
        rfl
      · rw [LevelMatch.isMatch_cons_nil hmany]
        rfl
    | cons t ts =>
      rw [compareLevels]
      by_cases hhash : f = hashLevel
      · -- `#` is the last level, and the name goes on
        obtain rfl : fs = [] := by
          rcases hf with h | ⟨-, h⟩ | h
          · rw [hhash] at h
            exact absurd h (by decide)
          · exact h
          · rw [hhash] at h
            exact absurd (List.mem_singleton.mpr rfl) h.2
        subst hhash
        refine .inr ⟨?_, by rw [LevelMatch.isMatch_many]; rfl⟩
        rintro ⟨gs, hs, us, u, hfs, -⟩
        cases gs with
        | nil => exact absurd (List.cons.inj hfs).1 (by decide)
        | cons g gs => simp at hfs
      · have hmany : ¬ (fs = [] ∧ f = hashLevel) := fun h => hhash h.2
        rw [if_neg hhash, LevelMatch.isMatch_cons_cons hmany]
        by_cases hplus : f = plusLevel
        · rw [if_pos hplus]
          -- the comparison stops at a `+` that meets the last level
          by_cases hts : ts = []
          · subst hplus hts
            exact .inl ⟨stopsAtPlus_plus fs t, rfl⟩
          · rw [if_neg hts, stopsAtPlus_cons hhash fun _ => hts]
            simpa [hplus] using ih hfs' ts
        · rw [if_neg hplus, stopsAtPlus_cons hhash fun h => absurd h hplus]
          by_cases hft : f = t
          · rw [if_pos hft]
            simpa [hft] using ih hfs' ts
          · rw [if_neg hft]
            exact .inr ⟨by simp [hft, hplus], by simp [hft, hplus]⟩

/-- The loop compares level by level. -/
theorem compareTopicFilter_eq (hf : validateTopicFilter f) (ht : validateTopicName t) :
    compareTopicFilter f t = compareLevels (topicFilterTokens f) (topicFilterTokens t) := by
  have hlevels := (validateTopicFilter_iff_grammar.mp hf).2.2
  have hloop := compareWildcards_levels hlevels (isSplit_tokens f) (isSplit_tokens t)
  rw [below_tokens, below_tokens, compareWildcards_separator] at hloop
  rw [← hloop, compareTopicFilter, hf, ht]
  rfl

/-- A valid filter is compared with a valid name as the levels match, unless the comparison comes to a
    `+` at the last level of the name. -/
theorem compares_iff (hf : validateTopicFilter f) (ht : validateTopicName t) :
    compareTopicFilter f t = some (LevelMatch.isMatch plusLevel hashLevel false
      (topicFilterTokens f) (topicFilterTokens t)) ↔
      ¬ StopsAtPlus (topicFilterTokens f) (topicFilterTokens t) := by
  have hlevels := (validateTopicFilter_iff_grammar.mp hf).2.2
  rw [compareTopicFilter_eq hf ht]
  rcases compareLevels_cases hlevels (topicFilterTokens t) with ⟨hstops, hnone⟩ | ⟨hgoes, hsome⟩
  · rw [hnone]
    exact ⟨fun h => (nomatch h), fun h => absurd hstops h⟩
  · exact ⟨fun _ => hgoes, fun _ => hsome⟩

/-- `+/b` and `a/b` -/
theorem compares_iff_plus_b :
    compareTopicFilter [0x2b, 0x2f, 0x62] [0x61, 0x2f, 0x62] = some true := by
  have hlevels : topicFilterTokens [0x2b, 0x2f, 0x62] = [plusLevel, [0x62]] := rfl
  refine (compares_iff (by decide) (by decide)).mpr ?_
  rintro ⟨gs, hs, us, u, hfs, hts, hmatch⟩
  rw [hlevels] at hfs
  match gs with
  | [] =>
    -- the name does not end with its first level
    obtain rfl : us = [] := by simpa using hmatch
    have hlen : 2 = 1 := congrArg List.length hts
    exact absurd hlen (by decide)
  | [g] => simp [plusLevel] at hfs
  | g :: g' :: gs => simp at hfs

/-- `+` and `bob`: the whole name should be removed, and more is removed than there is. -/
theorem compare_last_plus :
    validateTopicFilter [0x2b] ∧ validateTopicName [0x62, 0x6f, 0x62] ∧
      LevelMatch.isMatch plusLevel hashLevel false (topicFilterTokens [0x2b])
        (topicFilterTokens [0x62, 0x6f, 0x62]) ∧
      compareTopicFilter [0x2b] [0x62, 0x6f, 0x62] = none := by
  refine ⟨by decide, by decide, by decide, ?_⟩
  rw [compareTopicFilter_eq (by decide) (by decide)]
  rfl

end AsyncMqtt
