import AsyncMqtt.ForStd.LevelMeet
import AsyncMqtt.Native.Security
import AsyncMqtt.Spec.TopicFilterGrammar

/-!
# Authorized and denied topic filters

`is_subscribe_allowed` computes the meet of two topic filters, and `is_subscribe_denied` says whether
one of them covers the other. A topic has any number of levels, and here a wildcard at the first
level stands for a level of the server too.

The meet of two valid topic filters may be too long for a topic filter.

## Key results

- `Security.isSubscribeAllowed_eq`, `Security.isSubscribeDenied_eq_covers`: the loops
- `Security.allows_meet`, `Security.denies_covered`: what the results mean
-/

namespace AsyncMqtt

/-- The levels of a topic match a topic filter, `#` standing for one level or more. -/
def filterMatches (topicFilter : Buffer) (ts : List Buffer) : Bool :=
  LevelMatch.isMatch plusLevel hashLevel false (topicFilterTokens topicFilter) ts

/-- A level of a topic: no wildcard character, no separator and no null character -/
def IsTopicLevel (t : Buffer) : Prop := IsPlainLevel t ∧ topicFilterSeparator ∉ t ∧ 0x00 ∉ t

/-- The levels of a topic of any length -/
def IsTopic (ts : List Buffer) : Prop := ts ≠ [] ∧ ∀ t ∈ ts, IsTopicLevel t

namespace Security

variable {a s d r : Buffer} {fs gs ts : List Buffer} {result : Option Buffer}

/-! ### The loops -/

theorem foldl_appendResult (result : Buffer) (ts : List Buffer) :
    ts.foldl appendResult (some result) =
      some (result ++ below ts) := by
  induction ts generalizing result with
  | nil => simp [below]
  | cons t ts ih =>
    rw [List.foldl_cons]
    show ts.foldl appendResult (some (result ++ topicFilterSeparator :: t)) = _
    rw [ih]
    simp [below]

/-- The levels that are appended are joined. -/
theorem foldl_appendResult_none (hts : ts ≠ []) :
    ts.foldl appendResult none = some ([topicFilterSeparator].intercalate ts) := by
  cases ts with
  | nil => exact absurd rfl hts
  | cons t ts =>
    rw [List.foldl_cons]
    show ts.foldl appendResult (some t) = _
    rw [foldl_appendResult, intercalate_cons]

/-- The rest of a filter is appended as it is, or level by level. -/
theorem appendResult_intercalate (hts : ts ≠ []) (result : Option Buffer) :
    appendResult result ([topicFilterSeparator].intercalate ts) = ts.foldl appendResult result := by
  cases result with
  | none => rw [foldl_appendResult_none hts]; rfl
  | some result =>
    cases ts with
    | nil => exact absurd rfl hts
    | cons t ts =>
      rw [foldl_appendResult, intercalate_cons]
      rfl

theorem allowedLevels_eq (hgs : gs ≠ []) :
    allowedLevels result fs gs =
      (LevelMatch.meet plusLevel hashLevel fs gs).bind fun rs => rs.foldl appendResult result := by
  -- the induction is on the first filter, with the result so far
  induction fs generalizing gs result with
  | nil =>
    cases gs with
    | nil => exact absurd rfl hgs
    | cons g gs => rfl
  | cons f fs ih =>
    cases gs with
    | nil => exact absurd rfl hgs
    | cons g gs =>
      rw [allowedLevels, LevelMatch.meet]
      by_cases hf : f = hashLevel
      · rw [if_pos hf, if_pos hf, appendResult_intercalate hgs]
        rfl
      · rw [if_neg hf, if_neg hf]
        by_cases hg : g = hashLevel
        · rw [if_pos hg, if_pos hg]
          rfl
        · rw [if_neg hg, if_neg hg]
          -- the rest of the two filters
          have hrest (result : Option Buffer) :
              (if gs.isEmpty then if fs.isEmpty then result else none
                else allowedLevels result fs gs) =
                (LevelMatch.meet plusLevel hashLevel fs gs).bind
                  fun rs => rs.foldl appendResult result := by
            cases gs with
            | nil =>
              cases fs with
              | nil => rfl
              | cons f fs => rfl
            | cons g gs => exact ih (List.cons_ne_nil g gs)
          have hcons (k : Buffer) :
              ((LevelMatch.meet plusLevel hashLevel fs gs).map (k :: ·)).bind
                  (fun rs => rs.foldl appendResult result) =
                (LevelMatch.meet plusLevel hashLevel fs gs).bind
                  fun rs => rs.foldl appendResult (appendResult result k) := by
            cases LevelMatch.meet plusLevel hashLevel fs gs <;> rfl
          dsimp only
          rw [hrest]
          -- the cases are those of the meet: a `+`, equal levels, or no meet at all
          by_cases hfp : f = plusLevel
          · rw [if_neg fun h => h.1 hfp, if_pos hfp, if_pos hfp, hcons]
          · rw [if_neg hfp, if_neg hfp]
            by_cases hfg : g = plusLevel ∨ f = g
            · rw [if_neg fun h => hfg.elim h.2.1 h.2.2, if_pos hfg, hcons]
            · obtain ⟨hgp, hne⟩ := not_or.mp hfg
              rw [if_pos ⟨hfp, hgp, hne⟩, if_neg hfg]
              rfl

/-- `is_subscribe_allowed` joins the levels of the meet. -/
theorem isSubscribeAllowed_eq (a s : Buffer) :
    isSubscribeAllowed (topicFilterTokens a) s =
      (LevelMatch.meet plusLevel hashLevel (topicFilterTokens a) (topicFilterTokens s)).map
        [topicFilterSeparator].intercalate := by
  rw [isSubscribeAllowed, allowedLevels_eq (topicFilterTokens_ne_nil s)]
  cases hmeet : LevelMatch.meet plusLevel hashLevel (topicFilterTokens a) (topicFilterTokens s) with
  | none => rfl
  | some rs =>
    have hrs : rs ≠ [] := by
      rintro rfl
      exact topicFilterTokens_ne_nil a (LevelMatch.meet_eq_some_nil hmeet).1
    exact foldl_appendResult_none hrs

/-- The callback compares level by level, and the number of the levels that it has seen says whether
    the filter goes on. -/
theorem deniedLevels_eq (hfs : LevelMatch.WellFormed hashLevel fs)
    (hgs : LevelMatch.WellFormed hashLevel gs) :
    ((deniedLevels fs gs).1 && (deniedLevels fs gs).2 = fs.length) =
      LevelMatch.covers plusLevel hashLevel fs gs := by
  -- the induction is on the levels of the filter, with those of the other one running along
  induction fs generalizing gs with
  | nil =>
    cases gs with
    | nil => rfl
    | cons g gs => rfl
  | cons f fs ih =>
    cases gs with
    | nil => rfl
    | cons g gs =>
      have hrest := ih hfs.of_cons hgs.of_cons
      rw [deniedLevels, LevelMatch.covers]
      -- a filter that ends in `#` has no level after it
      by_cases hf : f = hashLevel
      · subst hf
        obtain rfl := hfs.eq_nil_of_many
        rw [if_pos rfl]
        by_cases hg : hashLevel = g
        · -- the callback goes on, and there is nothing left
          subst hg
          obtain rfl := hgs.eq_nil_of_many
          rfl
        · rw [if_pos ⟨hg, rfl⟩]
          rfl
      · rw [if_neg fun h => hf h.2, if_neg hf]
        -- a single level never covers `#`
        by_cases hg : g = hashLevel
        · have hne : f ≠ g := fun h => hf (h.trans hg)
          rw [if_pos ⟨hne, hg⟩, if_pos hg]
          rfl
        · rw [if_neg fun h => hg h.2, if_neg hg]
          by_cases hfg : f = g ∨ f = plusLevel
          · rw [if_neg fun h => hfg.elim h.1 h.2]
            have hlevel : (decide (f = g) || decide (f = plusLevel)) = true := by simpa using hfg
            rw [hlevel, Bool.true_and, ← hrest]
            simp
          · obtain ⟨hne, hfp⟩ := not_or.mp hfg
            rw [if_pos ⟨hne, hfp⟩]
            simp [hne, hfp]

theorem wellFormed_tokens (hs : validateTopicFilter s) :
    LevelMatch.WellFormed hashLevel (topicFilterTokens s) :=
  (validateTopicFilter_iff_grammar.mp hs).2.2.2

theorem isSubscribeDenied_eq_covers (hd : validateTopicFilter d) (hs : validateTopicFilter s) :
    isSubscribeDenied (topicFilterTokens d) s =
      LevelMatch.covers plusLevel hashLevel (topicFilterTokens d) (topicFilterTokens s) := by
  rw [← deniedLevels_eq]
  · rfl
  · exact wellFormed_tokens hd
  · exact wellFormed_tokens hs

/-! ### What the results mean -/

theorem any_meet_tokens (ha : validateTopicFilter a) (hs : validateTopicFilter s)
    (ts : List Buffer) :
    (LevelMatch.meet plusLevel hashLevel (topicFilterTokens a) (topicFilterTokens s)).any
        (LevelMatch.isMatch plusLevel hashLevel false · ts) =
      (filterMatches a ts && filterMatches s ts) :=
  LevelMatch.any_meet (wellFormed_tokens ha) (wellFormed_tokens hs) ts

/-- There are levels enough. -/
theorem plenty_isTopicLevel : LevelMatch.Plenty IsTopicLevel := by
  intro f
  by_cases hf : f = []
  · refine ⟨[0x61], ⟨⟨by decide, by decide⟩, by decide, by decide⟩, ?_⟩
    rw [hf]
    exact List.cons_ne_nil _ _
  · refine ⟨[], ⟨⟨?_, ?_⟩, ?_, ?_⟩, Ne.symm hf⟩
    all_goals exact List.not_mem_nil

/-- A level of a valid filter is a wildcard or a level of a topic. -/
theorem level_cases (hs : validateTopicFilter s) {t : Buffer} (ht : t ∈ topicFilterTokens s) :
    t = plusLevel ∨ t = hashLevel ∨ IsTopicLevel t := by
  obtain ⟨-, hzero, hlevels, -⟩ := validateTopicFilter_iff_grammar.mp hs
  refine (hlevels t ht).imp_right fun h => h.imp_right fun hplain => ⟨hplain, ?_, ?_⟩
  · exact isSplit_tokens s t ht
  · exact fun hmem => hzero (mem_of_mem_level ht hmem).1

/-- A character of a filter stands in a level or is a separator. -/
theorem mem_levels_of_mem {c : UInt8} (hc : c ∈ r) :
    c = topicFilterSeparator ∨ ∃ t ∈ topicFilterTokens r, c ∈ t := by
  have hmem : c ∈ below (topicFilterTokens r) := by
    rw [below_tokens]
    exact List.mem_cons_of_mem _ hc
  obtain ⟨t, ht, hct⟩ := List.mem_flatMap.mp hmem
  rcases List.mem_cons.mp hct with rfl | hct
  · exact .inl rfl
  · exact .inr ⟨t, ht, hct⟩

/-- The rules of topic filters, but for the greatest length -/
def ObeysRules (r : Buffer) : Prop :=
  1 ≤ r.length ∧ 0x00 ∉ r ∧ IsFilterLevels (topicFilterTokens r)

/-- What is known of the filter that is returned -/
structure IsMeet (a s r : Buffer) : Prop where
  tokens : LevelMatch.meet plusLevel hashLevel (topicFilterTokens a) (topicFilterTokens s) =
    some (topicFilterTokens r)
  levels : ∀ t ∈ topicFilterTokens r, t = plusLevel ∨ t = hashLevel ∨ IsTopicLevel t
  wellFormed : LevelMatch.WellFormed hashLevel (topicFilterTokens r)

theorem isMeet_of_allowed (ha : validateTopicFilter a) (hs : validateTopicFilter s)
    (h : isSubscribeAllowed (topicFilterTokens a) s = some r) : IsMeet a s r := by
  rw [isSubscribeAllowed_eq] at h
  obtain ⟨rs, hmeet, rfl⟩ := Option.map_eq_some_iff.mp h
  obtain ⟨hwf, hmem⟩ := LevelMatch.meet_levels (wellFormed_tokens ha) (wellFormed_tokens hs) hmeet
  have hlevels : ∀ t ∈ rs, t = plusLevel ∨ t = hashLevel ∨ IsTopicLevel t := by
    intro t ht
    rcases hmem t ht with hta | hts
    · exact level_cases ha hta
    · exact level_cases hs hts
  have htokens : topicFilterTokens ([topicFilterSeparator].intercalate rs) = rs := by
    apply List.splitOn_intercalate
    · intro t ht
      rcases hlevels t ht with rfl | rfl | h
      · decide
      · decide
      · exact h.2.1
    · rintro rfl
      exact topicFilterTokens_ne_nil a (LevelMatch.meet_eq_some_nil hmeet).1
  rw [← htokens] at hmeet hlevels hwf
  exact ⟨hmeet, hlevels, hwf⟩

namespace IsMeet

/-- It obeys the rules of topic filters but for the greatest length. -/
theorem obeysRules (h : IsMeet a s r) (ha : validateTopicFilter a) (hs : validateTopicFilter s) :
    ObeysRules r := by
  refine ⟨?_, ?_, ?_, h.wellFormed⟩
  · -- one of the filters would be empty, too
    rw [Nat.one_le_iff_ne_zero, ne_eq, List.length_eq_zero_iff]
    rintro rfl
    have hempty : validateTopicFilter [] ≠ true := by decide
    rcases LevelMatch.eq_of_meet_singleton (k := []) h.tokens with hnil | hnil
    · exact hempty (tokens_eq_singleton_nil.mp hnil ▸ ha)
    · exact hempty (tokens_eq_singleton_nil.mp hnil ▸ hs)
  · intro hzero
    rcases mem_levels_of_mem hzero with hsep | ⟨t, ht, hmem⟩
    · exact absurd hsep (by decide)
    · rcases h.levels t ht with rfl | rfl | hlevel
      · exact absurd hmem (by decide)
      · exact absurd hmem (by decide)
      · exact hlevel.2.2 hmem
  · exact fun t ht => (h.levels t ht).imp_right fun hlevel => hlevel.imp_right And.left

/-- It is a topic filter, if it is not too long. -/
theorem valid_iff (h : IsMeet a s r) (ha : validateTopicFilter a) (hs : validateTopicFilter s) :
    validateTopicFilter r = true ↔ r.length ≤ 65535 := by
  obtain ⟨hlen, hzero, hlevels⟩ := h.obeysRules ha hs
  rw [validateTopicFilter_iff_grammar]
  exact ⟨fun hr => hr.1.2, fun hmax => ⟨⟨hlen, hmax⟩, hzero, hlevels⟩⟩

/-- It matches what both filters match. -/
theorem matches_eq (h : IsMeet a s r) (ha : validateTopicFilter a) (hs : validateTopicFilter s)
    (ts : List Buffer) : filterMatches r ts = (filterMatches a ts && filterMatches s ts) := by
  have hmeet := any_meet_tokens ha hs ts
  rw [h.tokens] at hmeet
  exact hmeet

/-- It matches some topic. -/
theorem exists_topic (h : IsMeet a s r) : ∃ ts, IsTopic ts ∧ filterMatches r ts := by
  obtain ⟨x, hx, -⟩ := plenty_isTopicLevel []
  refine ⟨LevelMatch.fill plusLevel hashLevel x (topicFilterTokens r), ⟨?_, ?_⟩, ?_⟩
  · rw [LevelMatch.fill, ne_eq, List.map_eq_nil_iff]
    exact topicFilterTokens_ne_nil r
  · exact fun t ht => LevelMatch.mem_fill hx h.levels ht
  · exact LevelMatch.isMatch_fill h.wellFormed x

end IsMeet

/-- `is_subscribe_allowed` returns a filter that matches what both filters match, and none if there is
    no such topic. It obeys the rules of topic filters but for the greatest length. -/
theorem allows_meet (ha : validateTopicFilter a) (hs : validateTopicFilter s) :
    (∀ r, isSubscribeAllowed (topicFilterTokens a) s = some r → ObeysRules r ∧
      (validateTopicFilter r = true ↔ r.length ≤ 65535) ∧
        ∀ ts, filterMatches r ts = (filterMatches a ts && filterMatches s ts)) ∧
    (isSubscribeAllowed (topicFilterTokens a) s = none →
      ∀ ts, ¬ (filterMatches a ts ∧ filterMatches s ts)) ∧
    ((∀ ts, IsTopic ts → ¬ (filterMatches a ts ∧ filterMatches s ts)) →
      isSubscribeAllowed (topicFilterTokens a) s = none) := by
  refine ⟨fun r hr => ?_, fun hnone ts => ?_, fun hno => ?_⟩
  · have hmeet := isMeet_of_allowed ha hs hr
    exact ⟨hmeet.obeysRules ha hs, hmeet.valid_iff ha hs, hmeet.matches_eq ha hs⟩
  · have hmeet := any_meet_tokens ha hs ts
    rw [isSubscribeAllowed_eq, Option.map_eq_none_iff] at hnone
    rw [hnone, Option.any_none] at hmeet
    rw [← Bool.and_eq_true_iff]
    exact fun h => nomatch hmeet.trans h
  · cases hr : isSubscribeAllowed (topicFilterTokens a) s with
    | none => rfl
    | some r =>
      have hmeet := isMeet_of_allowed ha hs hr
      obtain ⟨ts, hts, hmatch⟩ := hmeet.exists_topic
      rw [hmeet.matches_eq ha hs, Bool.and_eq_true_iff] at hmatch
      exact absurd hmatch (hno ts hts)

/-- `a/+` is authorized, and `#` is subscribed. -/
theorem allows_meet_hash :
    isSubscribeAllowed (topicFilterTokens [0x61, 0x2f, 0x2b]) [0x23] = some [0x61, 0x2f, 0x2b] ∧
      filterMatches [0x61, 0x2f, 0x2b] [[0x61], [0x62]] := by
  have hallowed : isSubscribeAllowed (topicFilterTokens [0x61, 0x2f, 0x2b]) [0x23] =
      some [0x61, 0x2f, 0x2b] := rfl
  refine ⟨hallowed, ?_⟩
  rw [((allows_meet (by decide) (by decide)).1 _ hallowed).2.2]
  rfl

/-- A level that is as long as a filter lets it be beside a `+` -/
def longLevel : Buffer := List.replicate 65533 0x78

theorem mem_longLevel {c : UInt8} (hc : c ∈ longLevel) : c = 0x78 := (List.mem_replicate.mp hc).2

theorem isTopicLevel_longLevel : IsTopicLevel longLevel := by
  refine ⟨⟨fun h => ?_, fun h => ?_⟩, fun h => ?_, fun h => ?_⟩
  all_goals exact absurd (mem_longLevel h) (by decide)

/-- Two levels joined -/
theorem intercalate_pair (t u : Buffer) :
    [topicFilterSeparator].intercalate [t, u] = t ++ topicFilterSeparator :: u := by
  rw [intercalate_cons]
  simp [below]

theorem tokens_join {t u : Buffer} (ht : topicFilterSeparator ∉ t) (hu : topicFilterSeparator ∉ u) :
    topicFilterTokens (t ++ topicFilterSeparator :: u) = [t, u] := by
  rw [← intercalate_pair]
  apply List.splitOn_intercalate
  · simp [ht, hu]
  · exact List.cons_ne_nil _ _

theorem validateTopicFilter_join {t u : Buffer} (ht : t = plusLevel ∨ IsTopicLevel t)
    (hu : u = plusLevel ∨ IsTopicLevel u) (hlen : t.length + u.length + 1 ≤ 65535) :
    validateTopicFilter (t ++ topicFilterSeparator :: u) := by
  have hfacts {t : Buffer} (ht : t = plusLevel ∨ IsTopicLevel t) :
      topicFilterSeparator ∉ t ∧ 0x00 ∉ t ∧ t ≠ hashLevel := by
    rcases ht with rfl | ht
    · decide
    · refine ⟨ht.2.1, ht.2.2, ?_⟩
      rintro rfl
      exact ht.1.2 (List.mem_singleton.mpr rfl)
  obtain ⟨htsep, htzero, hthash⟩ := hfacts ht
  obtain ⟨husep, huzero, -⟩ := hfacts hu
  rw [validateTopicFilter_iff_grammar, IsTopicFilter, tokens_join htsep husep]
  refine ⟨?_, ?_, ?_, ?_⟩
  · simp
    omega
  · simp [htzero, huzero, topicFilterSeparator]
  · simp only [List.forall_mem_cons]
    exact ⟨ht.imp_right fun h => .inr h.1, hu.imp_right fun h => .inr h.1, by rintro _ ⟨⟩⟩
  · simpa using hthash.symm

/-- The filters `+/xx...` and `xx.../+` are valid, and the one that is returned is too long. -/
theorem allowed_too_long :
    validateTopicFilter (plusLevel ++ topicFilterSeparator :: longLevel) ∧
      validateTopicFilter (longLevel ++ topicFilterSeparator :: plusLevel) ∧
      ∃ r, isSubscribeAllowed
        (topicFilterTokens (plusLevel ++ topicFilterSeparator :: longLevel))
        (longLevel ++ topicFilterSeparator :: plusLevel) = some r ∧
        validateTopicFilter r = false := by
  have hlevel := isTopicLevel_longLevel
  have hlen : longLevel.length = 65533 := List.length_replicate
  have hone : plusLevel.length = 1 := rfl
  have hhash : longLevel ≠ hashLevel := fun h => hlevel.1.2 (by rw [h]; decide)
  have hplus : longLevel ≠ plusLevel := fun h => hlevel.1.1 (by rw [h]; decide)
  have hmeet : LevelMatch.meet plusLevel hashLevel [plusLevel, longLevel] [longLevel, plusLevel] =
      some [longLevel, longLevel] := by
    have hne : plusLevel ≠ hashLevel := by decide
    simp [LevelMatch.meet, hhash, hplus, hne]
  refine ⟨?_, ?_, [topicFilterSeparator].intercalate [longLevel, longLevel], ?_, ?_⟩
  · exact validateTopicFilter_join (.inl rfl) (.inr hlevel) (by omega)
  · exact validateTopicFilter_join (.inr hlevel) (.inl rfl) (by omega)
  · rw [isSubscribeAllowed_eq, tokens_join (by decide) hlevel.2.1, tokens_join hlevel.2.1 (by decide),
      hmeet, Option.map_some]
  · rw [Bool.eq_false_iff]
    intro hvalid
    have hle := (validateTopicFilter_iff_grammar.mp hvalid).1.2
    rw [intercalate_pair, List.length_append, List.length_cons, hlen] at hle
    omega

/-- `is_subscribe_denied` says whether the filter covers the other one. -/
theorem denies_covered (hd : validateTopicFilter d) (hs : validateTopicFilter s) :
    (isSubscribeDenied (topicFilterTokens d) s = true →
      ∀ ts, filterMatches s ts → filterMatches d ts) ∧
    ((∀ ts, IsTopic ts → filterMatches s ts → filterMatches d ts) →
      isSubscribeDenied (topicFilterTokens d) s = true) := by
  rw [isSubscribeDenied_eq_covers hd hs]
  constructor
  · exact fun h ts hmatch => LevelMatch.isMatch_of_covers (wellFormed_tokens hd) h hmatch
  · intro hall
    by_contra hnot
    obtain ⟨ts, hts, hmatch, hmiss⟩ := LevelMatch.exists_of_not_covers plenty_isTopicLevel
      (wellFormed_tokens hd) (wellFormed_tokens hs) (fun t ht => level_cases hs ht)
      (Bool.eq_false_iff.mpr hnot)
    have hne : ts ≠ [] := by
      rintro rfl
      cases hs' : topicFilterTokens s with
      | nil => exact topicFilterTokens_ne_nil s hs'
      | cons g gs =>
        rw [hs', LevelMatch.isMatch_cons_nil_false] at hmatch
        exact nomatch hmatch
    have hcovered := hall ts ⟨hne, hts⟩ hmatch
    exact nomatch hmiss.symm.trans hcovered

/-- `a/#` covers `a/+`, and so it matches `a/b`. -/
theorem denies_covered_hash :
    isSubscribeDenied (topicFilterTokens [0x61, 0x2f, 0x23]) [0x61, 0x2f, 0x2b] = true ∧
      filterMatches [0x61, 0x2f, 0x23] [[0x61], [0x62]] := by
  have hdenied : isSubscribeDenied (topicFilterTokens [0x61, 0x2f, 0x23]) [0x61, 0x2f, 0x2b] = true :=
    rfl
  exact ⟨hdenied, (denies_covered (by decide) (by decide)).1 hdenied _ rfl⟩

end Security

end AsyncMqtt
