import AsyncMqtt.Native.TopicFilterLoops
import AsyncMqtt.Spec.TopicMatching

/-!
# The grammar of topic filters

`validate_topic_filter` looks at the neighbours of the special characters of a string. The grammar
speaks of the levels: each one is a wildcard or has none in it, and `#` is the last one. The two are
the same, since a character is the first one of its level if a separator or nothing comes before it.

## Key results

- `validateTopicFilterLoop_eq`: the characters between the special ones do not matter
- `Level.validateFrom_iff`: the neighbours, character by character, and the levels
- `validateTopicFilter_iff_grammar`: the grammar
-/

namespace AsyncMqtt

open StringView

/-! ### The grammar -/

/-- A level without wildcard characters -/
def IsPlainLevel (t : Buffer) : Prop := 0x2b ∉ t ∧ 0x23 ∉ t

/-- The levels of a filter: each one is `+` or plain, and the last one may be `#`. -/
def IsFilterLevels (ts : List Buffer) : Prop :=
  (∀ t ∈ ts, t = plusLevel ∨ t = hashLevel ∨ IsPlainLevel t) ∧ hashLevel ∉ ts.dropLast

/-- What `validate_topic_filter` is to accept. -/
def IsTopicFilter (s : Buffer) : Prop :=
  (1 ≤ s.length ∧ s.length ≤ 65535) ∧ 0x00 ∉ s ∧ IsFilterLevels (topicFilterTokens s)

/-- What `validate_topic_name` is to accept. -/
def IsTopicName (s : Buffer) : Prop := IsTopicFilter s ∧ 0x2b ∉ s ∧ 0x23 ∉ s

/-! ### Levels and strings -/

/-- Levels with a separator before each of them -/
def below (ts : List Buffer) : Buffer := ts.flatMap (topicFilterSeparator :: ·)

/-- Joining puts no separator before the first level. -/
theorem intercalate_cons (t : Buffer) (ts : List Buffer) :
    [topicFilterSeparator].intercalate (t :: ts) = t ++ below ts := by
  induction ts generalizing t with
  | nil => simp [below]
  | cons u us ih =>
    rw [List.intercalate_cons_cons, ih]
    simp [below]

/-- No level has a separator in it. -/
def IsSplit (ts : List Buffer) : Prop := ∀ t ∈ ts, topicFilterSeparator ∉ t

theorem isSplit_tokens (s : Buffer) : IsSplit (topicFilterTokens s) :=
  fun _ ht hmem => (mem_of_mem_level ht hmem).2 rfl

theorem below_tokens (s : Buffer) : below (topicFilterTokens s) = topicFilterSeparator :: s := by
  have hjoin : [topicFilterSeparator].intercalate (topicFilterTokens s) = s :=
    List.intercalate_splitOn topicFilterSeparator
  cases hs : topicFilterTokens s with
  | nil => exact absurd hs (topicFilterTokens_ne_nil s)
  | cons t ts =>
    rw [hs, intercalate_cons] at hjoin
    rw [← hjoin]
    rfl

variable {s cs t : Buffer} {ts : List Buffer} {c : UInt8} {pos idx : Nat} {start : Bool}

/-! ### From one special character to the next -/

theorem findFirstOf_eq_none {chars : Buffer} (h : findFirstOf s chars pos = none) {i : Nat}
    (hi : pos ≤ i) (hc : s[i]? = some c) : c ∉ chars := by
  have hnone := List.findIdx?_eq_none_iff.mp (Option.map_eq_none_iff.mp h)
  have hmem : c ∈ s.drop pos := by
    apply List.mem_of_getElem? (i := i - pos)
    rw [List.getElem?_drop, Nat.add_sub_cancel' hi]
    exact hc
  simpa using hnone c hmem

theorem not_mem_of_findFirstOf {chars : Buffer} (h : findFirstOf s chars pos = some idx) {i : Nat}
    (hi : pos ≤ i) (hlt : i < idx) (hc : s[i]? = some c) : c ∉ chars := by
  obtain ⟨k, hk, rfl⟩ := Option.map_eq_some_iff.mp h
  obtain ⟨hlen, -, hbefore⟩ := List.findIdx?_eq_some_iff_getElem.mp hk
  have hget : (s.drop pos)[i - pos]? = some c := by
    rw [List.getElem?_drop, Nat.add_sub_cancel' hi]
    exact hc
  obtain ⟨hlt', hget⟩ := List.getElem?_eq_some_iff.mp hget
  have hnot := hbefore (i - pos) (by omega)
  rw [hget] at hnot
  simpa using hnot

theorem validateTopicFilterAt_of_plain (h : ∀ c, s[pos]? = some c → c ∉ [0x00, 0x2b, 0x23]) :
    validateTopicFilterAt s pos = true := by
  have hne : ∀ d ∈ [0x00, 0x2b, 0x23], s[pos]? ≠ some d := fun d hd heq => h d heq hd
  unfold validateTopicFilterAt
  rw [if_neg (hne _ (by simp)), if_neg (hne _ (by simp)), if_neg (hne _ (by simp))]

/-- The loop looks at every character that it may have to reject. -/
theorem validateTopicFilterFrom_iff :
    validateTopicFilterFrom s pos = true ↔
      ∀ i, pos ≤ i → i < s.length → validateTopicFilterAt s i = true := by
  -- the induction is that of the loop, which goes from wildcard to wildcard
  induction pos using validateTopicFilterFrom.induct s with
  | case1 pos hnone =>
    rw [validateTopicFilterFrom]
    split
    · simp only [true_iff]
      intro i hi _
      exact validateTopicFilterAt_of_plain fun c hc => findFirstOf_eq_none hnone hi hc
    · next idx hsome => exact nomatch hnone.symm.trans hsome
  | case2 pos idx hsome ih =>
    obtain ⟨hle, hlt⟩ := findFirstOf_lt hsome
    rw [validateTopicFilterFrom]
    split
    · next hnone => exact nomatch hsome.symm.trans hnone
    · next idx' hsome' =>
      obtain rfl : idx = idx' := Option.some.inj (hsome.symm.trans hsome')
      rw [Bool.and_eq_true_iff, ih]
      constructor
      · intro ⟨hat, hafter⟩ i hi hlen
        rcases Nat.lt_trichotomy i idx with hbefore | heq | hgt
        · -- the loop has gone over this character
          apply validateTopicFilterAt_of_plain
          exact fun c hc => not_mem_of_findFirstOf hsome hi hbefore hc
        · exact heq ▸ hat
        · exact hafter i hgt hlen
      · intro h
        exact ⟨h idx hle hlt, fun i hi hlen => h i (by omega) hlen⟩

/-- The characters between the special ones do not matter. -/
theorem validateTopicFilterLoop_eq (s : Buffer) :
    validateTopicFilterLoop s = validateTopicFilter s := by
  have hloop : validateTopicFilterFrom s 0 =
      (List.range s.length).all (validateTopicFilterAt s) := by
    rw [Bool.eq_iff_iff, validateTopicFilterFrom_iff, List.all_eq_true]
    simp only [Nat.zero_le, true_imp_iff, List.mem_range]
  rw [validateTopicFilterLoop, validateTopicFilter, hloop]

/-! ### Character by character -/

/-- The checks from a position on: `start` says that a level begins there. -/
def validateFrom (start : Bool) : Buffer → Bool
  | [] => true
  | c :: cs =>
    (if c = 0x00 then false
      else if c = 0x2b then start && (cs = [] || cs.head? = some topicFilterSeparator)
      else if c = 0x23 then start && cs = []
      else true) && validateFrom (c = topicFilterSeparator) cs

/-- A level begins where nothing or a separator comes before. -/
def startsLevel (before : Buffer) : Bool :=
  before = [] || before.getLast? = some topicFilterSeparator

theorem validateTopicFilterAt_append (before : Buffer) (c : UInt8) (cs : Buffer) :
    validateTopicFilterAt (before ++ c :: cs) before.length =
      if c = 0x00 then false
      else if c = 0x2b then
        startsLevel before && (cs = [] || cs.head? = some topicFilterSeparator)
      else if c = 0x23 then startsLevel before && cs = []
      else true := by
  have hat : (before ++ c :: cs)[before.length]? = some c := by simp
  have hnext : (before ++ c :: cs)[before.length + 1]? = cs.head? := by
    rw [List.getElem?_append_right (by omega), Nat.add_sub_cancel_left]
    cases cs <;> rfl
  have hstart : (decide (before.length = 0) ||
      decide ((before ++ c :: cs)[before.length - 1]? = some topicFilterSeparator)) =
      startsLevel before := by
    -- the character starts a level at the beginning, and after a separator
    rcases List.eq_nil_or_concat' before with rfl | ⟨before, d, rfl⟩
    · simp [startsLevel]
    · simp [startsLevel]
  have hend : ((before ++ c :: cs).length - 1 = before.length) = (cs = []) := by
    simp
  have hend' : (before.length = (before ++ c :: cs).length - 1) = (cs = []) := by
    rw [← hend]
    exact propext eq_comm
  unfold validateTopicFilterAt
  simp only [hat, hnext, hstart, hend, hend', Option.some.injEq]
  -- the four kinds of character, in the order of the source
  by_cases hzero : c = 0x00
  · rw [if_pos hzero, if_pos hzero]
  · by_cases hplus : c = 0x2b
    · simp [hplus]
    · by_cases hhash : c = 0x23
      · simp [hhash, Bool.and_comm]
      · simp [hzero, hplus, hhash]

/-- The checks at the positions of a suffix -/
theorem all_validateTopicFilterAt (before : Buffer) :
    (∀ i, before.length ≤ i → i < (before ++ cs).length →
      validateTopicFilterAt (before ++ cs) i = true) ↔
      validateFrom (startsLevel before) cs = true := by
  induction cs generalizing before with
  | nil =>
    simp only [validateFrom, iff_true]
    intro i hi hlt
    rw [List.append_nil] at hlt
    omega
  | cons c cs ih =>
    have hstart : startsLevel (before ++ [c]) = decide (c = topicFilterSeparator) := by
      simp [startsLevel]
    have hnext := ih (before ++ [c])
    rw [hstart, List.append_assoc, List.singleton_append, List.length_append,
      List.length_singleton] at hnext
    rw [validateFrom, Bool.and_eq_true_iff, ← hnext, ← validateTopicFilterAt_append]
    constructor
    · intro h
      exact ⟨h _ (Nat.le_refl _) (by simp), fun i hi hlt => h i (by omega) hlt⟩
    · intro ⟨hat, hafter⟩ i hi hlt
      rcases Nat.eq_or_lt_of_le hi with rfl | hgt
      · exact hat
      · exact hafter i hgt hlt

/-- What the checks say of the whole string -/
theorem validateTopicFilter_iff :
    validateTopicFilter s = true ↔
      (1 ≤ s.length ∧ s.length ≤ 65535) ∧ validateFrom true s = true := by
  have hall : (∀ i, ([] : Buffer).length ≤ i → i < ([] ++ s).length →
      validateTopicFilterAt ([] ++ s) i = true) ↔ validateFrom true s = true :=
    all_validateTopicFilterAt []
  simp only [List.nil_append, List.length_nil, Nat.zero_le, true_imp_iff] at hall
  unfold validateTopicFilter
  rw [Bool.and_eq_true_iff, Bool.and_eq_true_iff, decide_eq_true_iff, decide_eq_true_iff,
    List.all_eq_true, ← List.length_pos_iff]
  simp only [List.mem_range]
  exact and_congr Iff.rfl hall

/-! ### Level by level -/

theorem tokens_cons (c : UInt8) (cs : Buffer) :
    topicFilterTokens (c :: cs) =
      if c = topicFilterSeparator then [] :: topicFilterTokens cs
      else (topicFilterTokens cs).modifyHead (c :: ·) := by
  unfold topicFilterTokens
  rw [List.splitOn_cons_eq_if_modifyHead]
  simp only [beq_iff_eq]

/-- Where the first level ends, the string ends or a separator stands. -/
theorem head_tokens_eq_nil (h : topicFilterTokens cs = t :: ts) :
    t = [] ↔ cs = [] ∨ cs.head? = some topicFilterSeparator := by
  cases cs with
  | nil =>
    obtain ⟨rfl, rfl⟩ := List.cons.inj h
    simp
  | cons c cs =>
    rw [tokens_cons] at h
    split at h
    · next hc =>
      obtain ⟨rfl, rfl⟩ := List.cons.inj h
      simp [hc]
    · next hc =>
      cases hcs : topicFilterTokens cs with
      | nil => exact absurd hcs (topicFilterTokens_ne_nil cs)
      | cons u us =>
        rw [hcs] at h
        obtain ⟨rfl, rfl⟩ := List.cons.inj h
        simp [hc]

/-- The string ends with the first level. -/
theorem tokens_eq_singleton_nil : topicFilterTokens cs = [[]] ↔ cs = [] := by
  constructor
  · intro h
    exact topicFilterTokens_injective h
  · rintro rfl
    rfl

theorem isFilterLevels_cons :
    IsFilterLevels (t :: ts) ↔
      (t = plusLevel ∨ (t = hashLevel ∧ ts = []) ∨ IsPlainLevel t) ∧
        (ts = [] ∨ IsFilterLevels ts) := by
  have hne : plusLevel ≠ hashLevel := by decide
  have hplain : ¬ IsPlainLevel hashLevel := fun h => h.2 (List.mem_singleton.mpr rfl)
  unfold IsFilterLevels
  cases ts with
  | nil => simp
  | cons u us =>
    rw [List.forall_mem_cons, List.dropLast_cons_cons, List.mem_cons, not_or]
    constructor
    · intro ⟨⟨ht, hts⟩, hhash, hlast⟩
      exact ⟨ht.imp_right fun h => h.imp_left fun heq => absurd heq.symm hhash, .inr ⟨hts, hlast⟩⟩
    · intro ⟨ht, hts⟩
      obtain ⟨hts, hlast⟩ := hts.resolve_left (List.cons_ne_nil u us)
      have ht' : t = plusLevel ∨ IsPlainLevel t := by
        rcases ht with h | ⟨-, h⟩ | h
        · exact .inl h
        · exact nomatch h
        · exact .inr h
      refine ⟨⟨ht'.imp_right .inr, hts⟩, ?_, hlast⟩
      rintro rfl
      rcases ht' with h | h
      · exact hne h.symm
      · exact hplain h

theorem isFilterLevels_nil : IsFilterLevels [] := ⟨nofun, List.not_mem_nil⟩

theorem isPlainLevel_cons (hplus : c ≠ 0x2b) (hhash : c ≠ 0x23) :
    IsPlainLevel (c :: t) ↔ IsPlainLevel t := by
  simp [IsPlainLevel, hplus.symm, hhash.symm]

/-- The neighbours, character by character, and the levels. If no level begins here, the first one is
    what is left of a level. -/
theorem validateFrom_iff (h : topicFilterTokens cs = t :: ts) :
    validateFrom start cs = true ↔
      0x00 ∉ cs ∧ (if start then t = plusLevel ∨ (t = hashLevel ∧ ts = []) ∨ IsPlainLevel t
        else IsPlainLevel t) ∧ (ts = [] ∨ IsFilterLevels ts) := by
  -- the induction is on the characters, with the level that they are the rest of
  induction cs generalizing start t ts with
  | nil =>
    obtain ⟨rfl, rfl⟩ := List.cons.inj h
    simp [validateFrom, IsPlainLevel]
  | cons c cs ih =>
    cases hcs : topicFilterTokens cs with
    | nil => exact absurd hcs (topicFilterTokens_ne_nil cs)
    | cons u us =>
    rw [tokens_cons, hcs] at h
    rw [validateFrom, Bool.and_eq_true_iff, ih hcs, List.mem_cons, not_or]
    by_cases hsep : c = topicFilterSeparator
    · -- the level ends, and the next one begins
      rw [if_pos hsep] at h
      obtain ⟨rfl, rfl⟩ := List.cons.inj h
      rw [isFilterLevels_cons]
      subst hsep
      simp [IsPlainLevel, topicFilterSeparator]
    · rw [if_neg hsep] at h
      obtain ⟨rfl, rfl⟩ := List.cons.inj h
      have hu := head_tokens_eq_nil hcs
      -- the rest is one empty level exactly if no character is left
      have huus : (u = [] ∧ us = []) ↔ cs = [] := by
        rw [← List.cons.injEq, ← hcs]
        exact tokens_eq_singleton_nil
      simp only [hsep, decide_false, Bool.false_eq_true, if_false]
      by_cases hzero : c = 0x00
      · simp [hzero]
      · by_cases hplus : c = 0x2b
        · -- a level with `+` is `+` if nothing stands on either side of it
          subst hplus
          have hlevel : (0x2b :: u = plusLevel ∨ (0x2b :: u = hashLevel ∧ us = []) ∨
              IsPlainLevel (0x2b :: u)) ↔ u = [] := by
            simp [plusLevel, hashLevel, IsPlainLevel]
          have hplain : ¬ IsPlainLevel (0x2b :: u) := fun h => h.1 (List.mem_cons_self ..)
          have hnil : u = [] → IsPlainLevel u := by
            rintro rfl
            exact ⟨List.not_mem_nil, List.not_mem_nil⟩
          -- in the middle of a level a `+` is not allowed
          cases start with
          | false => simp [hplain]
          | true =>
            simp only [hlevel, hu]
            simp
            constructor
            · rintro ⟨hnext, hzeros, _, hrest⟩
              exact ⟨hzeros, hnext, hrest⟩
            · rintro ⟨hzeros, hnext, hrest⟩
              exact ⟨hnext, hzeros, hnil (hu.mpr hnext), hrest⟩
        · by_cases hhash : c = 0x23
          · -- a level with `#` is `#` if it is the last character
            subst hhash
            have hlevel : (0x23 :: u = plusLevel ∨ (0x23 :: u = hashLevel ∧ us = []) ∨
                IsPlainLevel (0x23 :: u)) ↔ cs = [] := by
              rw [← huus]
              simp [plusLevel, hashLevel, IsPlainLevel]
            have hplain : ¬ IsPlainLevel (0x23 :: u) := fun h => h.2 (List.mem_cons_self ..)
            -- in the middle of a level a `#` is not allowed either
            cases start with
            | false => simp [hplain]
            | true =>
              have hnil : cs = [] → IsPlainLevel u := fun heq => by
                rw [(huus.mpr heq).1]
                exact ⟨List.not_mem_nil, List.not_mem_nil⟩
              rw [if_pos rfl, hlevel]
              simp
              constructor
              · rintro ⟨hnext, hzeros, _, hrest⟩
                exact ⟨hzeros, hnext, hrest⟩
              · rintro ⟨hzeros, hnext, hrest⟩
                exact ⟨hnext, hzeros, hnil hnext, hrest⟩
          · -- the character is none of the special ones
            have hlevel : (c :: u = plusLevel ∨ (c :: u = hashLevel ∧ us = []) ∨
                IsPlainLevel (c :: u)) ↔ IsPlainLevel u := by
              rw [isPlainLevel_cons hplus hhash]
              simp [plusLevel, hashLevel, hplus, hhash]
            have hfirst : (if start then c :: u = plusLevel ∨ (c :: u = hashLevel ∧ us = []) ∨
                IsPlainLevel (c :: u) else IsPlainLevel (c :: u)) ↔ IsPlainLevel u := by
              cases start with
              | false => exact isPlainLevel_cons hplus hhash
              | true => exact hlevel
            rw [hfirst, if_neg hzero, if_neg hplus, if_neg hhash]
            simp [Ne.symm hzero]

/-- The grammar -/
theorem validateTopicFilter_iff_grammar : validateTopicFilter s = true ↔ IsTopicFilter s := by
  rw [validateTopicFilter_iff, IsTopicFilter]
  cases hs : topicFilterTokens s with
  | nil => exact absurd hs (topicFilterTokens_ne_nil s)
  | cons t ts => rw [validateFrom_iff hs, if_pos rfl, isFilterLevels_cons]

/-- A topic name is a topic filter without wildcards. -/
theorem validateTopicName_iff_grammar : validateTopicName s = true ↔ IsTopicName s := by
  have hlevels : 0x2b ∉ s → 0x23 ∉ s → IsFilterLevels (topicFilterTokens s) := by
    intro hplus hhash
    constructor
    -- without wildcards every level is a plain one
    · intro t ht
      refine .inr (.inr ⟨fun h => hplus ?_, fun h => hhash ?_⟩)
      · exact (mem_of_mem_level ht h).1
      · exact (mem_of_mem_level ht h).1
    · intro h
      have hmem := mem_of_mem_level (List.mem_of_mem_dropLast h) (List.mem_singleton.mpr rfl)
      exact hhash hmem.1
  have hchars : (s.all fun c => c ≠ 0x00 && c ≠ 0x2b && c ≠ 0x23) = true ↔
      0x00 ∉ s ∧ 0x2b ∉ s ∧ 0x23 ∉ s := by
    rw [List.all_eq_true]
    simp only [Bool.and_eq_true_iff, decide_eq_true_iff, ne_eq]
    constructor
    · intro h
      exact ⟨fun hmem => (h _ hmem).1.1 rfl, fun hmem => (h _ hmem).1.2 rfl,
        fun hmem => (h _ hmem).2 rfl⟩
    · rintro ⟨hzero, hplus, hhash⟩ c hc
      exact ⟨⟨fun heq => hzero (heq ▸ hc), fun heq => hplus (heq ▸ hc)⟩, fun heq => hhash (heq ▸ hc)⟩
  unfold validateTopicName IsTopicName IsTopicFilter
  rw [Bool.and_eq_true_iff, Bool.and_eq_true_iff, decide_eq_true_iff, decide_eq_true_iff, hchars,
    ← List.length_pos_iff]
  constructor
  · rintro ⟨hlen, hzero, hplus, hhash⟩
    exact ⟨⟨hlen, hzero, hlevels hplus hhash⟩, hplus, hhash⟩
  · rintro ⟨⟨hlen, hzero, -⟩, hplus, hhash⟩
    exact ⟨hlen, hzero, hplus, hhash⟩

/-- The loops accept the strings of the grammar, and topic names are filters without wildcards. -/
theorem accepts_grammar (s : Buffer) :
    (validateTopicFilterLoop s = true ↔ IsTopicFilter s) ∧
      (validateTopicFilter s = true ↔ IsTopicFilter s) ∧
      (validateTopicName s = true ↔
        validateTopicFilter s = true ∧ 0x2b ∉ s ∧ 0x23 ∉ s) := by
  rw [validateTopicFilterLoop_eq]
  refine ⟨validateTopicFilter_iff_grammar, validateTopicFilter_iff_grammar, ?_⟩
  rw [validateTopicName_iff_grammar, IsTopicName, validateTopicFilter_iff_grammar]

end AsyncMqtt
