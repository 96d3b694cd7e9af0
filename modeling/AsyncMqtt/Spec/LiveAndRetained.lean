import AsyncMqtt.Spec.RetainedRuns
import AsyncMqtt.Spec.SubscriptionMapRuns

/-!
# Live and retained delivery

A subscription map goes along the levels of a topic and looks for stored filters, a map of retained
topics goes along the levels of a filter and looks for stored topics. They agree on a filter and a
topic, but for two things: for the retained topics a `#` also stands for no level, and the walk over
them may miss a topic.

## Key results

- `live_iff_retained`: when the two agree on a filter and a topic
- `live_ne_retained`: a filter and a topic on which they do not
-/

namespace AsyncMqtt

variable {K V W : Type} [DecidableEq K] {f topic : Buffer} {k : K} {v : V} {w : W}

/-- What is found without its parent level is found with it. -/
theorem topicFilterMatches_of_live (h : topicFilterMatches false f topic) :
    topicFilterMatches true f topic := by
  obtain ⟨hmatch, hhidden⟩ := Bool.and_eq_true_iff.mp h
  exact Bool.and_eq_true_iff.mpr ⟨LevelMatch.isMatch_mono hmatch, hhidden⟩

/-- The entry of the filter, which no other filter has, is reported for the topic. -/
theorem mem_find_live {M : MultipleSubscriptionMap K V} {s : MultipleSubscriptionMap.Stored K V}
    {n : Nat} (hr : MultipleSubscriptionMap.Runs M s n) (hf : s.lookup (f, k) = some v)
    (honly : ∀ g, s.lookup (g, k) = some v → g = f) (ht : NoWildcards (topicFilterTokens topic)) :
    (k, v) ∈ M.find topic ↔ topicFilterMatches false f topic := by
  have hperm := hr.holds.1.perm_find ht
  rw [hperm.mem_iff, List.mem_map]
  constructor
  · rintro ⟨⟨⟨g, k'⟩, v'⟩, hi, heq⟩
    obtain ⟨hmem, hmatch⟩ := List.mem_filter.mp hi
    obtain ⟨rfl, rfl⟩ := Prod.mk.inj heq
    exact honly g (AList.mem_lookup_iff.mpr hmem) ▸ hmatch
  · intro hmatch
    exact ⟨⟨(f, k), v⟩, List.mem_filter.mpr ⟨AList.mem_lookup_iff.mp hf, hmatch⟩, rfl⟩

/-- The value of the topic, which no other topic has, is reported for the filter. -/
theorem mem_find_retained {R : RetainedTopicMap W} {s : RetainedTopicMap.Stored W}
    (hr : R.Runs s) (ht : s.lookup topic = some w)
    (honly : ∀ u, s.lookup u = some w → u = topic) (hf : validateTopicFilter f) :
    w ∈ R.find f ↔ topicFilterMatches true f topic ∧
      R.Visible (topicFilterTokens f) (topicFilterTokens topic) := by
  classical
  have hperm := hr.holds.perm_find hf
  rw [hperm.mem_iff, List.mem_map]
  constructor
  · rintro ⟨⟨u, w'⟩, hi, rfl⟩
    obtain ⟨hmem, hmatch⟩ := List.mem_filter.mp hi
    obtain rfl := honly u (AList.mem_lookup_iff.mpr hmem)
    simpa using hmatch
  · intro hmatch
    refine ⟨⟨topic, w⟩, List.mem_filter.mpr ⟨AList.mem_lookup_iff.mp ht, ?_⟩, rfl⟩
    simpa using hmatch

section

variable {M : MultipleSubscriptionMap K V} {s : MultipleSubscriptionMap.Stored K V} {n : Nat}
  {R : RetainedTopicMap W} {r : RetainedTopicMap.Stored W}

/-- The two maps agree on a stored filter and a stored topic if and only if the filter does not match
    the topic, or it matches and its `#`, if it has one, stands for no level exactly when the walk
    over the retained topics does not come to the topic. -/
theorem live_iff_retained (hM : MultipleSubscriptionMap.Runs M s n) (hR : R.Runs r)
    (hf : validateTopicFilter f) (ht : validateTopicName topic)
    (hfk : s.lookup (f, k) = some v) (hfonly : ∀ g, s.lookup (g, k) = some v → g = f)
    (htw : r.lookup topic = some w) (htonly : ∀ u, r.lookup u = some w → u = topic) :
    ((k, v) ∈ M.find topic ↔ w ∈ R.find f) ↔
      (topicFilterMatches true f topic →
        (topicFilterMatches false f topic ↔
          R.Visible (topicFilterTokens f) (topicFilterTokens topic))) := by
  rw [mem_find_live hM hfk hfonly (noWildcards_of_validateTopicName ht),
    mem_find_retained hR htw htonly hf]
  constructor
  · intro hagree hmatch
    rw [hagree, and_iff_right hmatch]
  · intro hagree
    constructor
    -- the message is delivered, so the filter matches, and the retained one has to be found
    · intro hlive
      have hmatch := topicFilterMatches_of_live hlive
      exact ⟨hmatch, (hagree hmatch).mp hlive⟩
    · rintro ⟨hmatch, hvisible⟩
      exact (hagree hmatch).mpr hvisible

end

/-- The only key of the map -/
theorem eq_of_lookup_insert {α β : Type} [DecidableEq α] {a a' : α} {b b' : β}
    (h : ((∅ : AList fun _ : α => β).insert a b).lookup a' = some b') : a' = a := by
  by_contra hne
  rw [AList.lookup_insert_ne hne, AList.lookup_empty] at h
  exact nomatch h

/-- `a/#` and `a/b` -/
theorem live_iff_retained_below :
    ∃ (M : MultipleSubscriptionMap Nat Nat) (R : RetainedTopicMap Nat),
      ((0, 7) ∈ M.find [0x61, 0x2f, 0x62] ↔ 8 ∈ R.find [0x61, 0x2f, 0x23]) ∧
        (0, 7) ∈ M.find [0x61, 0x2f, 0x62] := by
  have hM := MultipleSubscriptionMap.Runs.insertOrAssign (f := [0x61, 0x2f, 0x23]) (k := 0)
    (v := 7) .make rfl
  have hR := RetainedTopicMap.Runs.insertOrAssign (f := [0x61, 0x2f, 0x62]) (v := 8) .make rfl
  refine ⟨_, _, (live_iff_retained hM hR rfl rfl rfl (fun g hg => ?_) rfl (fun u hu => ?_)).mpr
    fun _ => ?_, List.mem_singleton.mpr rfl⟩
  · exact (Prod.mk.inj (eq_of_lookup_insert hg)).1
  · exact eq_of_lookup_insert hu
  · refine iff_of_true rfl ⟨fun heq => absurd heq (by decide), fun gs hgs _ q _ hmatch hearlier => ?_⟩
    -- the only place is the one above the topic
    obtain rfl : gs = [[0x61]] := List.append_cancel_right (hgs.symm : _ = [[0x61]] ++ [hashLevel])
    have hq : q = [[0x61]] := by
      obtain ⟨t, rfl⟩ := List.length_eq_one_iff.mp
        (LevelMatch.length_eq_of_isMatch (by decide) hmatch)
      simpa [LevelMatch.isMatch, plusLevel, hashLevel, eq_comm] using hmatch
    subst hq
    have hlen := (PathOrder.earlier_singleton_iff.mp hearlier).length_le
    exact absurd hlen (by decide : ¬ 2 ≤ 1)

/-- `a/#` gets the retained message of `a`, and not a live one. Beside a level of the server that was
    created before, `+` gets a live message of `a`, and not the retained one. -/
theorem live_ne_retained :
    (∃ (M : MultipleSubscriptionMap Nat Nat) (R : RetainedTopicMap Nat) (s r : _) (n : Nat),
      MultipleSubscriptionMap.Runs M s n ∧ R.Runs r ∧
      validateTopicFilter [0x61, 0x2f, 0x23] ∧ validateTopicName [0x61] ∧
      s.lookup ([0x61, 0x2f, 0x23], 0) = some 7 ∧ r.lookup [0x61] = some 8 ∧
      (0, 7) ∉ M.find [0x61] ∧ 8 ∈ R.find [0x61, 0x2f, 0x23]) ∧
    ∃ (M : MultipleSubscriptionMap Nat Nat) (R : RetainedTopicMap Nat) (s r : _) (n : Nat),
      MultipleSubscriptionMap.Runs M s n ∧ R.Runs r ∧
      validateTopicFilter [0x2b] ∧ validateTopicName [0x61] ∧
      s.lookup ([0x2b], 0) = some 7 ∧ r.lookup [0x61] = some 8 ∧
      (0, 7) ∈ M.find [0x61] ∧ 8 ∉ R.find [0x2b] := by
  constructor
  -- `a/#` matches `a`, which the retained map does not find
  · have hM := MultipleSubscriptionMap.Runs.insertOrAssign (f := [0x61, 0x2f, 0x23]) (k := 0)
      (v := 7) .make rfl
    have hR := RetainedTopicMap.Runs.insertOrAssign (f := [0x61]) (v := 8) .make rfl
    exact ⟨_, _, _, _, _, hM, hR, rfl, rfl, rfl, rfl, List.not_mem_nil, List.mem_singleton.mpr rfl⟩
  · have hM := MultipleSubscriptionMap.Runs.insertOrAssign (f := [0x2b]) (k := 0) (v := 7) .make rfl
    have hR := RetainedTopicMap.Runs.insertOrAssign (f := [0x61]) (v := 8)
      (RetainedTopicMap.Runs.insertOrAssign (f := [0x24, 0x73]) (v := 7) .make rfl) rfl
    exact ⟨_, _, _, _, _, hM, hR, rfl, rfl, rfl, rfl, List.mem_singleton.mpr rfl, List.not_mem_nil⟩

end AsyncMqtt
