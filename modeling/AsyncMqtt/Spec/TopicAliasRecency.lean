import AsyncMqtt.ForStd.Recency
import AsyncMqtt.Spec.FreeValues
import AsyncMqtt.Spec.TopicAliasCorrect
import Mathlib.Data.List.TakeWhile

/-!
# Recency of topic aliases

The index over `tp` keeps the entries of `topic_alias_send` in the order of the times at which
they were written. If the clock advances between the calls then writing an entry moves it to the
end, so the entries stand in the order of the last use of their aliases, provided that every use
writes the entry.

## Key results

- `TopicAliasSend.entries_insertOrUpdate`, `TopicAliasSend.entries_findTopic`: a registration
  and a look-up by alias move the entry to the end
- `TopicAliasSend.Recent.insertOrUpdate`, `TopicAliasSend.Recent.findTopic`: the order is kept
- `TopicAliasSend.Recent.assigns`: which alias a new topic gets
-/

namespace AsyncMqtt

namespace TopicAliasSend

/-! ### Writing an entry -/

theorem link_eq_concat {e : TopicAliasEntry} {es : List TopicAliasEntry}
    (h : ∀ x ∈ es, x.tp ≤ e.tp) : link e es = es ++ [e] := by
  have hall : ∀ x ∈ es, decide (x.tp ≤ e.tp) = true := fun x hx => decide_eq_true (h x hx)
  rw [link, List.takeWhile_eq_self_iff.mpr hall, List.dropWhile_eq_nil_iff.mpr hall]

/-- An entry whose time is later than all others goes to the end. -/
theorem modify_eq_concat {e : TopicAliasEntry} {pre post : List TopicAliasEntry}
    (htp : ∀ x ∈ pre ++ post, x.tp < e.tp) (htopic : ∀ x ∈ pre ++ post, x.topic ≠ e.topic) :
    modify pre e post = pre ++ post ++ [e] := by
  have hany : (pre ++ post).any (·.topic = e.topic) = false := by
    rw [List.any_eq_false]
    intro x hx
    simpa using htopic x hx
  unfold modify
  rw [hany, if_neg Bool.false_ne_true]
  split
  · next hfits =>
    -- the entry can only stay where it is if it is the last one
    have hpost : post = [] := by
      cases post with
      | nil => rfl
      | cons x post =>
        have hlt := htp x (by simp)
        have hle : e.tp ≤ x.tp := by simpa using (Bool.and_eq_true_iff.mp hfits).2
        omega
    rw [hpost, List.append_nil]
  · exact link_eq_concat fun x hx => Nat.le_of_lt (htp x hx)

/-- The entries of the other aliases. -/
def others (t : TopicAliasSend) (ta : Nat) : List TopicAliasEntry :=
  t.entries.filter (·.topicAlias ≠ ta)

theorem mem_others {t : TopicAliasSend} {ta : Nat} {e : TopicAliasEntry} :
    e ∈ t.others ta ↔ e ∈ t.entries ∧ e.topicAlias ≠ ta := by
  simp [others, List.mem_filter]

theorem others_of_split_eq_none {t : TopicAliasSend} {ta : Nat} (h : split ta t.entries = none) :
    t.others ta = t.entries := by
  rw [others, List.filter_eq_self]
  intro e he
  simpa using split_eq_none.mp h e he

theorem others_of_split {t : TopicAliasSend} (h : t.Valid) {ta : Nat}
    {pre post : List TopicAliasEntry} {e : TopicAliasEntry}
    (hsplit : split ta t.entries = some (pre, e, post)) : t.others ta = pre ++ post := by
  obtain ⟨heq, hta⟩ := split_eq_some hsplit
  have hperm : (pairs t.entries).Perm ((ta, e.topic) :: pairs (pre ++ post)) := by
    rw [heq, ← hta]
    exact pairs_split pre e post
  have hnodup := (hperm.map Prod.fst).nodup_iff.mp h.nodup
  rw [List.map_cons, List.nodup_cons] at hnodup
  have hkeep : ∀ x ∈ pre ++ post, x.topicAlias ≠ ta := by
    intro x hx hxta
    apply hnodup.1
    exact List.mem_map.mpr ⟨(x.topicAlias, x.topic), List.mem_map.mpr ⟨x, hx, rfl⟩, hxta⟩
  have hself : (pre ++ post).filter (·.topicAlias ≠ ta) = pre ++ post :=
    List.filter_eq_self.mpr fun x hx => by simpa using hkeep x hx
  rw [others, heq, List.filter_append, List.filter_cons_of_neg (by simp [hta]),
    ← List.filter_append, hself]

/-- A registration moves the entry of the alias to the end. -/
theorem entries_insertOrUpdate {t : TopicAliasSend} (h : t.Valid) {topic : Buffer} {ta now : Nat}
    (htp : ∀ e ∈ t.entries, e.tp < now) (htopic : ∀ e ∈ t.others ta, e.topic ≠ topic) :
    (t.insertOrUpdate topic ta now).entries = t.others ta ++ [⟨topic, ta, now⟩] := by
  unfold insertOrUpdate
  dsimp only
  cases hsplit : split ta t.entries with
  | none =>
    rw [others_of_split_eq_none hsplit] at htopic ⊢
    have hany : t.entries.any (·.topic = topic) = false := by
      rw [List.any_eq_false]
      intro e he
      simpa using htopic e he
    dsimp only
    rw [hany, if_neg Bool.false_ne_true]
    exact link_eq_concat fun e he => Nat.le_of_lt (htp e he)
  | some r =>
    obtain ⟨pre, e, post⟩ := r
    have hothers := others_of_split h hsplit
    rw [hothers] at htopic ⊢
    refine modify_eq_concat (fun x hx => htp x ?_) htopic
    exact (mem_others.mp (hothers ▸ hx)).1

/-- So does a look-up by alias. -/
theorem entries_findTopic {t : TopicAliasSend} (h : t.Valid) {ta now : Nat} {topic : Buffer}
    (htp : ∀ e ∈ t.entries, e.tp < now) (htopic : topic ≠ [])
    (hfind : t.findWithoutTouch ta = topic) (hother : ∀ e ∈ t.others ta, e.topic ≠ topic) :
    (t.findTopic ta now).2.entries = t.others ta ++ [⟨topic, ta, now⟩] := by
  have hpair := (find_eq_iff h htopic).mp hfind
  unfold findWithoutTouch at hfind
  unfold findTopic
  rw [if_pos (h.range _ hpair).1] at hfind ⊢
  cases hsplit : split ta t.entries with
  | none =>
    rw [hsplit] at hfind
    exact absurd hfind.symm htopic
  | some r =>
    obtain ⟨pre, e, post⟩ := r
    rw [hsplit] at hfind
    have hta := (split_eq_some hsplit).2
    have hothers := others_of_split h hsplit
    dsimp only at hfind ⊢
    rw [hothers] at hother ⊢
    have hentry : ({ e with tp := now } : TopicAliasEntry) = ⟨topic, ta, now⟩ := by
      rw [← hfind, ← hta]
    rw [hentry]
    refine modify_eq_concat (fun x hx => htp x ?_) hother
    exact (mem_others.mp (hothers ▸ hx)).1

/-! ### The order of the entries -/

/-- The table after these uses of its aliases: the entries stand in the order of last use, and
    the aliases that were never used are vacant. -/
structure Recent (t : TopicAliasSend) (uses : List Nat) (now : Nat) : Prop where
  valid : t.Valid
  topics : (t.entries.map (·.topic)).Nodup
  order : t.entries.map (·.topicAlias) = uses.dedup
  times : ∀ e ∈ t.entries, e.tp ≤ now
  vacant : ∀ v, 1 ≤ v → v ≤ t.max → (v ∈ t.va.pool ↔ v ∉ uses)

theorem recent_make (max : Nat) (h : 1 ≤ max) (now : Nat) : (make max h).Recent [] now where
  valid := valid_make max h
  topics := List.nodup_nil
  order := rfl
  times := nofun
  vacant v hlow hhigh := by
    have hmem : v ∈ (make max h).va.pool := (IntervalPool.mem_singleton h).mpr ⟨hlow, hhigh⟩
    simp [hmem]

variable {t t' : TopicAliasSend} {uses : List Nat} {ta now now' : Nat} {topic : Buffer}

theorem Recent.mem_uses (h : t.Recent uses now) {e : TopicAliasEntry} (he : e ∈ t.entries) :
    e.topicAlias ∈ uses := by
  rw [← List.mem_dedup, ← h.order]
  exact List.mem_map.mpr ⟨e, he, rfl⟩

/-- The clock goes on. -/
theorem Recent.later (h : t.Recent uses now) (hle : now ≤ now') : t.Recent uses now' :=
  { h with times := fun e he => Nat.le_trans (h.times e he) hle }

/-- A topic that one alias stands for has no other entry. -/
theorem Recent.topic_of_others (h : t.Recent uses now) (hpair : (ta, topic) ∈ pairs t.entries) :
    ∀ e ∈ t.others ta, e.topic ≠ topic := by
  intro e he htopic
  obtain ⟨e', he', heq⟩ := List.mem_map.mp hpair
  have hmem := mem_others.mp he
  have hsame : e = e' := by
    apply List.inj_on_of_nodup_map h.topics hmem.1 he'
    exact htopic.trans (congrArg Prod.snd heq).symm
  exact hmem.2 (hsame ▸ congrArg Prod.fst heq)

/-- Moving the entry of an alias to the end is a use of the alias. -/
theorem Recent.moved (h : t.Recent uses now) (hvalid : t'.Valid)
    (hentries : t'.entries = t.others ta ++ [⟨topic, ta, now'⟩]) (hmax : t'.max = t.max)
    (hpool : ∀ v, v ∈ t'.va.pool ↔ v ∈ t.va.pool ∧ v ≠ ta) (hnow : now ≤ now')
    (hother : ∀ e ∈ t.others ta, e.topic ≠ topic) : t'.Recent (uses ++ [ta]) now' where
  valid := hvalid
  topics := by
    rw [hentries, List.map_append, List.nodup_append]
    refine ⟨h.topics.sublist (List.filter_sublist.map _), List.nodup_singleton _, ?_⟩
    intro x hx y hy hxy
    obtain ⟨e, he, rfl⟩ := List.mem_map.mp hx
    exact hother e he (hxy.trans (List.mem_singleton.mp hy))
  order := by
    -- the moved alias leaves its place and goes to the end
    have hnodup : (t.entries.map (·.topicAlias)).Nodup := h.order ▸ List.nodup_dedup uses
    have hothers : (t.others ta).map (·.topicAlias) = uses.dedup.erase ta := by
      rw [← h.order, hnodup.erase_eq_filter, others, List.filter_map]
      congr 2
      funext e
      by_cases heq : e.topicAlias = ta <;> simp [heq]
    rw [hentries, List.map_append, hothers, Recency.dedup_concat]
    rfl
  times e he := by
    rw [hentries, List.mem_append, List.mem_singleton] at he
    -- every other time is older
    rcases he with he | rfl
    · have := h.times e (mem_others.mp he).1
      omega
    · exact Nat.le_refl _
  vacant v hlow hhigh := by
    rw [hpool, h.vacant v hlow (hmax ▸ hhigh), List.mem_append, List.mem_singleton]
    tauto

/-- A registration of a topic that no other alias stands for is a use of its alias. -/
theorem Recent.insertOrUpdate (h : t.Recent uses now) (hnow : now < now')
    (hrange : 1 ≤ ta ∧ ta ≤ t.max) (htopic : topic ≠ [])
    (hother : ∀ e ∈ t.others ta, e.topic ≠ topic) :
    (t.insertOrUpdate topic ta now').Recent (uses ++ [ta]) now' := by
  obtain ⟨hmax, hva⟩ := t.insertOrUpdate_max topic ta now'
  apply h.moved (h.valid.insertOrUpdate now' hrange htopic) _ hmax _ (Nat.le_of_lt hnow) hother
  · apply entries_insertOrUpdate h.valid _ hother
    intro e he
    have := h.times e he
    omega
  · intro v
    rw [hva]
    exact ValueAllocator.mem_use_iff

/-- A look-up of an alias that stands for a topic is a use of it. -/
theorem Recent.findTopic (h : t.Recent uses now) (hnow : now < now')
    (hfind : t.findWithoutTouch ta ≠ []) :
    (t.findTopic ta now').2.Recent (uses ++ [ta]) now' := by
  obtain ⟨-, hmax, hva⟩ := t.pairs_findTopic ta now'
  have hpair := (find_eq_iff h.valid hfind).mp rfl
  have hother := h.topic_of_others hpair
  apply h.moved (h.valid.findTopic ta now') _ hmax _ (Nat.le_of_lt hnow) hother
  · apply entries_findTopic h.valid _ hfind rfl hother
    intro e he
    have := h.times e he
    omega
  · -- the alias was used before
    intro v
    rw [hva]
    obtain ⟨e, he, heq⟩ := List.mem_map.mp hpair
    have hta : e.topicAlias = ta := congrArg Prod.fst heq
    have hused : ta ∈ uses := hta ▸ h.mem_uses he
    have hrange := (h.valid.range _ hpair).1
    refine ⟨fun hv => ⟨hv, ?_⟩, And.left⟩
    rintro rfl
    exact (h.vacant v hrange.1 hrange.2).mp hv hused

/-- A use that finds the alias that was used last changes nothing. -/
theorem Recent.last (h : t.Recent uses now) (hlast : uses.getLast? = some ta) :
    t.Recent (uses ++ [ta]) now :=
  { h with
    order := h.order.trans (Recency.dedup_concat_getLast hlast).symm
    vacant := fun v hlow hhigh => by
      have hused : ta ∈ uses := List.mem_of_getLast? hlast
      rw [h.vacant v hlow hhigh, List.mem_append, List.mem_singleton]
      refine not_congr ⟨Or.inl, fun hv => hv.elim id fun heq => heq ▸ hused⟩ }

/-! ### The alias of a new topic -/

/-- An alias that a new topic may get: one that was never used, or if there is none, the one
    whose last use lies furthest back. -/
structure Assigns (max : Nat) (uses : List Nat) (ta : Nat) : Prop where
  range : 1 ≤ ta ∧ ta ≤ max
  unused : (∃ v, 1 ≤ v ∧ v ≤ max ∧ v ∉ uses) → ta ∉ uses
  oldest : (∀ v, 1 ≤ v → v ≤ max → v ∈ uses) →
    Recency.IsOldest uses (fun v => 1 ≤ v ∧ v ≤ max) ta

theorem Recent.assigns (h : t.Recent uses now) : Assigns t.max uses t.getLruAlias where
  range := getLruAlias_range h.valid
  unused := by
    -- an alias is vacant, and the least of them is given out
    rintro ⟨v, hlow, hhigh, hv⟩
    unfold getLruAlias
    cases hfirst : t.va.pool.first with
    | none => exact absurd ((h.vacant v hlow hhigh).mpr hv) (ValueAllocator.first_eq_none hfirst v)
    | some iv =>
      have hvacant : t.va.firstVacant = some iv.1 := by simp [ValueAllocator.firstVacant, hfirst]
      have hmem := (ValueAllocator.isLeast_first hfirst).1
      have hrange := h.valid.vacant _ hmem
      rw [hvacant]
      exact (h.vacant _ hrange.1 hrange.2).mp hmem
  oldest := by
    intro hall
    -- none is vacant, so the front of the table is the least recently used one
    have hnone : t.va.firstVacant = none := by
      rw [ValueAllocator.firstVacant, Option.map_eq_none_iff]
      cases hfirst : t.va.pool.first with
      | none => rfl
      | some iv =>
        have hmem := (ValueAllocator.isLeast_first hfirst).1
        have hrange := h.valid.vacant _ hmem
        exact absurd (hall _ hrange.1 hrange.2) ((h.vacant _ hrange.1 hrange.2).mp hmem)
    unfold getLruAlias
    rw [hnone]
    cases hentries : t.entries with
    | nil =>
      have := h.valid.start hentries
      rw [hnone] at this
      cases this
    | cons e es =>
      have horder := h.order
      rw [hentries, List.map_cons] at horder
      exact Recency.isOldest_of_dedup horder.symm fun v hv => hall v hv.1 hv.2

/-- The alias that was used last is not the right one if there is another. -/
theorem not_assigns_last {max other : Nat} (hlast : uses.getLast? = some ta)
    (hother : 1 ≤ other ∧ other ≤ max) (hne : other ≠ ta)
    (hall : ∀ v, 1 ≤ v → v ≤ max → v ∈ uses) : ¬ Assigns max uses ta := by
  intro h
  obtain ⟨older, newer, huses, hnew, hrest⟩ := h.oldest hall
  have hmem := hrest other hother hne
  -- the last use is the one of `ta`
  have hnil : newer ≠ [] := List.ne_nil_of_mem hmem
  rw [huses, List.getLast?_append_of_ne_nil _ (List.cons_ne_nil _ _),
    List.getLast?_cons_of_ne_nil hnil] at hlast
  exact hnew (List.mem_of_getLast? hlast)

end TopicAliasSend

end AsyncMqtt
