import AsyncMqtt.Native.TopicAlias
import AsyncMqtt.Spec.PacketIdCorrect
import Mathlib.Data.List.Nodup

/-!
# Topic aliases of the sender

The entries of `topic_alias_send` are kept in the order of their last use. What an
alias stands for does not depend on this order as long as no alias occurs twice,
which `TopicAliasSend.Valid` says and all operations keep.

## Key results

- `TopicAliasSend.find_findTopic`: looking up an alias changes no meaning
- `TopicAliasSend.find_insertOrUpdate`: what an alias stands for after a registration
- `TopicAliasSend.getLruAlias_range`: the least recently used alias can be sent
-/

namespace AsyncMqtt

namespace TopicAliasSend

/-! ### Entries -/

/-- The entry of an alias splits the others. -/
theorem split_eq_some {ta : Nat} {es pre post : List TopicAliasEntry} {e : TopicAliasEntry}
    (h : split ta es = some (pre, e, post)) : es = pre ++ e :: post ∧ e.topicAlias = ta := by
  induction es generalizing pre with
  | nil => exact nomatch h
  | cons a as ih =>
    rw [split] at h
    -- the entry is the first one, or comes later
    split at h
    · next hta =>
      cases h
      exact ⟨rfl, hta⟩
    · cases hsplit : split ta as with
      | none => rw [hsplit] at h; exact nomatch h
      | some r =>
        obtain ⟨pre', e', post'⟩ := r
        rw [hsplit] at h
        cases h
        obtain ⟨rfl, hta⟩ := ih hsplit
        exact ⟨rfl, hta⟩

/-- An alias without an entry -/
theorem split_eq_none {ta : Nat} {es : List TopicAliasEntry} :
    split ta es = none ↔ ∀ e ∈ es, e.topicAlias ≠ ta := by
  induction es with
  | nil => simp [split]
  | cons a as ih =>
    rw [split]
    by_cases hta : a.topicAlias = ta
    · simp [hta]
    · rw [if_neg hta, Option.map_eq_none_iff, ih]
      simp [hta]

/-- What the entries say: the aliases with their topics. -/
def pairs (es : List TopicAliasEntry) : List (Nat × Buffer) :=
  es.map fun e => (e.topicAlias, e.topic)

/-- Linking adds the entry. -/
theorem link_perm (e : TopicAliasEntry) (es : List TopicAliasEntry) :
    (link e es).Perm (e :: es) := by
  have h : (link e es).Perm (e :: (es.takeWhile (·.tp ≤ e.tp) ++ es.dropWhile (·.tp ≤ e.tp))) :=
    List.perm_middle
  rwa [List.takeWhile_append_dropWhile] at h

/-- A modification puts the entry back. -/
theorem modify_perm (pre : List TopicAliasEntry) (e : TopicAliasEntry)
    (post : List TopicAliasEntry) : (modify pre e post).Perm (e :: (pre ++ post)) := by
  unfold modify
  split
  · exact List.perm_middle
  · split
    · exact List.perm_middle
    · exact link_perm _ _

/-- Linking adds the pair of the entry. -/
theorem pairs_link (e : TopicAliasEntry) (es : List TopicAliasEntry) :
    (pairs (link e es)).Perm ((e.topicAlias, e.topic) :: pairs es) := (link_perm e es).map _

/-- A modification puts the pair back. -/
theorem pairs_modify (pre : List TopicAliasEntry) (e : TopicAliasEntry)
    (post : List TopicAliasEntry) :
    (pairs (modify pre e post)).Perm ((e.topicAlias, e.topic) :: pairs (pre ++ post)) :=
  (modify_perm pre e post).map _

/-- The pairs of a list that was split -/
theorem pairs_split (pre : List TopicAliasEntry) (e : TopicAliasEntry)
    (post : List TopicAliasEntry) :
    (pairs (pre ++ e :: post)).Perm ((e.topicAlias, e.topic) :: pairs (pre ++ post)) :=
  List.perm_middle.map _

/-! ### Valid tables -/

/-- What the operations keep: no alias occurs twice, aliases are in range and topics are
    not empty. -/
structure Valid (t : TopicAliasSend) : Prop where
  nodup : ((pairs t.entries).map Prod.fst).Nodup
  range : ∀ q ∈ pairs t.entries, (1 ≤ q.1 ∧ q.1 ≤ t.max) ∧ q.2 ≠ []
  vacant : ∀ v ∈ t.va.pool, 1 ≤ v ∧ v ≤ t.max
  start : t.entries = [] → t.va.firstVacant.isSome

/-- A new table is valid. -/
theorem valid_make (max : Nat) (h : 1 ≤ max) : (make max h).Valid where
  nodup := List.nodup_nil
  range := nofun
  vacant _ hv := (IntervalPool.mem_singleton h).mp hv
  start _ := rfl

/-- What an alias stands for. -/
theorem find_eq_iff {t : TopicAliasSend} (h : t.Valid) {ta : Nat} {topic : Buffer}
    (htopic : topic ≠ []) : t.findWithoutTouch ta = topic ↔ (ta, topic) ∈ pairs t.entries := by
  have hmem : ∀ {pre e post}, split ta t.entries = some (pre, e, post) →
      (ta, e.topic) ∈ pairs t.entries := by
    intro pre e post hsplit
    obtain ⟨heq, hta⟩ := split_eq_some hsplit
    rw [heq]
    exact (pairs_split pre e post).mem_iff.mpr (hta ▸ List.mem_cons_self ..)
  unfold findWithoutTouch
  constructor
  · intro hfind
    split at hfind
    · split at hfind
      · exact absurd hfind.symm htopic
      · next hsplit => exact hfind ▸ hmem hsplit
    · exact absurd hfind.symm htopic
  · intro hpair
    rw [if_pos (h.range _ hpair).1]
    -- the alias has an entry, whose topic is the one of the pair
    cases hsplit : split ta t.entries with
    | none =>
      obtain ⟨e, he, heq⟩ := List.mem_map.mp hpair
      exact absurd (congrArg Prod.fst heq) (split_eq_none.mp hsplit e he)
    | some r =>
      obtain ⟨pre, e, post⟩ := r
      exact congrArg Prod.snd (List.inj_on_of_nodup_map h.nodup (hmem hsplit) hpair rfl)

/-- Tables that say the same about an alias give the same answer. -/
theorem find_congr {t t' : TopicAliasSend} (h : t.Valid) (h' : t'.Valid) {ta : Nat}
    (hpairs : ∀ topic, (ta, topic) ∈ pairs t.entries ↔ (ta, topic) ∈ pairs t'.entries) :
    t.findWithoutTouch ta = t'.findWithoutTouch ta := by
  by_cases hnil : t.findWithoutTouch ta = []
  · by_contra hne
    have hne' : t'.findWithoutTouch ta ≠ [] := fun h0 => hne (hnil.trans h0.symm)
    have hpair := (hpairs _).mpr ((find_eq_iff h' hne').mp rfl)
    exact hne ((find_eq_iff h hne').mpr hpair)
  · exact ((find_eq_iff h' hnil).mpr ((hpairs _).mp ((find_eq_iff h hnil).mp rfl))).symm

/-- Entries that say the same are as good. -/
theorem Valid.of_perm {t t' : TopicAliasSend} (h : t.Valid)
    (hpairs : (pairs t'.entries).Perm (pairs t.entries)) (hmax : t'.max = t.max)
    (hva : t'.va = t.va) : t'.Valid where
  nodup := (hpairs.map _).nodup_iff.mpr h.nodup
  range q hq := by rw [hmax]; exact h.range q (hpairs.mem_iff.mp hq)
  vacant := by rw [hva, hmax]; exact h.vacant
  start hnil := by
    rw [hnil] at hpairs
    rw [hva]
    exact h.start (List.map_eq_nil_iff.mp (List.nil_perm.mp hpairs))

/-! ### Looking up -/

/-- Finding a topic and looking it up have the same result. -/
theorem findTopic_fst (t : TopicAliasSend) (ta now : Nat) :
    (t.findTopic ta now).1 = t.findWithoutTouch ta := by
  unfold findTopic findWithoutTouch
  split
  · split <;> rfl
  · rfl

/-- `find(alias)` only moves an entry. -/
theorem pairs_findTopic (t : TopicAliasSend) (ta now : Nat) :
    (pairs (t.findTopic ta now).2.entries).Perm (pairs t.entries) ∧
      (t.findTopic ta now).2.max = t.max ∧ (t.findTopic ta now).2.va = t.va := by
  unfold findTopic
  split
  · split
    · exact ⟨.refl _, rfl, rfl⟩
    · next pre e post hsplit =>
      refine ⟨?_, rfl, rfl⟩
      rw [(split_eq_some hsplit).1]
      exact (pairs_modify pre { e with tp := now } post).trans (pairs_split pre e post).symm
  · exact ⟨.refl _, rfl, rfl⟩

/-- Finding a topic keeps the table valid. -/
theorem Valid.findTopic {t : TopicAliasSend} (h : t.Valid) (ta now : Nat) :
    (t.findTopic ta now).2.Valid :=
  have hp := t.pairs_findTopic ta now
  h.of_perm hp.1 hp.2.1 hp.2.2

/-- Looking up an alias changes no meaning. -/
theorem find_findTopic {t : TopicAliasSend} (h : t.Valid) (ta now x : Nat) :
    (t.findTopic ta now).2.findWithoutTouch x = t.findWithoutTouch x :=
  find_congr (h.findTopic ta now) h fun _ => (t.pairs_findTopic ta now).1.mem_iff

/-- An alias that was found by its topic stands for it. -/
theorem find_of_findAlias {t : TopicAliasSend} (h : t.Valid) {topic : Buffer} {ta : Nat}
    (hfind : t.findAlias topic = some ta) : t.findWithoutTouch ta = topic ∧ topic ≠ [] := by
  obtain ⟨e, he, rfl⟩ := Option.map_eq_some_iff.mp hfind
  have htopic : e.topic = topic := by simpa using List.find?_some he
  have hpair : (e.topicAlias, topic) ∈ pairs t.entries :=
    List.mem_map.mpr ⟨e, List.mem_of_find?_eq_some he, by rw [htopic]⟩
  have hne := (h.range _ hpair).2
  exact ⟨(find_eq_iff h hne).mpr hpair, hne⟩

/-- A topic without an alias -/
theorem findAlias_eq_none {t : TopicAliasSend} {topic : Buffer} :
    t.findAlias topic = none ↔ ∀ ta, (ta, topic) ∉ pairs t.entries := by
  rw [findAlias, Option.map_eq_none_iff, List.find?_eq_none]
  constructor
  · intro h ta hpair
    obtain ⟨e, he, heq⟩ := List.mem_map.mp hpair
    exact h e he (decide_eq_true (congrArg Prod.snd heq))
  · intro h e he htopic
    exact h e.topicAlias (List.mem_map.mpr ⟨e, he, by rw [of_decide_eq_true htopic]⟩)

/-! ### Registering -/

/-- A registration is recorded: the alias has an entry, or the topic has none. -/
def records (t : TopicAliasSend) (topic : Buffer) (ta : Nat) : Bool :=
  t.findWithoutTouch ta ≠ [] || (t.findAlias topic).isNone

/-- A registration that is not recorded changes no entry. -/
theorem entries_insertOrUpdate_of_not_records {t : TopicAliasSend} (h : t.Valid)
    {topic : Buffer} {ta : Nat} (now : Nat) (hrec : ¬ t.records topic ta) :
    (t.insertOrUpdate topic ta now).entries = t.entries := by
  simp only [records, Bool.or_eq_true, decide_eq_true_eq, not_or, not_not,
    Option.isNone_iff_eq_none] at hrec
  unfold insertOrUpdate
  dsimp only
  -- the topic is there under another alias, or the entry is as it was
  split
  · split
    · rfl
    · next hany =>
      refine absurd (findAlias_eq_none.mpr fun ta' hpair => hany ?_) hrec.2
      obtain ⟨e, he, heq⟩ := List.mem_map.mp hpair
      exact List.any_eq_true.mpr ⟨e, he, decide_eq_true (congrArg Prod.snd heq)⟩
  · next pre e post hsplit =>
    obtain ⟨heq, hta⟩ := split_eq_some hsplit
    have hpair : (ta, e.topic) ∈ pairs t.entries := by
      rw [heq]
      exact (pairs_split pre e post).mem_iff.mpr (hta ▸ List.mem_cons_self ..)
    have hne := (h.range _ hpair).2
    exact absurd (((find_eq_iff h hne).mpr hpair).symm.trans hrec.1) hne

/-- A registration that is recorded replaces what the alias stood for. -/
theorem pairs_insertOrUpdate {t : TopicAliasSend} (h : t.Valid) {topic : Buffer} {ta : Nat}
    (now : Nat) (hrec : t.records topic ta) :
    ∃ rest, (pairs (t.insertOrUpdate topic ta now).entries).Perm ((ta, topic) :: rest) ∧
      (rest.map Prod.fst).Nodup ∧ (∀ q ∈ rest, q.1 ≠ ta) ∧
      ∀ q : Nat × Buffer, q.1 ≠ ta → (q ∈ pairs t.entries ↔ q ∈ rest) := by
  unfold insertOrUpdate
  dsimp only
  split
  · next hsplit =>
    have hnew : ∀ q ∈ pairs t.entries, q.1 ≠ ta := by
      intro q hq
      obtain ⟨e, he, rfl⟩ := List.mem_map.mp hq
      exact split_eq_none.mp hsplit e he
    split
    · next hany =>
      -- the alias is new and the topic has another one
      obtain ⟨e, he, htopic⟩ := List.any_eq_true.mp hany
      have hfind : t.findWithoutTouch ta = [] := by
        by_contra hne
        exact hnew _ ((find_eq_iff h hne).mp rfl) rfl
      have hsome : t.findAlias topic ≠ none := fun hnone =>
        findAlias_eq_none.mp hnone e.topicAlias
          (List.mem_map.mpr ⟨e, he, by rw [of_decide_eq_true htopic]⟩)
      simp [records, hfind, Option.isNone_iff_eq_none, hsome] at hrec
    · exact ⟨pairs t.entries, pairs_link _ _, h.nodup, hnew, fun _ _ => Iff.rfl⟩
  · next pre e post hsplit =>
    obtain ⟨heq, hta⟩ := split_eq_some hsplit
    have hperm : (pairs t.entries).Perm ((ta, e.topic) :: pairs (pre ++ post)) := by
      rw [heq, ← hta]
      exact pairs_split pre e post
    have hnodup := (hperm.map Prod.fst).nodup_iff.mp h.nodup
    rw [List.map_cons, List.nodup_cons] at hnodup
    refine ⟨pairs (pre ++ post), pairs_modify _ _ _, hnodup.2, fun q hq hqta => ?_, fun q hq => ?_⟩
    · exact hnodup.1 (List.mem_map.mpr ⟨q, hq, hqta⟩)
    · rw [hperm.mem_iff, List.mem_cons]
      exact or_iff_right fun hqe => hq (congrArg Prod.fst hqe)

/-- An insertion leaves the maximum and uses the alias. -/
theorem insertOrUpdate_max (t : TopicAliasSend) (topic : Buffer) (ta now : Nat) :
    (t.insertOrUpdate topic ta now).max = t.max ∧
      (t.insertOrUpdate topic ta now).va = (t.va.use ta).2 := by
  unfold insertOrUpdate
  dsimp only
  split
  · split <;> exact ⟨rfl, rfl⟩
  · exact ⟨rfl, rfl⟩

/-- An insertion keeps the table valid. -/
theorem Valid.insertOrUpdate {t : TopicAliasSend} (h : t.Valid) {topic : Buffer} {ta : Nat}
    (now : Nat) (hrange : 1 ≤ ta ∧ ta ≤ t.max) (htopic : topic ≠ []) :
    (t.insertOrUpdate topic ta now).Valid := by
  obtain ⟨hmax, hva⟩ := t.insertOrUpdate_max topic ta now
  have hvacant : ∀ v ∈ (t.insertOrUpdate topic ta now).va.pool, 1 ≤ v ∧ v ≤ t.max := by
    rw [hva]
    exact fun v hv => h.vacant v (ValueAllocator.mem_of_mem_use hv)
  -- the pair is entered, or the table stays as it was
  by_cases hrec : t.records topic ta
  · obtain ⟨rest, hperm, hnodup, hne, hrest⟩ := pairs_insertOrUpdate h now hrec
    constructor
    · rw [(hperm.map Prod.fst).nodup_iff, List.map_cons, List.nodup_cons]
      refine ⟨fun hmem => ?_, hnodup⟩
      -- the alias of the new pair is no longer with another topic
      obtain ⟨q, hq, hqta⟩ := List.mem_map.mp hmem
      exact hne q hq hqta
    · intro q hq
      rw [hmax]
      rcases List.mem_cons.mp (hperm.mem_iff.mp hq) with rfl | hq
      · exact ⟨hrange, htopic⟩
      · exact h.range q ((hrest q (hne q hq)).mpr hq)
    · rw [hmax]
      exact hvacant
    · intro hnil
      rw [hnil] at hperm
      exact absurd (List.nil_perm.mp hperm) (List.cons_ne_nil _ _)
  · have hsame := entries_insertOrUpdate_of_not_records h now hrec
    constructor
    · rw [hsame]
      exact h.nodup
    · rw [hsame, hmax]
      exact h.range
    · rw [hmax]
      exact hvacant
    · -- the topic has an entry
      intro hnil
      rw [hsame] at hnil
      refine absurd ?_ hrec
      have hnone : t.findAlias topic = none := findAlias_eq_none.mpr (by rw [hnil]; exact nofun)
      rw [records, hnone]
      exact Bool.or_true _

/-- What an alias stands for after a registration. -/
theorem find_insertOrUpdate {t : TopicAliasSend} (h : t.Valid) {topic : Buffer} {ta : Nat}
    (now : Nat) (hrange : 1 ≤ ta ∧ ta ≤ t.max) (htopic : topic ≠ []) (x : Nat) :
    (t.insertOrUpdate topic ta now).findWithoutTouch x =
      if x = ta ∧ t.records topic ta then topic else t.findWithoutTouch x := by
  have h' := h.insertOrUpdate now hrange htopic
  by_cases hrec : t.records topic ta
  · obtain ⟨rest, hperm, hnodup, hne, hrest⟩ := pairs_insertOrUpdate h now hrec
    by_cases hx : x = ta
    · rw [if_pos ⟨hx, hrec⟩, find_eq_iff h' htopic, hx]
      exact hperm.mem_iff.mpr (List.mem_cons_self ..)
    · rw [if_neg fun hc => hx hc.1]
      refine find_congr h' h fun topic' => ?_
      rw [hperm.mem_iff, List.mem_cons, hrest (x, topic') hx]
      exact or_iff_right fun hq => hx (congrArg Prod.fst hq)
  · rw [if_neg fun hc => hrec hc.2]
    refine find_congr h' h fun topic' => ?_
    rw [entries_insertOrUpdate_of_not_records h now hrec]

/-- The alias for the next topic can be sent. -/
theorem getLruAlias_range {t : TopicAliasSend} (h : t.Valid) :
    1 ≤ t.getLruAlias ∧ t.getLruAlias ≤ t.max := by
  unfold getLruAlias
  -- a vacant alias is in the range, and so is that of the first entry
  split
  · next ta hvacant =>
    obtain ⟨iv, hfirst, rfl⟩ := Option.map_eq_some_iff.mp hvacant
    have hiv := IntervalPool.mem_first hfirst
    exact h.vacant _ ⟨iv, hiv, Nat.le_refl _, t.va.pool.valid iv hiv⟩
  · next hvacant =>
    cases hentries : t.entries with
    | nil =>
      have := h.start hentries
      rw [hvacant] at this
      exact nomatch this
    | cons e es =>
      refine (h.range (e.topicAlias, e.topic) ?_).1
      rw [hentries]
      exact List.mem_cons_self ..

/-! ### What all operations keep -/

/-- A property of tables that holds of a new one and that the operations keep, when the topics
    that are registered satisfy `T`. -/
structure Kept (T : Buffer → Prop) (K : TopicAliasSend → Prop) : Prop where
  valid : ∀ {t}, K t → t.Valid
  make : ∀ max h, K (make max h)
  findTopic : ∀ {t}, K t → ∀ ta now, K (t.findTopic ta now).2
  insertOrUpdate : ∀ {t}, K t → ∀ {topic ta} now, 1 ≤ ta ∧ ta ≤ t.max → topic ≠ [] → T topic →
    K (t.insertOrUpdate topic ta now)

/-- Every table of a connection is valid. -/
theorem valid_kept : Kept (fun _ => True) Valid where
  valid := id
  make := valid_make
  findTopic := Valid.findTopic
  insertOrUpdate h _ _ now hrange htopic _ := h.insertOrUpdate now hrange htopic

/-- The topics of a table satisfy what those that were registered do. -/
theorem topics_kept (T : Buffer → Prop) :
    Kept T fun t => t.Valid ∧ ∀ q ∈ pairs t.entries, T q.2 where
  valid h := h.1
  make max h := ⟨valid_make max h, nofun⟩
  findTopic {t} h ta now := by
    refine ⟨h.1.findTopic ta now, fun q hq => h.2 q ?_⟩
    exact (t.pairs_findTopic ta now).1.mem_iff.mp hq
  insertOrUpdate {t} h {topic ta} now hrange htopic hT := by
    refine ⟨h.1.insertOrUpdate now hrange htopic, ?_⟩
    by_cases hrec : t.records topic ta
    · obtain ⟨rest, hperm, -, hne, hrest⟩ := pairs_insertOrUpdate h.1 now hrec
      intro q hq
      rcases List.mem_cons.mp (hperm.mem_iff.mp hq) with rfl | hq
      · exact hT
      · exact h.2 q ((hrest q (hne q hq)).mpr hq)
    · rw [entries_insertOrUpdate_of_not_records h.1 now hrec]
      exact h.2

end TopicAliasSend

end AsyncMqtt
