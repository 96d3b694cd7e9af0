import AsyncMqtt.ForStd.Run
import AsyncMqtt.Spec.TopicAliasCorrect
import Mathlib.Logic.Function.Basic

/-!
# The topic alias tables of both sides

The sender and the receiver register the same topics under the same aliases, each in a table of
its own. What an alias stands for is the topic it was last registered with. The table of the
receiver follows this. The one of the sender has an index over the topics as well, and does not
follow a registration of a topic that another alias stands for.

## Key results

- `TopicAliasRecv.find_insertOrUpdate`: the receiver records every registration
- `TopicAliasSend.records_of_fresh`, `TopicAliasSend.not_modifyFails_of_fresh`: the sender
  records a registration of a topic that no other alias stands for
- `AliasTables.alike_iff`: exactly when the tables of both sides behave alike
-/

namespace AsyncMqtt

/-- A call `insert_or_update(topic, alias)`, with the arguments that it asserts. -/
structure AliasRegistration (m : Nat) where
  topic : Buffer
  ta : Nat
  /-- the time of the steady clock -/
  now : Nat
  topic_ne : topic ≠ []
  range : 1 ≤ ta ∧ ta ≤ m

/-- What the aliases stand for; the topic is empty for an alias that was never registered. -/
abbrev AliasMeaning := Nat → Buffer

namespace AliasMeaning

variable {m : Nat}

/-- Before the first registration. -/
def empty : AliasMeaning := fun _ => []

/-- The meaning of the aliases after a registration. -/
def next (f : AliasMeaning) (r : AliasRegistration m) : AliasMeaning :=
  Function.update f r.ta r.topic

/-- The registration is of a topic that no other alias stands for. -/
def Fresh (f : AliasMeaning) (r : AliasRegistration m) : Prop := ∀ x, x ≠ r.ta → f x ≠ r.topic

end AliasMeaning

/-! ### The receiver -/

namespace TopicAliasRecv

variable {t : TopicAliasRecv} {m : Nat}

@[simp] theorem insertOrUpdate_max (t : TopicAliasRecv) (topic : Buffer) (ta : Nat) :
    (t.insertOrUpdate topic ta).max = t.max := rfl

/-- The receiver records every registration. -/
theorem find_insertOrUpdate (topic : Buffer) {ta : Nat} (hrange : 1 ≤ ta ∧ ta ≤ t.max) (x : Nat) :
    (t.insertOrUpdate topic ta).find x = if x = ta then topic else t.find x := by
  unfold find
  by_cases hx : x = ta
  · subst hx
    simp [insertOrUpdate, hrange]
  · have hne : ¬ ta = x := Ne.symm hx
    have hkeep : ((ta, topic) :: t.aliases.filter (·.1 ≠ ta)).find? (·.1 = x) =
        t.aliases.find? (·.1 = x) := by
      rw [List.find?_cons_of_neg (by simpa using hne), List.find?_filter]
      congr 1
      funext q
      by_cases hq : q.1 = x <;> simp [hq, hx]
    simp only [insertOrUpdate, hkeep, if_neg hx]

/-- The table of the receiver says what the aliases stand for. -/
structure Follows (m : Nat) (t : TopicAliasRecv) (f : AliasMeaning) : Prop where
  max_eq : t.max = m
  find : ∀ x, t.find x = f x

theorem follows_make (m : Nat) : Follows m (make m) .empty where
  max_eq := rfl
  find x := by
    unfold TopicAliasRecv.find
    split <;> rfl

theorem Follows.next {f : AliasMeaning} (h : Follows m t f) (r : AliasRegistration m) :
    Follows m (t.insertOrUpdate r.topic r.ta) (f.next r) where
  max_eq := h.max_eq
  find x := by
    rw [find_insertOrUpdate r.topic (h.max_eq ▸ r.range), AliasMeaning.next,
      Function.update_apply, h.find]

end TopicAliasRecv

/-! ### The sender -/

namespace TopicAliasSend

variable {t : TopicAliasSend} {m : Nat} {f : AliasMeaning}

/-- The table of the sender says what the aliases stand for. -/
structure Follows (m : Nat) (t : TopicAliasSend) (f : AliasMeaning) : Prop where
  valid : t.Valid
  max_eq : t.max = m
  find : ∀ x, t.findWithoutTouch x = f x

theorem follows_make (m : Nat) (hm : 1 ≤ m) : Follows m (make m hm) .empty where
  valid := valid_make m hm
  max_eq := rfl
  find x := by
    unfold findWithoutTouch
    split <;> rfl

/-- An entry says what its alias stands for. -/
theorem Follows.of_mem (h : Follows m t f) {x : Nat} {topic : Buffer}
    (hmem : (x, topic) ∈ pairs t.entries) : f x = topic := by
  rw [← h.find]
  exact (find_eq_iff h.valid (h.valid.range _ hmem).2).mpr hmem

/-- The entry of the alias and the others. -/
theorem Follows.of_split (h : Follows m t f) {ta : Nat} {pre post : List TopicAliasEntry}
    {e : TopicAliasEntry} (hsplit : split ta t.entries = some (pre, e, post)) :
    (pairs t.entries).Perm ((ta, e.topic) :: pairs (pre ++ post)) ∧
      ∀ q ∈ pairs (pre ++ post), q.1 ≠ ta := by
  obtain ⟨heq, hta⟩ := split_eq_some hsplit
  have hperm : (pairs t.entries).Perm ((ta, e.topic) :: pairs (pre ++ post)) := by
    rw [heq, ← hta]
    exact pairs_split pre e post
  have hnodup := (hperm.map Prod.fst).nodup_iff.mp h.valid.nodup
  rw [List.map_cons, List.nodup_cons] at hnodup
  exact ⟨hperm, fun q hq hqta => hnodup.1 (List.mem_map.mpr ⟨q, hq, hqta⟩)⟩

/-- A topic that no other alias stands for is recorded. -/
theorem records_of_fresh (h : Follows m t f) {r : AliasRegistration m} (hfresh : f.Fresh r) :
    t.records r.topic r.ta := by
  by_cases hta : f r.ta = r.topic
  · have hne : t.findWithoutTouch r.ta ≠ [] := by
      rw [h.find, hta]
      exact r.topic_ne
    simp [records, hne]
  · -- no alias at all stands for the topic
    have hnone : t.findAlias r.topic = none := by
      apply findAlias_eq_none.mpr
      intro x hmem
      have hx := h.of_mem hmem
      by_cases hxr : x = r.ta
      · exact hta (hxr ▸ hx)
      · exact hfresh x hxr hx
    simp [records, hnone]

theorem not_modifyFails_of_fresh (h : Follows m t f) {r : AliasRegistration m}
    (hfresh : f.Fresh r) : ¬ t.modifyFails r.topic r.ta := by
  unfold modifyFails
  split
  · simp
  · next pre e post hsplit =>
    intro hany
    obtain ⟨hperm, hother⟩ := h.of_split hsplit
    obtain ⟨e', he', htopic⟩ := List.any_eq_true.mp hany
    have hmem : (e'.topicAlias, e'.topic) ∈ pairs (pre ++ post) := List.mem_map.mpr ⟨e', he', rfl⟩
    have hmeaning := h.of_mem (hperm.mem_iff.mpr (List.mem_cons_of_mem _ hmem))
    exact hfresh _ (hother _ hmem) (hmeaning.trans (of_decide_eq_true htopic))

theorem Follows.next (h : Follows m t f) {r : AliasRegistration m} (hfresh : f.Fresh r) :
    Follows m (t.insertOrUpdate r.topic r.ta r.now) (f.next r) where
  valid := h.valid.insertOrUpdate r.now (h.max_eq ▸ r.range) r.topic_ne
  max_eq := (t.insertOrUpdate_max r.topic r.ta r.now).1.trans h.max_eq
  find x := by
    rw [find_insertOrUpdate h.valid r.now (h.max_eq ▸ r.range) r.topic_ne, AliasMeaning.next,
      Function.update_apply, h.find]
    simp [records_of_fresh h hfresh]

/-- A topic that another alias stands for is refused: if the alias is new then nothing is
    inserted, and if it is not then the modification fails. -/
theorem refused_of_not_fresh (h : Follows m t f) {r : AliasRegistration m}
    (hfresh : ¬ f.Fresh r) : t.modifyFails r.topic r.ta ∨
      (t.insertOrUpdate r.topic r.ta r.now).findWithoutTouch r.ta = [] := by
  obtain ⟨x, hx, htopic⟩ : ∃ x, x ≠ r.ta ∧ f x = r.topic := by
    simpa [AliasMeaning.Fresh] using hfresh
  have hmem : (x, r.topic) ∈ pairs t.entries := by
    apply (find_eq_iff h.valid r.topic_ne).mp
    rw [h.find, htopic]
  -- the alias has an entry already, or it is new, and the topic stands under another one
  cases hsplit : split r.ta t.entries with
  | none =>
    right
    have hnil : t.findWithoutTouch r.ta = [] := by
      unfold findWithoutTouch
      simp [hsplit]
    have hsome : t.findAlias r.topic ≠ none := fun hnone => findAlias_eq_none.mp hnone x hmem
    have hrec : ¬ t.records r.topic r.ta := by
      simp [records, hnil, Option.isNone_iff_eq_none, hsome]
    rw [find_insertOrUpdate h.valid r.now (h.max_eq ▸ r.range) r.topic_ne,
      if_neg fun hc => hrec hc.2, hnil]
  | some s =>
    obtain ⟨pre, e, post⟩ := s
    left
    have hperm := (h.of_split hsplit).1
    have hother : (x, r.topic) ∈ pairs (pre ++ post) :=
      (List.mem_cons.mp (hperm.mem_iff.mp hmem)).resolve_left fun heq =>
        hx (congrArg Prod.fst heq)
    obtain ⟨e', he', heq⟩ := List.mem_map.mp hother
    have hany : (pre ++ post).any (·.topic = r.topic) :=
      List.any_eq_true.mpr ⟨e', he', decide_eq_true (congrArg Prod.snd heq)⟩
    simpa [modifyFails, hsplit] using hany

end TopicAliasSend

/-! ### Both sides -/

namespace AliasTables

variable {m : Nat}

/-- Both tables after a registration. -/
def next (t : TopicAliasSend × TopicAliasRecv) (r : AliasRegistration m) :
    TopicAliasSend × TopicAliasRecv :=
  (t.1.insertOrUpdate r.topic r.ta r.now, t.2.insertOrUpdate r.topic r.ta)

/-- `find(alias)` gives the same topic in both tables. -/
def Alike (t : TopicAliasSend × TopicAliasRecv) : Prop :=
  ∀ ta now, (t.1.findTopic ta now).1 = t.2.find ta

/-- The registration calls no failure callback and leaves tables that behave alike. The receiver
    has one index only, so nothing can fail there. -/
def Kept (t : TopicAliasSend × TopicAliasRecv) (r : AliasRegistration m) : Prop :=
  ¬ t.1.modifyFails r.topic r.ta ∧ Alike (next t r)

/-- Both tables say what the aliases stand for. -/
def Follow (m : Nat) (t : TopicAliasSend × TopicAliasRecv) (f : AliasMeaning) : Prop :=
  TopicAliasSend.Follows m t.1 f ∧ TopicAliasRecv.Follows m t.2 f

theorem Follow.next {t : TopicAliasSend × TopicAliasRecv} {f : AliasMeaning}
    {r : AliasRegistration m} (h : Follow m t f) (hfresh : f.Fresh r) :
    Follow m (next t r) (f.next r) := ⟨h.1.next hfresh, h.2.next r⟩

theorem Follow.alike {t : TopicAliasSend × TopicAliasRecv} {f : AliasMeaning}
    (h : Follow m t f) : Alike t := by
  intro ta now
  rw [TopicAliasSend.findTopic_fst, h.1.find, h.2.find]

/-- One registration: it is kept by both sides exactly if the topic is fresh. -/
theorem Follow.kept_iff {t : TopicAliasSend × TopicAliasRecv} {f : AliasMeaning}
    {r : AliasRegistration m} (h : Follow m t f) : Kept t r ↔ f.Fresh r := by
  constructor
  · intro hkept
    by_contra hfresh
    rcases TopicAliasSend.refused_of_not_fresh h.1 hfresh with hfails | hnil
    · exact hkept.1 hfails
    · -- the receiver has recorded the topic
      have halike := hkept.2 r.ta 0
      rw [TopicAliasSend.findTopic_fst] at halike
      have hrecv : (AliasTables.next t r).2.find r.ta = r.topic := by
        show (t.2.insertOrUpdate r.topic r.ta).find r.ta = r.topic
        rw [(h.2.next r).find, AliasMeaning.next, Function.update_self]
      exact r.topic_ne (hrecv.symm.trans (halike.symm.trans hnil))
  · intro hfresh
    exact ⟨TopicAliasSend.not_modifyFails_of_fresh h.1 hfresh, (h.next hfresh).alike⟩

/-- The tables of both sides behave alike after every call of a sequence, and none of the calls
    hits its failure callback, exactly if none of them registers a topic that another alias
    stands for. -/
theorem alike_iff (hm : 1 ≤ m) (calls : List (AliasRegistration m)) :
    Run.All next Kept (.make m hm, .make m) calls ↔
      Run.All AliasMeaning.next AliasMeaning.Fresh .empty calls := by
  have hstart : Follow m (.make m hm, .make m) .empty :=
    ⟨TopicAliasSend.follows_make m hm, TopicAliasRecv.follows_make m⟩
  apply Run.all_iff _ _ hstart
  · intro t f r h
    exact h.kept_iff
  · intro t f r h hfresh
    exact h.next hfresh

/-- Registrations of the topics `[1]` and `[2]`. -/
def firstOne : AliasRegistration 2 := ⟨[1], 1, 1, by decide, by decide⟩
def firstTwo : AliasRegistration 2 := ⟨[2], 2, 2, by decide, by decide⟩

theorem alike_iff_two : Run.All next Kept (.make 2 (by decide), .make 2) [firstOne, firstTwo] ↔
    Run.All AliasMeaning.next AliasMeaning.Fresh .empty [firstOne, firstTwo] :=
  alike_iff (by decide) _

/-- The topic of the first alias under the second one, which is new or stands for another topic. -/
def againTwo : AliasRegistration 2 := ⟨[1], 2, 3, by decide, by decide⟩

/-- The receiver follows, the sender drops the insertion or fails in the modification. -/
theorem sender_refuses :
    ¬ Alike (Run.final next (.make 2 (by decide), .make 2) [firstOne, againTwo]) ∧
      (Run.final next (.make 2 (by decide), .make 2) [firstOne, firstTwo]).1.modifyFails
        againTwo.topic againTwo.ta := by
  constructor
  · intro halike
    exact absurd (halike 2 4) (by decide)
  · decide

end AliasTables

end AsyncMqtt
