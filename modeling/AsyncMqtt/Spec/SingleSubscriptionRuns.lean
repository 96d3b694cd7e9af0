import AsyncMqtt.Spec.SingleSubscriptionMap

/-!
# Runs of a subscription map with single values

Calls to a `single_subscription_map` beside the same calls to a finite map from filters to values. A
filter that begins another stored one has an entry already: an insertion there counts nothing, and an
erasure leaves the value. As long as no call does so, the answers are those of the finite map, and the
first call that does so spoils them.

## Key results

- `SingleSubscriptionMap.Step.holds`, `SingleSubscriptionMap.Step.spoils`: one call
- `SingleSubscriptionMap.refines_iff`: the calls after which the finite map is refined
- `SingleSubscriptionMap.inner_filters_lost`: two runs after which it is not
-/

namespace AsyncMqtt

namespace SingleSubscriptionMap

open SubscriptionMapBase

variable {V : Type} {m m' : SingleSubscriptionMap V} {s s' : Stored V} {f : Buffer} {n : Nat}

/-- A call -/
inductive Call (V : Type) where
  | insert (f : Buffer) (v : V)
  | update (f : Buffer) (v : V)
  | updateHandle (h : PathEntryKey) (v : V)
  | erase (f : Buffer)
  | eraseHandle (h : PathEntryKey)

/-- The levels that a call may create -/
def Call.levels : Call V → Nat
  | .insert f _ => (topicFilterTokens f).length
  | _ => 0

/-- A call that returns, beside the same call to the finite map, which keeps its value when a stored
    filter is inserted, and refuses to update one that is not stored. A handle is one that `insert`
    has returned for a stored filter. -/
inductive Step : SingleSubscriptionMap V → Stored V → Call V → SingleSubscriptionMap V → Stored V →
    Prop
  | insertNew {m m' : SingleSubscriptionMap V} {s : Stored V} {f : Buffer} {v : V}
      {h : PathEntryKey} {r : Bool} (hf : s.lookup f = none)
      (hcall : m.insert f v = .ok ((h, r), m')) : Step m s (.insert f v) m' (s.insert f (h, v))
  | insertOld {m m' : SingleSubscriptionMap V} {s : Stored V} {f : Buffer} {v : V}
      {r : PathEntryKey × Bool} (hf : (s.lookup f).isSome) (hcall : m.insert f v = .ok (r, m')) :
      Step m s (.insert f v) m' s
  | update {m m' : SingleSubscriptionMap V} {s : Stored V} {f : Buffer} {h : PathEntryKey} {v w : V}
      (hf : s.lookup f = some (h, w)) (hcall : m.update f v = .ok m') :
      Step m s (.update f v) m' (s.insert f (h, v))
  | updateMissing {m m' : SingleSubscriptionMap V} {s : Stored V} {f : Buffer} {v : V}
      (hf : s.lookup f = none) (hcall : m.update f v = .ok m') : Step m s (.update f v) m' s
  | updateHandle {m m' : SingleSubscriptionMap V} {s : Stored V} {f : Buffer} {h : PathEntryKey}
      {v w : V} (hf : s.lookup f = some (h, w)) (hcall : m.updateHandle h v = .ok m') :
      Step m s (.updateHandle h v) m' (s.insert f (h, v))
  | erase {m : SingleSubscriptionMap V} {s : Stored V} (f : Buffer) :
      Step m s (.erase f) (m.erase f).2 (s.erase f)
  | eraseHandle {m m' : SingleSubscriptionMap V} {s : Stored V} {f : Buffer} {h : PathEntryKey}
      {v : V} {r : Nat} (hf : s.lookup f = some (h, v)) (hcall : m.eraseHandle h = .ok (r, m')) :
      Step m s (.eraseHandle h) m' (s.erase f)

/-- A filter that begins another stored one is neither inserted or updated, unless it is stored, nor
    erased, unless it is not. -/
def Meets (s : Stored V) : Call V → Prop
  | .insert f _ | .update f _ => (s.lookup f).isSome ∨ ¬ Begins s f
  | .updateHandle _ _ => True
  | .erase f => s.lookup f = none ∨ ¬ Begins s f
  | .eraseHandle h => ∀ f v, s.lookup f = some (h, v) → ¬ Begins s f

/-- A run of calls that meet the condition, with the number of the levels that were inserted -/
inductive Runs : SingleSubscriptionMap V → Stored V → Nat → Prop
  | make : Runs SubscriptionMapBase.make ∅ 0
  | step {m m' : SingleSubscriptionMap V} {s s' : Stored V} {n : Nat} {c : Call V}
      (hr : Runs m s n) (hstep : Step m s c m' s') (hc : Meets s c) : Runs m' s' (n + c.levels)

/-! ### One call -/

namespace Holds

/-- Different filters have different handles. -/
theorem handle_inj {g : Buffer} {h : PathEntryKey} {v w : V} (hm : Holds m s)
    (hf : s.lookup f = some (h, v)) (hg : s.lookup g = some (h, w)) : f = g := by
  obtain ⟨A, hA, -⟩ := hm.exists_represents
  have hfnode := hm.isSome_node_of_eq hf
  have hgnode := hm.isSome_node_of_eq hg
  apply topicFilterTokens_injective
  apply hA.keyAt_inj hfnode hgnode
  rw [hm.handle f h v hf, hm.handle g h w hg]

/-- `update` of a filter with an entry -/
theorem update_of_node (hm : Holds m s) (hf : (m.node (topicFilterTokens f)).isSome) (v : V) :
    m.update f v = .ok (emplaceAt (m.keyAt (topicFilterTokens f)) v m) := by
  unfold SingleSubscriptionMap.update
  rw [hm.getLast?_find, if_pos hf]

/-- `update` of a stored filter -/
theorem update_eq {h : PathEntryKey} {w : V} (hm : Holds m s) (hf : s.lookup f = some (h, w))
    (v : V) : m.update f v = .ok (emplaceAt h v m) := by
  have hnode := hm.isSome_node_of_eq hf
  rw [hm.update_of_node hnode, hm.handle f h w hf]

/-- `update` of a filter without an entry is refused. -/
theorem update_error (hm : Holds m s) (hf : s.lookup f = none) (hnot : ¬ Begins s f) (v : V) :
    m.update f v = .error .invalidTopicFilter := by
  have hnode : ¬ (m.node (topicFilterTokens f)).isSome := by
    rw [hm.isSome_node, hf]
    rintro (hsome | hbegins)
    · exact nomatch hsome
    · exact hnot hbegins
  unfold SingleSubscriptionMap.update
  rw [hm.getLast?_find, if_neg hnode]

/-- `update` with a handle -/
theorem updateHandle_eq {h : PathEntryKey} {w : V} (hm : Holds m s)
    (hf : s.lookup f = some (h, w)) (v : V) : m.updateHandle h v = .ok (emplaceAt h v m) := by
  obtain ⟨A, hA, -⟩ := hm.exists_represents
  have hnode := hm.isSome_node_of_eq hf
  obtain ⟨e, he⟩ := Option.isSome_iff_exists.mp hnode
  have hlookup := hA.lookup_keyAt he
  rw [hm.handle f h w hf] at hlookup
  unfold SingleSubscriptionMap.updateHandle
  rw [hlookup, Option.isNone_some, if_neg Bool.false_ne_true]

end Holds

namespace Step

variable {c : Call V}

/-- A call that meets the condition -/
theorem holds (hm : Holds m s) (hstep : Step m s c m' s') (hc : Meets s c) :
    Holds m' s' ∧ m'.nextNodeId ≤ m.nextNodeId + c.levels := by
  cases hstep with
  -- the new filter begins no other one, so its levels are created
  | @insertNew _ _ f v h r hf hcall =>
    have hnot : ¬ Begins s f := hc.resolve_left (by rw [hf]; exact Bool.false_ne_true)
    rcases hm.insert_new hf hnot v with ⟨h', m₁, hok, hm₁, hnext⟩ | ⟨herror, -⟩
    · obtain ⟨hr, rfl⟩ := Prod.mk.inj (Except.ok.inj (hok.symm.trans hcall))
      obtain ⟨rfl, -⟩ := Prod.mk.inj hr
      exact ⟨hm₁, hnext⟩
    · exact nomatch herror.symm.trans hcall
  -- an old filter keeps its entry
  | @insertOld _ _ f v r hf hcall =>
    obtain ⟨⟨h, w⟩, hlookup⟩ := Option.isSome_iff_exists.mp hf
    have hok := hm.insert_old hlookup v
    obtain ⟨-, rfl⟩ := Prod.mk.inj (Except.ok.inj (hok.symm.trans hcall))
    exact ⟨hm, Nat.le_add_right _ _⟩
  | update hf hcall =>
    obtain rfl := Except.ok.inj ((hm.update_eq hf _).symm.trans hcall)
    obtain ⟨hm', hnext⟩ := hm.emplace hf _
    exact ⟨hm', hnext.le⟩
  | updateMissing hf hcall =>
    have hnot := hc.resolve_left (by rw [hf]; exact Bool.false_ne_true)
    exact nomatch (hm.update_error hf hnot _).symm.trans hcall
  | updateHandle hf hcall =>
    obtain rfl := Except.ok.inj ((hm.updateHandle_eq hf _).symm.trans hcall)
    obtain ⟨hm', hnext⟩ := hm.emplace hf _
    exact ⟨hm', hnext.le⟩
  | erase f =>
    rw [hm.erase_eq f]
    cases hlookup : s.lookup f with
    | none =>
      rw [AList.erase_of_none hlookup]
      -- without an entry nothing is erased
      exact ⟨hm, Nat.le_add_right _ _⟩
    | some i =>
      have hnot : ¬ Begins s f := hc.resolve_left (by rw [hlookup]; exact Option.some_ne_none i)
      obtain ⟨hm', hnext⟩ := hm.removed hlookup hnot
      exact ⟨hm', hnext.le⟩
  | eraseHandle hf hcall =>
    obtain ⟨-, rfl⟩ := Prod.mk.inj (Except.ok.inj ((hm.eraseHandle_eq hf).symm.trans hcall))
    obtain ⟨hm', hnext⟩ := hm.removed hf (hc _ _ hf)
    exact ⟨hm', hnext.le⟩

/-- The finite map grows by less than the levels of the call. -/
theorem length_le (hstep : Step m s c m' s') :
    s'.entries.length ≤ s.entries.length + c.levels := by
  have hinsert : ∀ (f : Buffer) (h : PathEntryKey) (v : V), (s.lookup f).isSome →
      (s.insert f (h, v)).entries.length = s.entries.length := by
    intro f h v hf
    rw [AList.length_insert, if_neg (by simpa [Option.isSome_iff_ne_none] using hf), Nat.add_zero]
  have herase : ∀ f, (s.erase f).entries.length ≤ s.entries.length := by
    intro f
    rw [AList.length_erase]
    exact Nat.sub_le _ _
  cases hstep with
  | @insertNew _ _ f v h r hf hcall =>
    have hpos := List.length_pos_of_ne_nil (topicFilterTokens_ne_nil f)
    rw [AList.length_insert, hf, Option.isNone_none, if_pos rfl]
    exact Nat.add_le_add_left hpos _
  | insertOld => exact Nat.le_add_right _ _
  | update hf => exact (hinsert _ _ _ (isSome_of_eq hf)).le
  | updateMissing => exact Nat.le_refl _
  | updateHandle hf => exact (hinsert _ _ _ (isSome_of_eq hf)).le
  | erase f => exact herase f
  | @eraseHandle _ _ f => exact herase f

end Step

/-- After a run, the finite map is held, and what the counters have reached is known. -/
theorem Runs.holds (hr : Runs m s n) :
    Holds m s ∧ m.nextNodeId ≤ n + 2 ∧ s.entries.length ≤ n := by
  induction hr with
  | make => exact ⟨Holds.make, Nat.le_refl 2, Nat.le_refl 0⟩
  | step _ hstep hc ih =>
    obtain ⟨hm, hnext, hlen⟩ := ih
    obtain ⟨hm', hnext'⟩ := hstep.holds hm hc
    have hlen' := hstep.length_le
    exact ⟨hm', by omega, by omega⟩

/-! ### Every call -/

/-- The map answers as the finite map does. An insertion is refused only after so many levels that a
    counter may have reached its limit. -/
structure Refines (m : SingleSubscriptionMap V) (s : Stored V) (n : Nat) : Prop where
  size : m.size = s.entries.length
  find : ∀ topic, NoWildcards (topicFilterTokens topic) →
    (m.find topic).Perm ((s.entries.filter fun i => topicFilterMatches false i.1 topic).map
      fun i => i.2.2)
  handle : ∀ f h v, s.lookup f = some (h, v) → m.lookup f = some h
  insert : ∀ f v,
    (∃ h m', m.insert f v = .ok ((h, (s.lookup f).isNone), m') ∧
      ∀ i, s.lookup f = some i → h = i.1) ∨
    (m.insert f v = .error .maxStoredTopics ∧
      CountStorage.max ≤ n + (topicFilterTokens f).length)
  update : ∀ f v, (s.lookup f).isSome → ∃ m', m.update f v = .ok m'
  updateMissing : ∀ f v, s.lookup f = none → ¬ Begins s f →
    m.update f v = .error .invalidTopicFilter
  updateHandle : ∀ f h v w, s.lookup f = some (h, w) → ∃ m', m.updateHandle h v = .ok m'
  erase : ∀ f, (m.erase f).1 = if (s.lookup f).isSome then 1 else 0
  eraseHandle : ∀ f h v, s.lookup f = some (h, v) → ∃ m', m.eraseHandle h = .ok (1, m')

theorem Runs.refines (hr : Runs m s n) : Refines m s n := by
  obtain ⟨hm, hnext, hlen⟩ := hr.holds
  refine ⟨hm.size_eq, fun _ => hm.perm_find, fun f h v => hm.lookup_handle, ?_, ?_, ?_, ?_, ?_, ?_⟩
  · intro f v
    cases hlookup : s.lookup f with
    | some i =>
      refine .inl ⟨i.1, m, hm.insert_old hlookup v, fun j hj => ?_⟩
      rw [Option.some.inj hj]
    | none =>
      by_cases hf : Begins s f
      · exact .inl ⟨_, _, hm.insert_inner hlookup hf v, nofun⟩
      · rcases hm.insert_new hlookup hf v with ⟨h, m', hok, -⟩ | ⟨herror, hlimit⟩
        · exact .inl ⟨h, m', hok, nofun⟩
        · refine .inr ⟨herror, ?_⟩
          have hmax : CountStorage.max + 2 ≤ sizeMax := by decide
          rw [length_keyLevels] at hlimit
          omega
  · intro f v hf
    obtain ⟨i, hi⟩ := Option.isSome_iff_exists.mp hf
    exact ⟨_, hm.update_eq hi v⟩
  · exact fun f v hf hnot => hm.update_error hf hnot v
  · exact fun f h v w hf => ⟨_, hm.updateHandle_eq hf v⟩
  · intro f
    rw [hm.erase_eq f]
    split <;> rfl
  · exact fun f h v hf => ⟨_, hm.eraseHandle_eq hf⟩

namespace Step

variable {c : Call V}

/-- A value that is left over is erased although its filter is not stored. -/
theorem not_refines_of_value {S : List (List Buffer)} {A : List Buffer → Option V} {v : V}
    (hA : Represents m S A) (hvalue : A (topicFilterTokens f) = some v)
    (hf : s.lookup f = none) : ¬ Refines m s n := by
  intro h
  have herase := h.erase f
  rw [SingleSubscriptionMap.erase_eq hA, hvalue, hf, Option.isSome_some, if_pos rfl] at herase
  exact nomatch herase

/-- A call that does not meet the condition spoils what the map answers. -/
theorem spoils (hm : Holds m s) (hstep : Step m s c m' s') (hc : ¬ Meets s c) :
    ¬ Refines m' s' n := by
  cases hstep with
  | @insertNew _ _ f v h r hf hcall =>
    have hinner : Begins s f := by
      by_contra hnot
      exact hc (.inr hnot)
    have hnode := hm.isSome_node.mpr (.inr hinner)
    have hok := hm.insert_inner hf hinner v
    obtain ⟨-, rfl⟩ := Prod.mk.inj (Except.ok.inj (hok.symm.trans hcall))
    -- the filter is stored, but it is not counted
    obtain ⟨A, hA, -⟩ := hm.exists_represents
    obtain ⟨-, -, hsize, -⟩ := emplaceAt_represents hA hnode v
    intro hrefines
    have hlen := hrefines.size
    have hlen₀ : m.mapSize = s.entries.length := hm.size_eq
    rw [size, hsize, AList.length_insert, hf, Option.isNone_none, if_pos rfl] at hlen
    omega
  | insertOld hf hcall => exact absurd (.inl hf) hc
  | update hf hcall => exact absurd (.inl (isSome_of_eq hf)) hc
  | @updateMissing _ _ f v hf hcall =>
    have hinner : Begins s f := by
      by_contra hnot
      exact hc (.inr hnot)
    have hnode := hm.isSome_node.mpr (.inr hinner)
    obtain rfl := Except.ok.inj ((hm.update_of_node hnode v).symm.trans hcall)
    -- there is a value, but nothing is stored
    obtain ⟨A, hA, -⟩ := hm.exists_represents
    obtain ⟨hA', -⟩ := emplaceAt_represents hA hnode v
    exact not_refines_of_value hA' (Function.update_self ..) hf
  | updateHandle => exact absurd trivial hc
  | erase f =>
    obtain ⟨hsome, hinner⟩ := not_or.mp hc
    obtain ⟨⟨h, v⟩, hf⟩ := Option.ne_none_iff_exists'.mp hsome
    obtain ⟨A, hA, hvalue⟩ := hm.removed_inner hf (not_not.mp hinner)
    rw [hm.erase_eq f, if_pos (isSome_of_eq hf)]
    exact not_refines_of_value hA hvalue (AList.lookup_erase f s)
  | @eraseHandle _ _ f h v r hf hcall =>
    have hinner : Begins s f := by
      by_contra hnot
      refine hc fun g w hg => ?_
      -- the handle belongs to one filter
      obtain rfl := hm.handle_inj hf hg
      exact hnot
    obtain ⟨-, rfl⟩ := Prod.mk.inj (Except.ok.inj ((hm.eraseHandle_eq hf).symm.trans hcall))
    obtain ⟨A, hA, hvalue⟩ := hm.removed_inner hf hinner
    exact not_refines_of_value hA hvalue (AList.lookup_erase f s)

end Step

/-- After a run of calls that meet the condition, the finite map is refined, and it is still refined
    after one more call if and only if this call meets the condition, too. -/
theorem refines_iff (hr : Runs m s n) :
    Refines m s n ∧ ∀ c m' s', Step m s c m' s' → (Refines m' s' (n + c.levels) ↔ Meets s c) := by
  refine ⟨hr.refines, fun c m' s' hstep => ⟨fun hrefines => ?_, fun hc => ?_⟩⟩
  · by_contra hc
    exact hstep.spoils hr.holds.1 hc hrefines
  · exact (Runs.step hr hstep hc).refines

/-- A filter is stored, and then one that it begins. -/
theorem refines_iff_extension : ∃ (m : SingleSubscriptionMap Nat) (s : Stored Nat) (n : Nat),
    s.entries.length = 2 ∧ Refines m s n ∧
      (Refines (m.erase [0x61]).2 (s.erase [0x61]) n ↔ Meets s (.erase [0x61])) := by
  have hr := Runs.step (Runs.step .make (.insertNew (f := [0x61]) (v := 1) rfl rfl)
    (.inr (by unfold Begins; decide))) (.insertNew (f := [0x61, 0x2f, 0x62]) (v := 2) rfl rfl)
    (.inr (by unfold Begins; decide))
  have hspec := refines_iff hr
  exact ⟨_, _, _, rfl, hspec.1, hspec.2 _ _ _ (.erase [0x61])⟩

/-- The filter `a/b` is stored, and then `a`: both are stored, but the size is one, and when `a` is
    erased, `a/b` is not found any more. If `a` is stored before `a/b`, it is still found after it has
    been erased. -/
theorem inner_filters_lost :
    (∃ (r r' : PathEntryKey) (m₁ m₂ : SingleSubscriptionMap Nat),
      insert [0x61, 0x2f, 0x62] 1 SubscriptionMapBase.make = .ok ((r, true), m₁) ∧
      m₁.insert [0x61] 2 = .ok ((r', true), m₂) ∧ m₂.size = 1 ∧ (m₂.erase [0x61]).1 = 1 ∧
      m₂.find [0x61, 0x2f, 0x62] = [1] ∧ (m₂.erase [0x61]).2.find [0x61, 0x2f, 0x62] = []) ∧
    ∃ (r r' : PathEntryKey) (m₁ m₂ : SingleSubscriptionMap Nat),
      insert [0x61] 1 SubscriptionMapBase.make = .ok ((r, true), m₁) ∧
      m₁.insert [0x61, 0x2f, 0x62] 2 = .ok ((r', true), m₂) ∧ (m₂.erase [0x61]).1 = 1 ∧
      (m₂.erase [0x61]).2.find [0x61] = [1] :=
  ⟨⟨_, _, _, _, rfl, rfl, rfl, rfl, rfl, rfl⟩, _, _, _, _, rfl, rfl, rfl, rfl⟩

end SingleSubscriptionMap

end AsyncMqtt
