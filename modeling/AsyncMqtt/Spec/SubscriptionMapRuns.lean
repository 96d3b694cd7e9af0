import AsyncMqtt.Spec.SubscriptionMapCorrect

/-!
# Runs of a subscription map

Calls to a `multiple_subscription_map` beside the same calls to a finite map from filters and keys to
values. The subscription map answers as the finite map does, until one of its counters has reached
its limit: after each such run, fewer than `CountStorage.max` levels of filters having been inserted,
every call succeeds. An erased filter does not give its node identifiers back, and so a long enough
run is refused although nothing is stored.

## Key results

- `MultipleSubscriptionMap.refines_finite_map`: every call after every run
- `MultipleSubscriptionMap.insert_refused`: the run that is refused
-/

namespace AsyncMqtt

namespace MultipleSubscriptionMap

open SubscriptionMapBase

variable {K V : Type} [DecidableEq K]

/-- A run of a subscription map beside a finite map, with the number of the levels that were
    inserted. A handle is valid as long as `lookup` gives it for a filter. -/
inductive Runs : MultipleSubscriptionMap K V → Stored K V → Nat → Prop
  | make : Runs SubscriptionMapBase.make ∅ 0
  | insertOrAssign {m m' s n f k v r} (hr : Runs m s n)
      (hcall : m.insertOrAssign f k v = .ok (r, m')) :
      Runs m' (s.insert (f, k) v) (n + (topicFilterTokens f).length)
  | insertOrAssignHandle {m m' s n f h k v r} (hr : Runs m s n) (hh : m.lookup f = some h)
      (hcall : m.insertOrAssignHandle h k v = .ok (r, m')) :
      Runs m' (s.insert (f, k) v) (n + 1)
  | erase {m s n} (hr : Runs m s n) (f : Buffer) (k : K) : Runs (m.erase f k).2 (s.erase (f, k)) n
  | eraseHandle {m m' s n f h k r} (hr : Runs m s n) (hh : m.lookup f = some h)
      (hcall : m.eraseHandle h k = .ok (r, m')) : Runs m' (s.erase (f, k)) n

variable {m m' : MultipleSubscriptionMap K V} {s : Stored K V} {f : Buffer} {h : PathEntryKey}
  {n : Nat}

/-- A handle stays valid as long as its filter has a node. -/
theorem lookup_stays {s' : Stored K V} (hm : Holds m s) (hm' : Holds m' s')
    (hext : Extends m m' ∨ Extends m' m) (hh : m.lookup f = some h) :
    m'.lookup f = some h ∨ m'.lookup f = none := by
  obtain ⟨hf, rfl⟩ := hm.lookup_iff.mp hh
  cases hlookup : m'.lookup f with
  | none => exact .inr rfl
  | some h' =>
    obtain ⟨hf', rfl⟩ := hm'.lookup_iff.mp hlookup
    rcases hext with hext | hext
    · exact .inl (congrArg some (hext _ hf).2)
    · exact .inl (congrArg some (hext _ hf').2.symm)

namespace Runs

theorem length_filters_insert (s : Stored K V) (f : Buffer) (k : K) (v : V) :
    (filters (s.insert (f, k) v)).length ≤ (filters s).length + 1 := by
  cases hlookup : s.lookup (f, k) with
  | none =>
    rw [filters_insert_of_none hlookup]
    exact Nat.le_refl _
  | some v' =>
    rw [(filters_insert_of_some (by rw [hlookup]; rfl) v).length_eq]
    exact Nat.le_succ _

theorem length_filters_erase (s : Stored K V) (f : Buffer) (k : K) :
    (filters (s.erase (f, k))).length ≤ (filters s).length := by
  cases hlookup : s.lookup (f, k) with
  | none => rw [filters_erase_of_none hlookup]
  | some v =>
    have hsome : (s.lookup (f, k)).isSome := by rw [hlookup]; rfl
    rw [(filters_erase_of_some hsome).length_eq]
    exact Nat.le_succ _

/-- After a run, the finite map is held, and what the counters have reached is known. -/
theorem holds (hr : Runs m s n) :
    Holds m s ∧ m.nextNodeId ≤ n + 2 ∧ (filters s).length ≤ n := by
  induction hr with
  | make => exact ⟨Holds.make, Nat.le_refl 2, Nat.le_refl 0⟩
  | @insertOrAssign m m' s n f k v r _ hcall ih =>
    obtain ⟨hm, hnext, hlen⟩ := ih
    have hpos := List.length_pos_of_ne_nil (topicFilterTokens_ne_nil f)
    have hlen' := length_filters_insert s f k v
    -- the ids grow with the levels of the filter, or the call throws
    rcases hm.insertOrAssign f k v with ⟨h, m₁, hok, hm₁, -, hnext₁, -⟩ | ⟨herror, -⟩
    · obtain ⟨-, rfl⟩ := Prod.mk.inj (Except.ok.inj (hok.symm.trans hcall))
      exact ⟨hm₁, by omega, by omega⟩
    · exact nomatch herror.symm.trans hcall
  | @insertOrAssignHandle m m' s n f h k v r _ hh hcall ih =>
    obtain ⟨hm, hnext, hlen⟩ := ih
    have hlen' := length_filters_insert s f k v
    rcases hm.insertOrAssignHandle hh k v with ⟨m₁, hok, hm₁, hnext₁, -⟩ | ⟨herror, -⟩
    · obtain ⟨-, rfl⟩ := Prod.mk.inj (Except.ok.inj (hok.symm.trans hcall))
      exact ⟨hm₁, by omega, by omega⟩
    · exact nomatch herror.symm.trans hcall
  -- erasing gives no id back
  | @erase m s n _ f k ih =>
    obtain ⟨hm, hnext, hlen⟩ := ih
    obtain ⟨-, hm', -, hnext'⟩ := hm.erase f k
    exact ⟨hm', by omega, (length_filters_erase s f k).trans hlen⟩
  | @eraseHandle m m' s n f h k r _ hh hcall ih =>
    obtain ⟨hm, hnext, hlen⟩ := ih
    obtain ⟨m₁, hok, hm₁, -, hnext₁⟩ := hm.eraseHandle hh k
    obtain ⟨-, rfl⟩ := Prod.mk.inj (Except.ok.inj (hok.symm.trans hcall))
    exact ⟨hm₁, by omega, (length_filters_erase s f k).trans hlen⟩

end Runs

/-- An insertion with a topic filter answers as the finite map does, or it is refused after so many
    levels that a counter may have reached its limit. -/
def Inserts (m : MultipleSubscriptionMap K V) (s : Stored K V) (n : Nat) : Prop :=
  ∀ f k v,
    (∃ h m', m.insertOrAssign f k v = .ok ((h, (s.lookup (f, k)).isNone), m') ∧
      m'.lookup f = some h) ∨
    (m.insertOrAssign f k v = .error .maxStoredTopics ∧
      CountStorage.max ≤ n + (topicFilterTokens f).length)

/-- An insertion with a valid handle, which stays valid -/
def InsertsHandle (m : MultipleSubscriptionMap K V) (s : Stored K V) (n : Nat) : Prop :=
  ∀ f h k v, m.lookup f = some h →
    (∃ m', m.insertOrAssignHandle h k v = .ok ((h, (s.lookup (f, k)).isNone), m') ∧
      m'.lookup f = some h) ∨
    (m.insertOrAssignHandle h k v = .error .maxStoredTopics ∧ CountStorage.max ≤ n + 1)

/-- An erasure removes what is stored, and is never refused. -/
def Erases (m : MultipleSubscriptionMap K V) (s : Stored K V) : Prop :=
  (∀ f k, (m.erase f k).1 = if (s.lookup (f, k)).isSome then 1 else 0) ∧
  ∀ f h k, m.lookup f = some h →
    ∃ m', m.eraseHandle h k = .ok (if (s.lookup (f, k)).isSome then 1 else 0, m')

/-- `lookup` knows the stored filters, and what begins one. -/
def LooksUp (m : MultipleSubscriptionMap K V) (s : Stored K V) : Prop :=
  ∀ f, (m.lookup f).isSome ↔ ∃ g ∈ filters s, topicFilterTokens f <+: g

/-- `find` calls back once for each pair whose filter matches. -/
def Finds (m : MultipleSubscriptionMap K V) (s : Stored K V) : Prop :=
  ∀ topic, NoWildcards (topicFilterTokens topic) →
    (m.find topic).Perm ((s.entries.filter fun i => topicFilterMatches false i.1.1 topic).map
      fun i => (i.1.2, i.2))

/-- A subscription map is a finite map from filters and keys to values. -/
theorem refines_finite_map (hr : Runs m s n) :
    Inserts m s n ∧ InsertsHandle m s n ∧ Erases m s ∧ LooksUp m s ∧ Finds m s ∧
      m.size = s.entries.length ∧ m.internalSize = 1 + (FlatTree.prefixes (filters s)).length ∧
      (s = ∅ → m.size = 0 ∧ m.internalSize = 1) := by
  obtain ⟨hm, hnext, hlen⟩ := hr.holds
  refine ⟨?_, ?_, ⟨?_, ?_⟩, ?_, ?_, hm.size_eq, hm.internalSize_eq, ?_⟩
  · intro f k v
    rcases hm.insertOrAssign f k v with ⟨h, m', hok, -, hh, -⟩ | ⟨herror, hlimit⟩
    · exact .inl ⟨h, m', hok, hh⟩
    · refine .inr ⟨herror, ?_⟩
      have hmax : CountStorage.max + 2 ≤ sizeMax := by decide
      omega
  · intro f h k v hh
    rcases hm.insertOrAssignHandle hh k v with ⟨m', hok, hm', -, hext⟩ | ⟨herror, hlimit⟩
    · obtain ⟨hf, rfl⟩ := hm.lookup_iff.mp hh
      exact .inl ⟨m', hok, hm'.lookup_iff.mpr ((hext _ hf).imp_right Eq.symm)⟩
    · exact .inr ⟨herror, hlimit.trans (hlen.trans (Nat.le_succ n))⟩
  · exact fun f k => (hm.erase f k).1
  · intro f h k hh
    obtain ⟨m', hok, -⟩ := hm.eraseHandle hh k
    exact ⟨m', hok⟩
  · exact fun f => hm.isSome_lookup
  · exact fun topic hts => hm.perm_find hts
  · rintro rfl
    exact ⟨hm.size_eq, hm.internalSize_eq⟩

/-- A filter with a `+` is stored, and another key for it through the handle. -/
theorem refines_finite_map_plus :
    ∃ (m : MultipleSubscriptionMap Nat Nat) (s : Stored Nat Nat),
      s.entries.length = 2 ∧ Finds m s ∧ m.internalSize = 3 := by
  have hr := Runs.insertOrAssignHandle (f := [0x61, 0x2f, 0x2b]) (h := (3, plusLevel)) (k := 1)
    (v := 8) (Runs.insertOrAssign (f := [0x61, 0x2f, 0x2b]) (k := 0) (v := 7) .make rfl) rfl rfl
  have hspec := refines_finite_map hr
  exact ⟨_, _, rfl, hspec.2.2.2.2.1, hspec.2.2.2.2.2.2.1⟩

/-! ### The run that is refused -/

/-- The map in which nothing is stored, after some identifiers have been given away. -/
def emptyAt (n : Nat) : MultipleSubscriptionMap Nat Nat :=
  { SubscriptionMapBase.make with nextNodeId := n }

/-- A filter that is inserted and erased leaves nothing, but its identifier is lost. -/
theorem emptyAt_succ {n : Nat} (hn : n ≠ sizeMax) :
    ∃ r m', (emptyAt n).insertOrAssign [0x61] 0 0 = .ok (r, m') ∧
      (m'.erase [0x61] 0).2 = emptyAt (n + 1) := by
  have hid : (emptyAt n).generateNodeId = .ok (n + 1, emptyAt (n + 1)) := if_neg hn
  have hcreate : (emptyAt n).createTopicFilter [0x61] = .ok ([(1, [0x61])],
      { emptyAt (n + 1) with
        map := (emptyAt n).map.insert (1, [0x61]) ⟨n + 1, rootKey, ⟨1, false, false⟩, default⟩
      }.modify rootKey (setChildFlags [0x61])) := by
    show createLevels rootKey rootNodeId [[0x61]] (emptyAt n) = _
    have hnone : (emptyAt n).map.lookup (rootNodeId, [0x61]) = none := rfl
    rw [createLevels, hnone]
    dsimp only
    rw [hid]
    rfl
  refine ⟨((1, [0x61]), true), ?_⟩
  have hpath : (emptyAt n).findTopicFilter [0x61] = [] := rfl
  unfold MultipleSubscriptionMap.insertOrAssign
  rw [hpath]
  dsimp only [List.getLast?_nil]
  rw [hcreate]
  exact ⟨_, rfl, rfl⟩

theorem runs_emptyAt {n : Nat} (hn : n + 2 ≤ sizeMax) : Runs (emptyAt (n + 2)) ∅ n := by
  induction n with
  | zero => exact .make
  | succ n ih =>
    obtain ⟨r, m', hok, herase⟩ := emptyAt_succ (n := n + 2) (by omega)
    have hr := (Runs.insertOrAssign (ih (by omega)) hok).erase [0x61] 0
    rw [herase] at hr
    exact hr

/-- The identifiers are used up, although nothing is stored. -/
theorem insert_refused : ∃ (m : MultipleSubscriptionMap Nat Nat) (n : Nat), Runs m ∅ n ∧
    m.insertOrAssign [0x61] 0 0 = .error .maxStoredTopics :=
  ⟨emptyAt (sizeMax - 2 + 2), sizeMax - 2, runs_emptyAt (by decide), rfl⟩

end MultipleSubscriptionMap

end AsyncMqtt
