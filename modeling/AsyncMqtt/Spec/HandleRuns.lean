import AsyncMqtt.Spec.HandleNames

/-!
# Handles after any calls

Every call to a subscription map keeps the links of its entries, with any handle that is passed, and
also when it throws. So `handle_to_topic_filter` gives the filter back, but for empty levels at its
end.

## Key results

- `SingleSubscriptionMap.Reached.linked`, `MultipleSubscriptionMap.Reached.linked`: any calls
- `SubscriptionMapBase.handles_name_iff`: what handles name
- `SubscriptionMapBase.handle_loses_last_level`: a handle that names another filter
-/

namespace AsyncMqtt

open SubscriptionMapBase

namespace SubscriptionMapBase

variable {V : Type} {m m' : SubscriptionMapBase V} {f : Buffer} {path : List PathEntryKey}
  {h : PathEntryKey}

/-- The size of the map does not count in the nodes. -/
theorem Restricts.setMapSize (m : SubscriptionMapBase V) (n : Nat) :
    Restricts m { m with mapSize := n } :=
  ⟨rfl, id, fun _ e he => ⟨e, he, rfl, rfl⟩⟩

/-- The size of the map is counted. -/
theorem Restricts.increaseMapSize (hcall : m.increaseMapSize = .ok m') : Restricts m m' := by
  unfold SubscriptionMapBase.increaseMapSize at hcall
  split at hcall
  · exact nomatch hcall
  · obtain rfl := Except.ok.inj hcall
    exact .setMapSize m _

namespace Linked

/-- Creating a filter keeps the nodes linked. -/
theorem createTopicFilter [Inhabited V] (hm : Linked m)
    (hcall : m.createTopicFilter f = .ok (path, m')) : Linked m' :=
  hm.createLevels_root hcall

/-- `remove_topic_filter` with the path of a filter -/
theorem removeTopicFilter (hm : Linked m) (hpath : rootKey ∉ path) :
    Linked (m.removeTopicFilter path) :=
  (Restricts.removeEntries (by simpa using hpath)).linked hm

/-- The way up from a handle is a path that can be taken away. -/
theorem rootKey_notMem_handleToIterators (hcall : m.handleToIterators h = .ok path) :
    rootKey ∉ path.reverse := by
  simpa using rootKey_notMem_handleToPath hcall

end Linked

end SubscriptionMapBase

/-! ### Calls -/

namespace SingleSubscriptionMap

variable {V : Type} {m m' : SingleSubscriptionMap V} {path : List PathEntryKey}

/-- What any calls lead to, with any handles. An insertion that throws leaves the first levels of its
    filter, or the entry of the filter with the value. -/
inductive Reached : SingleSubscriptionMap V → Prop
  | make : Reached SubscriptionMapBase.make
  | insert {m m' : SingleSubscriptionMap V} {f : Buffer} {v : V} {r : PathEntryKey × Bool}
      (hr : Reached m) (hcall : m.insert f v = .ok (r, m')) : Reached m'
  | created {m m' : SingleSubscriptionMap V} {f : Buffer} {ts : List Buffer}
      {path : List PathEntryKey} (hr : Reached m) (hts : ts <+: topicFilterTokens f)
      (hcall : createLevels rootKey rootNodeId ts m = .ok (path, m')) : Reached m'
  | emplaced {m m' : SingleSubscriptionMap V} {f : Buffer} {path : List PathEntryKey} (v : V)
      (hr : Reached m) (hcall : m.createTopicFilter f = .ok (path, m')) :
      Reached (emplaceAt (path.getLastD rootKey) v m')
  | update {m m' : SingleSubscriptionMap V} {f : Buffer} {v : V} (hr : Reached m)
      (hcall : m.update f v = .ok m') : Reached m'
  | updateHandle {m m' : SingleSubscriptionMap V} {h : PathEntryKey} {v : V} (hr : Reached m)
      (hcall : m.updateHandle h v = .ok m') : Reached m'
  | erase {m : SingleSubscriptionMap V} (hr : Reached m) (f : Buffer) : Reached (m.erase f).2
  | eraseHandle {m m' : SingleSubscriptionMap V} {h : PathEntryKey} {r : Nat} (hr : Reached m)
      (hcall : m.eraseHandle h = .ok (r, m')) : Reached m'

/-- Emplacing a value leaves the nodes. -/
theorem restricts_emplaceAt (iter : PathEntryKey) (v : V) (m : SingleSubscriptionMap V) :
    Restricts m (emplaceAt iter v m) := by
  apply Restricts.modify
  exact fun _ => ⟨rfl, rfl⟩

/-- Erasing a path keeps the nodes linked. -/
theorem linked_erasePath (hm : Linked m) (hpath : rootKey ∉ path) : Linked (m.erasePath path).2 := by
  unfold erasePath
  split
  · exact hm
  · split
    · exact (Restricts.setMapSize _ _).linked (hm.removeTopicFilter hpath)
    · exact hm

/-- An insertion keeps the nodes linked. -/
theorem linked_insert {f : Buffer} {v : V} {r : PathEntryKey × Bool} (hm : Linked m)
    (hcall : m.insert f v = .ok (r, m')) : Linked m' := by
  unfold insert at hcall
  dsimp only at hcall
  split at hcall
  · split at hcall
    · obtain ⟨-, rfl⟩ := Prod.mk.inj (Except.ok.inj hcall)
      exact hm
    · obtain ⟨-, rfl⟩ := Prod.mk.inj (Except.ok.inj hcall)
      exact (restricts_emplaceAt _ v m).linked hm
  · obtain ⟨⟨path, m₁⟩, hcreate, hcall⟩ := Except.bind_eq_ok.mp hcall
    obtain ⟨m₂, hsize, hcall⟩ := Except.bind_eq_ok.mp hcall
    obtain ⟨-, rfl⟩ := Prod.mk.inj (Except.ok.inj hcall)
    have hm₁ := hm.createTopicFilter hcreate
    exact (Restricts.increaseMapSize hsize).linked ((restricts_emplaceAt _ v m₁).linked hm₁)

/-- An erasure by handle keeps the nodes linked. -/
theorem linked_eraseHandle {h : PathEntryKey} {r : Nat} (hm : Linked m)
    (hcall : m.eraseHandle h = .ok (r, m')) : Linked m' := by
  obtain ⟨path, hpath, hcall⟩ := Except.bind_eq_ok.mp hcall
  have herase : (m.erasePath path.reverse).2 = m' := congrArg Prod.snd (Except.ok.inj hcall)
  rw [← herase]
  exact linked_erasePath hm (Linked.rootKey_notMem_handleToIterators hpath)

/-- Any calls keep the links. -/
theorem Reached.linked (hr : Reached m) : Linked m := by
  induction hr with
  -- each call changes the map by calls that keep it linked
  | make => exact Linked.make
  | insert _ hcall ih => exact linked_insert ih hcall
  | created _ _ hcall ih => exact ih.createLevels_root hcall
  | emplaced v _ hcall ih =>
    exact (restricts_emplaceAt _ v _).linked (ih.createTopicFilter hcall)
  | update _ hcall ih =>
    unfold SingleSubscriptionMap.update at hcall
    split at hcall
    · exact nomatch hcall
    · obtain rfl := Except.ok.inj hcall
      exact (restricts_emplaceAt _ _ _).linked ih
  | updateHandle _ hcall ih =>
    unfold SingleSubscriptionMap.updateHandle at hcall
    split at hcall
    · exact nomatch hcall
    · obtain rfl := Except.ok.inj hcall
      exact (restricts_emplaceAt _ _ _).linked ih
  | erase _ f ih => exact linked_erasePath ih (ih.rootKey_notMem_findTopicFilter f)
  | eraseHandle _ hcall ih => exact linked_eraseHandle ih hcall

end SingleSubscriptionMap

namespace MultipleSubscriptionMap

variable {K V : Type} [DecidableEq K] {m m' : MultipleSubscriptionMap K V}

/-- What any calls lead to, with any handles. An insertion that throws leaves the first levels of its
    filter, or the entry of the filter with the value, perhaps counted at some entries. An erasure
    that throws has erased the value. -/
inductive Reached : MultipleSubscriptionMap K V → Prop
  | make : Reached SubscriptionMapBase.make
  | insertOrAssign {m m' : MultipleSubscriptionMap K V} {f : Buffer} {k : K} {v : V}
      {r : PathEntryKey × Bool} (hr : Reached m) (hcall : m.insertOrAssign f k v = .ok (r, m')) :
      Reached m'
  | insertOrAssignHandle {m m' : MultipleSubscriptionMap K V} {h : PathEntryKey} {k : K} {v : V}
      {r : PathEntryKey × Bool} (hr : Reached m)
      (hcall : m.insertOrAssignHandle h k v = .ok (r, m')) : Reached m'
  | created {m m' : MultipleSubscriptionMap K V} {f : Buffer} {ts : List Buffer}
      {path : List PathEntryKey} (hr : Reached m) (hts : ts <+: topicFilterTokens f)
      (hcall : createLevels rootKey rootNodeId ts m = .ok (path, m')) : Reached m'
  | assigned {m m' : MultipleSubscriptionMap K V} {f : Buffer} {path : List PathEntryKey} (k : K)
      (v : V) (hr : Reached m) (hcall : m.createTopicFilter f = .ok (path, m')) :
      Reached (assignAt (path.getLastD rootKey) k v m').2
  | counted {m m' : MultipleSubscriptionMap K V} {h : PathEntryKey} {k : K} {v : V}
      {keys : List PathEntryKey} (hr : Reached m)
      (hcall : (assignAt h k v m).2.increaseSubscriptions keys = .ok m') : Reached m'
  | erase {m : MultipleSubscriptionMap K V} (hr : Reached m) (f : Buffer) (k : K) :
      Reached (m.erase f k).2
  | eraseHandle {m m' : MultipleSubscriptionMap K V} {h : PathEntryKey} {k : K} {r : Nat}
      (hr : Reached m) (hcall : m.eraseHandle h k = .ok (r, m')) : Reached m'
  | erased {m : MultipleSubscriptionMap K V} (hr : Reached m) (h : PathEntryKey) (k : K) :
      Reached (eraseAt h k m).2

/-- Assigning a value leaves the nodes. -/
theorem restricts_assignAt (iter : PathEntryKey) (k : K) (v : V) (m : MultipleSubscriptionMap K V) :
    Restricts m (assignAt iter k v m).2 := by
  apply Restricts.modify
  exact fun _ => ⟨rfl, rfl⟩

/-- Erasing a value leaves the nodes. -/
theorem restricts_eraseAt (iter : PathEntryKey) (k : K) (m : MultipleSubscriptionMap K V) :
    Restricts m (eraseAt iter k m).2 := by
  apply Restricts.modify
  exact fun _ => ⟨rfl, rfl⟩

/-- A value that is new is counted along a path. -/
theorem linked_addCount {path : List PathEntryKey} {r r' : PathEntryKey × Bool} (hm : Linked m)
    (hcall : (do
      let m ← m.increaseSubscriptions path
      let m ← m.increaseMapSize
      .ok (r, m)) = .ok (r', m')) : Linked m' := by
  obtain ⟨m₁, hcount, hcall⟩ := Except.bind_eq_ok.mp hcall
  obtain ⟨m₂, hsize, hcall⟩ := Except.bind_eq_ok.mp hcall
  obtain ⟨-, rfl⟩ := Prod.mk.inj (Except.ok.inj hcall)
  exact (Restricts.increaseMapSize hsize).linked ((Restricts.increaseSubscriptions hcount).linked hm)

/-- An assignment keeps the nodes linked. -/
theorem linked_insertOrAssign {f : Buffer} {k : K} {v : V} {r : PathEntryKey × Bool}
    (hm : Linked m) (hcall : m.insertOrAssign f k v = .ok (r, m')) : Linked m' := by
  unfold insertOrAssign at hcall
  dsimp only at hcall
  split at hcall
  · obtain ⟨⟨path, m₁⟩, hcreate, hcall⟩ := Except.bind_eq_ok.mp hcall
    obtain ⟨m₂, hsize, hcall⟩ := Except.bind_eq_ok.mp hcall
    obtain ⟨-, rfl⟩ := Prod.mk.inj (Except.ok.inj hcall)
    have hm₁ := hm.createTopicFilter hcreate
    exact (Restricts.increaseMapSize hsize).linked ((restricts_assignAt _ k v m₁).linked hm₁)
  -- the filter is there: only the value at its end changes
  · next back _ =>
    have hm₁ := (restricts_assignAt back k v m).linked hm
    split at hcall
    · next m₁ hassign =>
      rw [hassign] at hm₁
      exact linked_addCount hm₁ hcall
    · next m₁ hassign =>
      rw [hassign] at hm₁
      obtain ⟨-, rfl⟩ := Prod.mk.inj (Except.ok.inj hcall)
      exact hm₁

/-- An assignment by handle keeps the nodes linked. -/
theorem linked_insertOrAssignHandle {h : PathEntryKey} {k : K} {v : V} {r : PathEntryKey × Bool}
    (hm : Linked m) (hcall : m.insertOrAssignHandle h k v = .ok (r, m')) : Linked m' := by
  unfold insertOrAssignHandle at hcall
  split at hcall
  · exact nomatch hcall
  · have hm₁ := (restricts_assignAt h k v m).linked hm
    split at hcall
    · next m₁ hassign =>
      rw [hassign] at hm₁
      obtain ⟨path, -, hcall⟩ := Except.bind_eq_ok.mp hcall
      exact linked_addCount hm₁ hcall
    · next m₁ hassign =>
      rw [hassign] at hm₁
      obtain ⟨-, rfl⟩ := Prod.mk.inj (Except.ok.inj hcall)
      exact hm₁

/-- An erasure keeps the nodes linked. -/
theorem linked_erase (hm : Linked m) (f : Buffer) (k : K) : Linked (m.erase f k).2 := by
  have hpath := hm.rootKey_notMem_findTopicFilter f
  unfold erase
  dsimp only
  split
  · exact hm
  · next back _ =>
    have hm₁ := (restricts_eraseAt back k m).linked hm
    split
    · next m₁ herase =>
      rw [herase] at hm₁
      exact ((Restricts.setMapSize m₁ _).linked hm₁).removeTopicFilter hpath
    · next m₁ herase =>
      rw [herase] at hm₁
      exact hm₁

/-- An erasure by handle keeps the nodes linked, also where a node may have many values. -/
theorem linked_eraseHandle {h : PathEntryKey} {k : K} {r : Nat} (hm : Linked m)
    (hcall : m.eraseHandle h k = .ok (r, m')) : Linked m' := by
  unfold eraseHandle at hcall
  split at hcall
  · exact nomatch hcall
  · have hm₁ := (restricts_eraseAt h k m).linked hm
    split at hcall
    · next m₁ herase =>
      rw [herase] at hm₁
      obtain ⟨path, hpath, hcall⟩ := Except.bind_eq_ok.mp hcall
      obtain ⟨-, rfl⟩ := Prod.mk.inj (Except.ok.inj hcall)
      have hroot := Linked.rootKey_notMem_handleToIterators hpath
      exact (Restricts.setMapSize _ _).linked (hm₁.removeTopicFilter hroot)
    · next m₁ herase =>
      rw [herase] at hm₁
      obtain ⟨-, rfl⟩ := Prod.mk.inj (Except.ok.inj hcall)
      exact hm₁

/-- Any calls keep the links. -/
theorem Reached.linked (hr : Reached m) : Linked m := by
  induction hr with
  | make => exact Linked.make
  | insertOrAssign _ hcall ih => exact linked_insertOrAssign ih hcall
  | insertOrAssignHandle _ hcall ih => exact linked_insertOrAssignHandle ih hcall
  | created _ _ hcall ih => exact ih.createLevels_root hcall
  | assigned k v _ hcall ih =>
    exact (restricts_assignAt _ k v _).linked (ih.createTopicFilter hcall)
  | counted _ hcall ih =>
    exact (Restricts.increaseSubscriptions hcall).linked ((restricts_assignAt _ _ _ _).linked ih)
  | erase _ f k ih => exact linked_erase ih f k
  | eraseHandle _ hcall ih => exact linked_eraseHandle ih hcall
  | erased _ h k ih => exact (restricts_eraseAt h k _).linked ih

end MultipleSubscriptionMap

/-! ### What handles name -/

namespace SubscriptionMapBase

/-- Different filters have different handles, and a valid filter is named by its handle if and only if
    its last level is not empty. -/
def HandlesName {V : Type} (m : SubscriptionMapBase V) : Prop :=
  (∀ f g h, m.lookup f = some h → m.lookup g = some h → f = g) ∧
  ∀ f h, validateTopicFilter f → m.lookup f = some h →
    (m.handleToTopicFilter h = .ok f ↔ f.getLast? ≠ some topicFilterSeparator)

/-- In a linked map the handles name their filters. -/
theorem Linked.handlesName {V : Type} {m : SubscriptionMapBase V} (hm : Linked m) :
    HandlesName m := by
  refine ⟨fun f g h hf hg => hm.lookup_inj hf hg, fun f h hvalid hh => ?_⟩
  have hf : f ≠ [] := List.ne_nil_of_length_pos (validateTopicFilter_iff_grammar.mp hvalid).1.1
  exact hm.handleToTopicFilter_eq_iff hf hh

/-- In every map that any calls lead to, handles name their filters, but for empty last levels. -/
theorem handles_name_iff {K V : Type} [DecidableEq K] :
    (∀ m : SingleSubscriptionMap V, SingleSubscriptionMap.Reached m → HandlesName m) ∧
      ∀ m : MultipleSubscriptionMap K V, MultipleSubscriptionMap.Reached m → HandlesName m :=
  ⟨fun _ hr => hr.linked.handlesName, fun _ hr => hr.linked.handlesName⟩

/-- The handle of a filter with an empty first level names it. -/
theorem handles_name_iff_empty_first : ∃ m : SingleSubscriptionMap Nat,
    m.lookup [0x2f, 0x61] = some (3, [0x61]) ∧
      (m.handleToTopicFilter (3, [0x61]) = .ok [0x2f, 0x61] ↔
        ([0x2f, 0x61] : Buffer).getLast? ≠ some topicFilterSeparator) := by
  have hr : SingleSubscriptionMap.Reached (V := Nat) _ :=
    .insert (f := [0x2f, 0x61]) (v := 7) .make rfl
  have hspec := (handles_name_iff (K := Nat)).1 _ hr
  exact ⟨_, rfl, hspec.2 [0x2f, 0x61] _ (by decide) rfl⟩

/-- The last level of `a/` is lost. -/
theorem handle_loses_last_level : ∃ (h : PathEntryKey) (m : SingleSubscriptionMap Nat),
    SingleSubscriptionMap.insert [0x61, 0x2f] 7 SubscriptionMapBase.make = .ok ((h, true), m) ∧
      validateTopicFilter [0x61, 0x2f] ∧ m.lookup [0x61, 0x2f] = some h ∧
      m.handleToTopicFilter h = .ok [0x61] :=
  ⟨_, _, rfl, by decide, rfl, rfl⟩

end SubscriptionMapBase

end AsyncMqtt
