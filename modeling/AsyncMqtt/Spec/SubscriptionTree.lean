import Mathlib.Data.List.Nodup
import AsyncMqtt.ForStd.FlatTree
import AsyncMqtt.Native.SubscriptionMap
import AsyncMqtt.Spec.TopicMatching

/-!
# The tree of a subscription map

The hash map of a subscription map is a tree with one table, whose paths are lists of levels. What
the functions do to the hash map are changes of one entry, a new child and an entry that is erased.

## Key results

- `SubscriptionMapBase.WellFormed.lookup_keyAt`: an entry is found under its key
- `SubscriptionMapBase.node_modify`, `SubscriptionMapBase.node_addChild`,
  `SubscriptionMapBase.node_eraseEntry`: the tree after a change
-/

namespace AsyncMqtt

namespace SubscriptionMapBase

open FlatTree (pathsAlong mem_pathsAlong nodup_pathsAlong pathsAlong_snoc length_pathsAlong
  getLast?_pathsAlong)

variable {V : Type} [Inhabited V] {m : SubscriptionMapBase V}

/-- The tree of the entries. The key of the root is the key of no child. -/
def tree (m : SubscriptionMapBase V) : FlatTree Buffer (PathEntry V) where
  root := (m.map.lookup rootKey).getD ⟨rootNodeId, rootKey, ⟨1, false, false⟩, default⟩
  child i t := if (i, t) = rootKey then none else m.map.lookup (i, t)

/-- The entry at the end of a path. -/
def node (m : SubscriptionMapBase V) (p : List Buffer) : Option (PathEntry V) :=
  m.tree.node PathEntry.id p

/-- The key of the entry at the end of a path. -/
def keyAt (m : SubscriptionMapBase V) (p : List Buffer) : PathEntryKey :=
  match p.getLast? with
  | none => rootKey
  | some t => (((m.node p.dropLast).map PathEntry.id).getD 0, t)

/-- The table is a tree, and it is known which identifiers are not in use. -/
structure WellFormed (m : SubscriptionMapBase V) : Prop where
  root : ∃ e, m.map.lookup rootKey = some e ∧ e.id = rootNodeId
  tree : m.tree.Wf PathEntry.id
  id_le : ∀ p e, m.node p = some e → e.id ≤ m.nextNodeId ∧ e.id ≠ rootKey.1
  next : rootKey.1 ≤ m.nextNodeId
  parent : ∀ p t e, m.node (p ++ [t]) = some e → e.parent = m.keyAt p

/-- The empty path leads to the root. -/
theorem node_nil : m.node [] = some m.tree.root := rfl

/-- A level leads to a child. -/
theorem node_snoc (p : List Buffer) (t : Buffer) :
    m.node (p ++ [t]) = (m.node p).bind fun e => m.tree.child e.id t := FlatTree.node_snoc p t

/-- The key of the root -/
@[simp] theorem keyAt_nil : m.keyAt [] = rootKey := rfl

/-- The key of a child has the identifier of its parent. -/
theorem keyAt_snoc {p : List Buffer} {e : PathEntry V} (h : m.node p = some e) (t : Buffer) :
    m.keyAt (p ++ [t]) = (e.id, t) := by
  simp [keyAt, h]

/-- Only the root is not found under its key. -/
theorem tree_child {i : Nat} (h : i ≠ rootKey.1) (t : Buffer) :
    m.tree.child i t = m.map.lookup (i, t) := by
  have hne : (i, t) ≠ rootKey := fun heq => h (congrArg Prod.fst heq)
  show (if (i, t) = rootKey then none else m.map.lookup (i, t)) = _
  exact if_neg hne

/-- The nodes on the way to a node are there. -/
theorem isSome_on_path {p q : List Buffer} (h : p <+: q) (hq : (m.node q).isSome) :
    (m.node p).isSome :=
  FlatTree.isSome_on_path h hq

/-- The parent of a node is there. -/
theorem isSome_node_dropLast {p : List Buffer} {e : PathEntry V} (h : m.node p = some e) :
    (m.node p.dropLast).isSome :=
  isSome_on_path p.dropLast_prefix (by rw [h]; rfl)

/-- Keys depend on the identifiers only. -/
theorem keyAt_congr {m' : SubscriptionMapBase V} {q : List Buffer}
    (h : (m'.node q.dropLast).map PathEntry.id = (m.node q.dropLast).map PathEntry.id) :
    m'.keyAt q = m.keyAt q := by
  unfold keyAt
  rw [h]

namespace WellFormed

/-- The root has the first identifier. -/
theorem node_root (h : WellFormed m) : ∃ e, m.node [] = some e ∧ e.id = rootNodeId := by
  obtain ⟨e, he, hid⟩ := h.root
  exact ⟨e, by rw [node_nil, SubscriptionMapBase.tree, he]; rfl, hid⟩

/-- The children of an entry are found under its identifier. -/
theorem node_snoc_lookup (h : WellFormed m) {p : List Buffer} {e : PathEntry V}
    (hp : m.node p = some e) (t : Buffer) : m.node (p ++ [t]) = m.map.lookup (e.id, t) := by
  rw [node_snoc, hp, Option.bind_some, tree_child (h.id_le p e hp).2]

/-- An entry is found under its key. -/
theorem lookup_keyAt (h : WellFormed m) {p : List Buffer} {e : PathEntry V}
    (hp : m.node p = some e) : m.map.lookup (m.keyAt p) = some e := by
  rcases List.eq_nil_or_concat' p with rfl | ⟨q, t, rfl⟩
  · obtain ⟨e', he', -⟩ := h.root
    rw [node_nil, SubscriptionMapBase.tree, he'] at hp
    rw [keyAt_nil, he']
    exact hp
  · obtain ⟨e', he', hchild⟩ := FlatTree.child_of_node_snoc hp
    rw [keyAt_snoc he', ← h.node_snoc_lookup he']
    exact hp

/-- Every entry is at the end of a path. -/
theorem exists_path (h : WellFormed m) {key : PathEntryKey} {e : PathEntry V}
    (he : m.map.lookup key = some e) : ∃ p, m.node p = some e ∧ m.keyAt p = key := by
  by_cases hroot : key = rootKey
  · subst hroot
    refine ⟨[], ?_, rfl⟩
    rw [node_nil, SubscriptionMapBase.tree, he]
    rfl
  · have hchild : m.tree.child key.1 key.2 = some e := by
      show (if key = rootKey then none else m.map.lookup key) = some e
      rw [if_neg hroot]
      exact he
    obtain ⟨p, e', he', hid, hnode⟩ := FlatTree.exists_node_snoc h.tree hchild
    exact ⟨p ++ [key.2], hnode, by rw [keyAt_snoc he', hid]⟩

/-- Different paths have different keys. -/
theorem keyAt_inj (h : WellFormed m) {p q : List Buffer} (hp : (m.node p).isSome)
    (hq : (m.node q).isSome) (heq : m.keyAt p = m.keyAt q) : p = q := by
  obtain ⟨e, he⟩ := Option.isSome_iff_exists.mp hp
  obtain ⟨e', he'⟩ := Option.isSome_iff_exists.mp hq
  have hsame : e = e' := by
    have hlookup := h.lookup_keyAt he
    rw [heq, h.lookup_keyAt he'] at hlookup
    exact (Option.some.inj hlookup).symm
  exact FlatTree.node_inj h.tree he he' (congrArg PathEntry.id hsame)

end WellFormed

/-! ### An entry is changed -/

/-- The change of one entry as a change of the tree. -/
def changed (e : PathEntry V) (f : PathEntry V → PathEntry V) (e' : PathEntry V) : PathEntry V :=
  if e'.id = e.id then f e' else e'

omit [Inhabited V] in
/-- A change leaves the identifier. -/
theorem changed_id {e : PathEntry V} {f : PathEntry V → PathEntry V}
    (hf : ∀ e, (f e).id = e.id) (e' : PathEntry V) : (changed e f e').id = e'.id := by
  unfold changed
  split
  · exact hf e'
  · rfl

section Modify

variable {f : PathEntry V → PathEntry V} {p : List Buffer} {e : PathEntry V}

omit [Inhabited V] in
/-- A change takes no new identifier. -/
@[simp] theorem modify_nextNodeId (key : PathEntryKey) :
    (m.modify key f).nextNodeId = m.nextNodeId := by
  unfold modify
  split <;> rfl

omit [Inhabited V] in
/-- A change does not count. -/
@[simp] theorem modify_mapSize (key : PathEntryKey) : (m.modify key f).mapSize = m.mapSize := by
  unfold modify
  split <;> rfl

omit [Inhabited V] in
/-- Two changes of one entry -/
theorem modify_modify {g : PathEntry V → PathEntry V} (key : PathEntryKey) :
    (m.modify key f).modify key g = m.modify key fun e => g (f e) := by
  unfold modify
  cases hlookup : m.map.lookup key with
  | none => simp [hlookup]
  | some e => simp [AList.lookup_insert, AList.insert_insert]

omit [Inhabited V] in
/-- An entry that is erased need not be changed before. -/
theorem erase_modify (key : PathEntryKey) :
    { m.modify key f with map := (m.modify key f).map.erase key } =
      { m with map := m.map.erase key } := by
  unfold modify
  cases hlookup : m.map.lookup key with
  | none => rfl
  | some e =>
    have herase : (m.map.insert key (f e)).erase key = m.map.erase key := by
      apply AList.ext
      show List.kerase key (List.kinsert key (f e) m.map.entries) = List.kerase key m.map.entries
      rw [List.kinsert_def]
      exact List.kerase_cons_eq (β := fun _ => PathEntry V) (s := ⟨key, f e⟩) rfl
    simp [herase]

omit [Inhabited V] in
/-- One entry less is counted. -/
theorem mapSize_decreaseMapSize {n : Nat} (h : m.mapSize = n + 1) :
    m.decreaseMapSize.mapSize = n := by
  unfold decreaseMapSize
  rw [h]
  rfl

omit [Inhabited V] in
/-- `remove_topic_filter` changes the entries only. -/
theorem removeEntries_frame (a b : Bool) (keys : List PathEntryKey) (m : SubscriptionMapBase V) :
    (removeEntries a b keys m).mapSize = m.mapSize ∧
      (removeEntries a b keys m).nextNodeId = m.nextNodeId := by
  induction keys generalizing a b m with
  | nil => exact ⟨modify_mapSize _, modify_nextNodeId _⟩
  | cons key keys ih =>
    rw [removeEntries]
    dsimp only
    split
    · obtain ⟨hsize, hnext⟩ := ih (key.2 = plusLevel) (key.2 = hashLevel) _
      exact ⟨hsize.trans (modify_mapSize _), hnext.trans (modify_nextNodeId _)⟩
    · obtain ⟨hsize, hnext⟩ := ih false false _
      exact ⟨hsize.trans (modify_mapSize _), hnext.trans (modify_nextNodeId _)⟩

omit [Inhabited V] in
/-- What an entry holds does not matter when it is erased. -/
theorem removeEntries_modify {a b : Bool} {key : PathEntryKey} {keys : List PathEntryKey}
    (he : m.map.lookup key = some e) (hcount : e.count.value = 1)
    (hf : ∀ e', (f e').count = e'.count) :
    removeEntries a b (key :: keys) (m.modify key f) = removeEntries a b (key :: keys) m := by
  have hlast : ∀ g : PathEntry V → PathEntry V, (g e).count.value = 0 →
      ((m.modify key g).map.lookup key).any (·.count.value = 0) := by
    intro g hg
    unfold modify
    rw [he, AList.lookup_insert, Option.any_some, hg]
    rfl
  have hzero : e.count.value - 1 = 0 := by omega
  have hzero' : (f e).count.value - 1 = 0 := by rw [hf, hzero]
  rw [removeEntries, removeEntries]
  dsimp only
  rw [modify_modify, if_pos (hlast _ hzero'), if_pos (hlast _ hzero), erase_modify, erase_modify]

/-- The entry is changed. -/
theorem lookup_modify_self (h : WellFormed m) (hp : m.node p = some e) :
    (m.modify (m.keyAt p) f).map.lookup (m.keyAt p) = some (f e) := by
  unfold modify
  rw [h.lookup_keyAt hp]
  exact AList.lookup_insert m.map

omit [Inhabited V] in
/-- The other entries are as they were. -/
theorem lookup_modify_ne {key key' : PathEntryKey} (h : key' ≠ key) :
    (m.modify key f).map.lookup key' = m.map.lookup key' := by
  unfold modify
  split
  · rfl
  · exact AList.lookup_insert_ne h

/-- A change at the end of a path is a change of this node of the tree. -/
theorem tree_modify (h : WellFormed m) (hp : m.node p = some e) :
    (m.modify (m.keyAt p) f).tree = m.tree.map (changed e f) := by
  have hlookup : ∀ key e', m.map.lookup key = some e' →
      (m.modify (m.keyAt p) f).map.lookup key = some (changed e f e') := by
    intro key e' he'
    obtain ⟨q, hq, rfl⟩ := h.exists_path he'
    unfold changed
    -- the key belongs to the modified node alone
    by_cases hid : e'.id = e.id
    · obtain rfl := FlatTree.node_inj h.tree hq hp hid
      obtain rfl : e' = e := Option.some.inj (hq.symm.trans hp)
      rw [if_pos rfl]
      exact lookup_modify_self h hp
    · rw [if_neg hid, lookup_modify_ne, he']
      intro heq
      have hsame := h.keyAt_inj (by rw [hq]; rfl) (by rw [hp]; rfl) heq
      subst hsame
      exact hid (congrArg PathEntry.id (Option.some.inj (hq.symm.trans hp)))
  have hnone : ∀ key, m.map.lookup key = none →
      (m.modify (m.keyAt p) f).map.lookup key = none := by
    intro key hkey
    rw [lookup_modify_ne, hkey]
    rintro rfl
    rw [h.lookup_keyAt hp] at hkey
    exact nomatch hkey
  obtain ⟨e₀, he₀, -⟩ := h.root
  -- the root and the children change alike
  have hroot : (m.modify (m.keyAt p) f).tree.root = changed e f m.tree.root := by
    rw [tree, tree, hlookup rootKey e₀ he₀, he₀]
    rfl
  have hchild : (m.modify (m.keyAt p) f).tree.child =
      fun i t => (m.tree.child i t).map (changed e f) := by
    funext i t
    rw [tree, tree]
    dsimp only
    split
    · rfl
    · cases hc : m.map.lookup (i, t) with
      | none => exact hnone _ hc
      | some e' => exact hlookup _ e' hc
  exact congrArg₂ FlatTree.mk hroot hchild

/-- After a change the node of the path is the changed one. -/
theorem node_modify (h : WellFormed m) (hp : m.node p = some e) (hf : ∀ e, (f e).id = e.id)
    (q : List Buffer) :
    (m.modify (m.keyAt p) f).node q = if q = p then some (f e) else m.node q := by
  rw [node, tree_modify h hp, FlatTree.node_map (changed_id hf)]
  by_cases hq : q = p
  · subst hq
    rw [if_pos rfl]
    change (m.node q).map (changed e f) = _
    rw [hp]
    simp [changed]
  · rw [if_neg hq]
    change (m.node q).map (changed e f) = m.node q
    cases hnode : m.node q with
    | none => rfl
    | some e' =>
      have hid : e'.id ≠ e.id := fun hid => hq (FlatTree.node_inj h.tree hnode hp hid)
      simp [changed, hid]

/-- Keys and the presence of nodes do not depend on what a change does. -/
theorem keyAt_modify (h : WellFormed m) (hp : m.node p = some e) (hf : ∀ e, (f e).id = e.id)
    (q : List Buffer) : (m.modify (m.keyAt p) f).keyAt q = m.keyAt q := by
  apply keyAt_congr
  rw [node_modify h hp hf]
  split
  · next heq => rw [heq, hp, Option.map_some, Option.map_some, hf]
  · rfl

/-- A change of the value keeps the tree well-formed. -/
theorem WellFormed.modify (h : WellFormed m) (hp : m.node p = some e)
    (hf : ∀ e, (f e).id = e.id) (hparent : ∀ e, (f e).parent = e.parent) :
    WellFormed (m.modify (m.keyAt p) f) := by
  refine ⟨?_, ?_, ?_, by rw [modify_nextNodeId]; exact h.next, ?_⟩
  · obtain ⟨e₀, he₀, hid⟩ := h.root
    -- the root may be the modified node
    by_cases hkey : rootKey = m.keyAt p
    · refine ⟨f e, ?_, ?_⟩
      · rw [hkey]
        exact lookup_modify_self h hp
      · rw [hf, ← hid]
        rw [hkey, h.lookup_keyAt hp] at he₀
        rw [Option.some.inj he₀]
    · exact ⟨e₀, by rw [lookup_modify_ne hkey]; exact he₀, hid⟩
  · rw [tree_modify h hp]
    exact h.tree.map (changed_id hf)
  · intro q e' he'
    rw [node_modify h hp hf] at he'
    rw [modify_nextNodeId]
    split at he'
    -- the changed entry has the id of before
    · obtain rfl := Option.some.inj he'
      rw [hf]
      exact h.id_le p e hp
    · exact h.id_le q e' he'
  · intro q t e' he'
    rw [keyAt_modify h hp hf]
    rw [node_modify h hp hf] at he'
    split at he'
    · next heq =>
      obtain rfl := Option.some.inj he'
      rw [hparent]
      exact h.parent q t e (heq ▸ hp)
    · exact h.parent q t e' he'

end Modify

/-! ### An entry is created or erased -/

/-- The entry that `create_topic_filter` creates. -/
def newEntry (m : SubscriptionMapBase V) (p : List Buffer) : PathEntry V :=
  ⟨m.nextNodeId + 1, m.keyAt p, ⟨1, false, false⟩, default⟩

/-- The map with a new child. -/
def addChild (m : SubscriptionMapBase V) (p : List Buffer) (t : Buffer) : SubscriptionMapBase V :=
  { m with
    map := m.map.insert (m.keyAt (p ++ [t])) (m.newEntry p)
    nextNodeId := m.nextNodeId + 1 }

section AddChild

variable {p : List Buffer} {t : Buffer} {e : PathEntry V}

/-- The next identifier has not been used. -/
theorem WellFormed.fresh (h : WellFormed m) : m.tree.Fresh PathEntry.id (m.nextNodeId + 1) := by
  constructor
  · have hle := (h.id_le [] _ node_nil).1
    omega
  · intro i t e he
    obtain ⟨p, -, -, -, hnode⟩ := FlatTree.exists_node_snoc h.tree he
    have hle := (h.id_le _ e hnode).1
    omega

/-- A new entry is a new child. -/
theorem tree_addChild (h : WellFormed m) (hp : m.node p = some e) :
    (m.addChild p t).tree = m.tree.insert e.id t (m.newEntry p) := by
  have hkey : m.keyAt (p ++ [t]) = (e.id, t) := keyAt_snoc hp t
  have hne : (e.id, t) ≠ rootKey := fun heq => (h.id_le p e hp).2 (congrArg Prod.fst heq)
  have hroot : (m.addChild p t).tree.root = m.tree.root := by
    unfold tree addChild
    dsimp only
    rw [hkey, AList.lookup_insert_ne hne.symm]
  have hchild : (m.addChild p t).tree.child = (m.tree.insert e.id t (m.newEntry p)).child := by
    funext i s
    unfold tree addChild FlatTree.insert
    dsimp only
    by_cases heq : (i, s) = (e.id, t)
    · obtain ⟨rfl, rfl⟩ := Prod.mk.inj heq
      rw [if_neg hne, if_pos ⟨rfl, rfl⟩, hkey, AList.lookup_insert]
    · rw [hkey, AList.lookup_insert_ne heq, if_neg (c := i = e.id ∧ s = t)]
      rintro ⟨rfl, rfl⟩
      exact heq rfl
  exact congrArg₂ FlatTree.mk hroot hchild

/-- After a new entry the longer path has a node. -/
theorem node_addChild (h : WellFormed m) (hp : m.node p = some e)
    (hnone : m.node (p ++ [t]) = none) (q : List Buffer) :
    (m.addChild p t).node q = if q = p ++ [t] then some (m.newEntry p) else m.node q := by
  have hchild : m.tree.child e.id t = none := by
    rw [node_snoc, hp] at hnone
    exact hnone
  rw [node, tree_addChild h hp, FlatTree.node_insert h.tree hp hchild h.fresh]
  rfl

/-- A new entry does not move the others. -/
theorem keyAt_addChild (h : WellFormed m) (hp : m.node p = some e)
    (hnone : m.node (p ++ [t]) = none) {q : List Buffer} (hq : (m.node q.dropLast).isSome) :
    (m.addChild p t).keyAt q = m.keyAt q := by
  apply keyAt_congr
  rw [node_addChild h hp hnone, if_neg]
  intro heq
  rw [heq, hnone] at hq
  exact nomatch hq

/-- A new entry keeps the tree well-formed. -/
theorem WellFormed.addChild (h : WellFormed m) (hp : m.node p = some e)
    (hnone : m.node (p ++ [t]) = none) : WellFormed (m.addChild p t) := by
  have hchild : m.tree.child e.id t = none := by
    rw [node_snoc, hp] at hnone
    exact hnone
  refine ⟨?_, ?_, ?_, Nat.le_succ_of_le h.next, ?_⟩
  -- no node has the id in the root's key, so the new key is not the root's
  · obtain ⟨e₀, he₀, hid⟩ := h.root
    refine ⟨e₀, ?_, hid⟩
    rw [SubscriptionMapBase.addChild, keyAt_snoc hp, AList.lookup_insert_ne, he₀]
    exact fun heq => (h.id_le p e hp).2 (congrArg Prod.fst heq).symm
  · rw [tree_addChild h hp]
    exact h.tree.insert hp hchild h.fresh
  · intro q e' he'
    rw [node_addChild h hp hnone] at he'
    split at he'
    · obtain rfl := Option.some.inj he'
      -- the new id is the next one
      refine ⟨Nat.le_refl _, ?_⟩
      exact (Nat.lt_succ_of_le h.next).ne'
    · obtain ⟨hq, hne⟩ := h.id_le q e' he'
      exact ⟨Nat.le_succ_of_le hq, hne⟩
  · intro q s e' he'
    rw [node_addChild h hp hnone] at he'
    split at he'
    · next heq =>
      -- the new node is below the node it was added to
      obtain rfl := Option.some.inj he'
      obtain ⟨rfl, -⟩ := List.append_inj' heq rfl
      rw [keyAt_addChild h hp hnone (isSome_node_dropLast hp)]
      rfl
    · obtain ⟨e₁, he₁, -⟩ := FlatTree.child_of_node_snoc he'
      rw [h.parent q s e' he', keyAt_addChild h hp hnone (isSome_node_dropLast he₁)]

end AddChild

/-- The map without an entry. -/
def eraseEntry (m : SubscriptionMapBase V) (p : List Buffer) : SubscriptionMapBase V :=
  { m with map := m.map.erase (m.keyAt p) }

section EraseEntry

variable {p : List Buffer} {e : PathEntry V}

/-- An entry can go that has no children and is not the root. -/
structure IsLeaf (m : SubscriptionMapBase V) (p : List Buffer) : Prop where
  ne_nil : p ≠ []
  no_child : ∀ t, m.node (p ++ [t]) = none

/-- An erased entry is a leaf that is left out. -/
theorem tree_eraseEntry (h : WellFormed m) (hp : m.node p = some e) (hleaf : m.IsLeaf p) :
    (m.eraseEntry p).tree = m.tree.filter fun e' => e'.id ≠ e.id := by
  have hroot : m.keyAt p ≠ rootKey := fun heq =>
    hleaf.ne_nil (h.keyAt_inj (q := []) (by rw [hp]; rfl) rfl heq)
  have hroot' : (m.eraseEntry p).tree.root = m.tree.root := by
    unfold tree eraseEntry
    dsimp only
    rw [AList.lookup_erase_ne hroot.symm]
  have hchild : (m.eraseEntry p).tree.child =
      (m.tree.filter fun e' => e'.id ≠ e.id).child := by
    funext i t
    unfold tree eraseEntry FlatTree.filter
    dsimp only
    by_cases heq : (i, t) = m.keyAt p
    · rw [heq, if_neg hroot, if_neg hroot, AList.lookup_erase, h.lookup_keyAt hp, Option.filter]
      simp
    · rw [AList.lookup_erase_ne heq]
      split
      · rfl
      · cases hlookup : m.map.lookup (i, t) with
        | none => rfl
        | some e' =>
          -- another key has another identifier
          obtain ⟨q, hq, hkey⟩ := h.exists_path hlookup
          have hid : e'.id ≠ e.id := by
            intro hid
            obtain rfl := FlatTree.node_inj h.tree hq hp hid
            exact heq hkey.symm
          simp [Option.filter, hid]
  exact congrArg₂ FlatTree.mk hroot' hchild

/-- Nothing hangs below a leaf. -/
theorem closed_eraseEntry (h : WellFormed m) (hp : m.node p = some e) (hleaf : m.IsLeaf p) :
    m.tree.Closed PathEntry.id fun e' => e'.id ≠ e.id := by
  intro q t e₁ e₂ _ hq hqt _
  rw [decide_eq_true_iff]
  intro hid
  obtain rfl := FlatTree.node_inj h.tree hq hp hid
  have hnone := hleaf.no_child t
  exact nomatch hnone.symm.trans hqt

/-- After the erasure the path has no node. -/
theorem node_eraseEntry (h : WellFormed m) (hp : m.node p = some e) (hleaf : m.IsLeaf p)
    (q : List Buffer) : (m.eraseEntry p).node q = if q = p then none else m.node q := by
  rw [node, tree_eraseEntry h hp hleaf, FlatTree.node_filter (closed_eraseEntry h hp hleaf)]
  by_cases hq : q = []
  · subst hq
    rw [if_pos rfl, if_neg hleaf.ne_nil.symm, node_nil]
  · rw [if_neg hq]
    show (m.node q).filter _ = _
    cases hnode : m.node q with
    | none => split <;> rfl
    | some e' =>
      by_cases heq : q = p
      · subst heq
        obtain rfl := Option.some.inj (hnode.symm.trans hp)
        simp [Option.filter]
      · have hid : e'.id ≠ e.id := fun hid => heq (FlatTree.node_inj h.tree hnode hp hid)
        simp [Option.filter, hid, heq]

/-- An erasure does not move the others. -/
theorem keyAt_eraseEntry (h : WellFormed m) (hp : m.node p = some e) (hleaf : m.IsLeaf p)
    {q : List Buffer} (hq : q.dropLast ≠ p) : (m.eraseEntry p).keyAt q = m.keyAt q := by
  apply keyAt_congr
  rw [node_eraseEntry h hp hleaf, if_neg hq]

/-- An erasure keeps the tree well-formed. -/
theorem WellFormed.eraseEntry (h : WellFormed m) (hp : m.node p = some e) (hleaf : m.IsLeaf p) :
    WellFormed (m.eraseEntry p) := by
  refine ⟨?_, ?_, ?_, h.next, ?_⟩
  · obtain ⟨e₀, he₀, hid⟩ := h.root
    have hroot : rootKey ≠ m.keyAt p := fun heq =>
      hleaf.ne_nil (h.keyAt_inj (q := []) (by rw [hp]; rfl) rfl heq.symm)
    exact ⟨e₀, by rw [SubscriptionMapBase.eraseEntry, AList.lookup_erase_ne hroot, he₀], hid⟩
  · rw [tree_eraseEntry h hp hleaf]
    exact h.tree.filter (closed_eraseEntry h hp hleaf)
  · intro q e' he'
    rw [node_eraseEntry h hp hleaf] at he'
    split at he'
    · exact nomatch he'
    · exact h.id_le q e' he'
  · intro q t e' he'
    rw [node_eraseEntry h hp hleaf] at he'
    split at he'
    · exact nomatch he'
    · rw [h.parent q t e' he', keyAt_eraseEntry h hp hleaf]
      -- the parent of an entry that is left is not below the one that is gone
      intro hq
      obtain ⟨e₁, he₁, -⟩ := FlatTree.child_of_node_snoc he'
      rcases List.eq_nil_or_concat' q with rfl | ⟨q', s, rfl⟩
      · exact hleaf.ne_nil hq.symm
      · rw [List.dropLast_concat] at hq
        subst hq
        exact nomatch (hleaf.no_child s).symm.trans he₁

end EraseEntry

/-! ### What stays -/

/-- Every entry of one map is in the other, under the same key. -/
def Extends (m m' : SubscriptionMapBase V) : Prop :=
  ∀ q, (m.node q).isSome → (m'.node q).isSome ∧ m'.keyAt q = m.keyAt q

namespace Extends

variable {m' m'' : SubscriptionMapBase V} {p : List Buffer} {t : Buffer} {e : PathEntry V}

/-- The map extends itself. -/
theorem refl (m : SubscriptionMapBase V) : Extends m m := fun _ hq => ⟨hq, rfl⟩

/-- Extensions one after another -/
theorem trans (h : Extends m m') (h' : Extends m' m'') : Extends m m'' := by
  intro q hq
  obtain ⟨hq', hkey⟩ := h q hq
  obtain ⟨hq'', hkey'⟩ := h' q hq'
  exact ⟨hq'', hkey'.trans hkey⟩

/-- A change neither adds nor removes a node. -/
theorem modify {f : PathEntry V → PathEntry V} (h : WellFormed m) (hp : m.node p = some e)
    (hf : ∀ e, (f e).id = e.id) :
    Extends m (m.modify (m.keyAt p) f) ∧ Extends (m.modify (m.keyAt p) f) m := by
  have hsome : ∀ q, ((m.modify (m.keyAt p) f).node q).isSome = (m.node q).isSome := by
    intro q
    rw [node_modify h hp hf]
    split
    · next heq => rw [heq, hp]; rfl
    · rfl
  constructor
  · intro q hq
    exact ⟨(hsome q).trans hq, keyAt_modify h hp hf q⟩
  · intro q hq
    exact ⟨(hsome q).symm.trans hq, (keyAt_modify h hp hf q).symm⟩

/-- A new entry extends the map. -/
theorem addChild (h : WellFormed m) (hp : m.node p = some e) (hnone : m.node (p ++ [t]) = none) :
    Extends m (m.addChild p t) := by
  intro q hq
  constructor
  · rw [node_addChild h hp hnone]
    split
    · rfl
    · exact hq
  · exact keyAt_addChild h hp hnone (isSome_on_path q.dropLast_prefix hq)

/-- An erasure is the reverse of an extension. -/
theorem eraseEntry (h : WellFormed m) (hp : m.node p = some e) (hleaf : m.IsLeaf p) :
    Extends (m.eraseEntry p) m := by
  intro q hq
  rw [node_eraseEntry h hp hleaf] at hq
  split at hq
  · exact nomatch hq
  · refine ⟨hq, (keyAt_eraseEntry h hp hleaf ?_).symm⟩
    -- what is left is not below the entry that is gone
    intro hdrop
    rcases List.eq_nil_or_concat' q with rfl | ⟨q', s, rfl⟩
    · exact hleaf.ne_nil hdrop.symm
    · rw [List.dropLast_concat] at hdrop
      rw [hdrop, hleaf.no_child s] at hq
      exact nomatch hq

end Extends

/-! ### The keys along a path -/

/-- `find_topic_filter` finds the keys along a path. -/
theorem findLevels_eq (h : WellFormed m) {p ts : List Buffer} {e : PathEntry V}
    (hp : m.node p = some e) :
    m.findLevels e.id ts =
      if (m.node (p ++ ts)).isSome then some ((pathsAlong p ts).map m.keyAt) else none := by
  induction ts generalizing p e with
  | nil => rw [List.append_nil, hp]; rfl
  | cons t ts ih =>
    have hsplit : p ++ t :: ts = p ++ [t] ++ ts := by simp
    rw [findLevels, ← h.node_snoc_lookup hp t, hsplit]
    cases hnode : m.node (p ++ [t]) with
    | none =>
      have hnone : (m.node (p ++ [t] ++ ts)).isSome = false := by
        rw [Bool.eq_false_iff]
        intro hsome
        have hsome' := isSome_on_path (List.prefix_append (p ++ [t]) ts) hsome
        rw [hnode] at hsome'
        exact nomatch hsome'
      rw [if_neg (by rw [hnone]; exact Bool.false_ne_true)]
    | some e' =>
      dsimp only
      rw [ih hnode, pathsAlong, List.map_cons, keyAt_snoc hp]
      split <;> rfl

/-- A filter is found with the keys along its path, if it leads to a node. -/
theorem findTopicFilter_eq (h : WellFormed m) (topicFilter : Buffer) :
    m.findTopicFilter topicFilter =
      if (m.node (topicFilterTokens topicFilter)).isSome then
        (pathsAlong [] (topicFilterTokens topicFilter)).map m.keyAt
      else [] := by
  obtain ⟨e, he, hid⟩ := h.node_root
  unfold findTopicFilter
  rw [← hid, findLevels_eq h he, List.nil_append]
  split <;> rfl

/-- The path that `find_topic_filter` finds ends at the node of the filter. -/
theorem getLast?_findTopicFilter (h : WellFormed m) (topicFilter : Buffer) :
    (m.findTopicFilter topicFilter).getLast? =
      if (m.node (topicFilterTokens topicFilter)).isSome then
        some (m.keyAt (topicFilterTokens topicFilter))
      else none := by
  rw [findTopicFilter_eq h]
  split
  · rw [List.getLast?_map, getLast?_pathsAlong [] (topicFilterTokens_ne_nil topicFilter)]
    rfl
  · rfl

/-- The parents of an entry, up to the root. -/
theorem handleToPath_keyAt (h : WellFormed m) {fuel : Nat} {p : List Buffer}
    (hp : (m.node p).isSome) (hfuel : p.length < fuel) :
    m.handleToPath fuel (m.keyAt p) = .ok ((pathsAlong [] p).map m.keyAt).reverse := by
  induction p using List.reverseRecOn generalizing fuel with
  | nil =>
    obtain ⟨fuel, rfl⟩ := Nat.exists_eq_add_one_of_ne_zero (Nat.ne_of_gt hfuel)
    rw [keyAt_nil, handleToPath, if_pos rfl]
    rfl
  | append_singleton p t ih =>
    obtain ⟨e, he⟩ := Option.isSome_iff_exists.mp hp
    rw [List.length_append, List.length_singleton] at hfuel
    obtain ⟨fuel, rfl⟩ := Nat.exists_eq_add_one_of_ne_zero (Nat.ne_of_gt (Nat.zero_lt_of_lt hfuel))
    have hroot : m.keyAt (p ++ [t]) ≠ rootKey := by
      intro heq
      have hnil := h.keyAt_inj (q := []) hp rfl heq
      simp at hnil
    have hpre := isSome_on_path (List.prefix_append p [t]) hp
    rw [handleToPath, if_neg hroot, h.lookup_keyAt he]
    dsimp only
    rw [h.parent p t e he, ih hpre (by omega), pathsAlong_snoc, List.map_append,
      List.reverse_append]
    rfl

/-- A path is not longer than there are entries. -/
theorem length_le_entries (h : WellFormed m) {p : List Buffer} (hp : (m.node p).isSome) :
    p.length ≤ m.map.entries.length := by
  have hnode : ∀ q ∈ pathsAlong [] p, (m.node q).isSome := by
    intro q hq
    obtain ⟨r, -, hr, rfl⟩ := mem_pathsAlong.mp hq
    exact isSome_on_path hr hp
  have hnodup : ((pathsAlong [] p).map m.keyAt).Nodup := by
    refine List.Nodup.map_on (fun q hq q' hq' heq => ?_) (nodup_pathsAlong [] p)
    exact h.keyAt_inj (hnode q hq) (hnode q' hq') heq
  have hsubset : (pathsAlong [] p).map m.keyAt ⊆ m.map.keys := by
    intro key hkey
    obtain ⟨q, hq, rfl⟩ := List.mem_map.mp hkey
    obtain ⟨e, he⟩ := Option.isSome_iff_exists.mp (hnode q hq)
    have hlookup := h.lookup_keyAt he
    exact AList.mem_keys.mp (AList.lookup_isSome.mp (by rw [hlookup]; rfl))
  have hle := (List.subperm_of_subset hnodup hsubset).length_le
  rw [List.length_map, length_pathsAlong] at hle
  simpa [AList.keys, List.keys] using hle

/-- `handle_to_iterators` with a valid handle -/
theorem handleToIterators_keyAt (h : WellFormed m) {p : List Buffer} (hp : (m.node p).isSome) :
    m.handleToIterators (m.keyAt p) = .ok ((pathsAlong [] p).map m.keyAt).reverse :=
  handleToPath_keyAt h hp (Nat.lt_succ_of_le (length_le_entries h hp))

end SubscriptionMapBase

end AsyncMqtt
