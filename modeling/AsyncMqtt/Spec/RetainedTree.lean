import AsyncMqtt.ForStd.AList
import AsyncMqtt.ForStd.CountedTree
import AsyncMqtt.ForStd.Except
import AsyncMqtt.Native.RetainedTopicMap
import AsyncMqtt.Spec.TopicMatching

/-!
# The tree of the retained topics

The container of a `retained_topic_map` is a tree with one table. What the functions do to the
container are changes of entries, a new entry at the end and entries that are left out.

## Key results

- `RetainedTopicMap.WellFormed.update`, `RetainedTopicMap.WellFormed.addLeaf`,
  `RetainedTopicMap.WellFormed.keep`: the changes
-/

namespace AsyncMqtt

namespace RetainedTopicMap

variable {V : Type} {m : RetainedTopicMap V} {e e' : RetainedEntry V} {p q : List Buffer}
  {t : Buffer} {i : Nat}

/-- The tree of the entries. The root is the child of no entry. -/
def tree (m : RetainedTopicMap V) : FlatTree Buffer (RetainedEntry V) where
  root := (m.directFind rootParentId []).getD rootEntry
  child i t := if i = rootParentId then none else m.directFind i t

/-- The entry at the end of a path. -/
def node (m : RetainedTopicMap V) (p : List Buffer) : Option (RetainedEntry V) :=
  m.tree.node RetainedEntry.id p

/-- The key of the index for direct access -/
def key (e : RetainedEntry V) : Nat × Buffer := (e.parentId, e.name)

/-- The keys are unique, and the table is a tree whose identifiers are below the next one. -/
structure WellFormed (m : RetainedTopicMap V) : Prop where
  keys : (m.map.map key).Nodup
  root : ∃ e ∈ m.map, e.parentId = rootParentId ∧ e.id = rootNodeId
  parent : ∀ e ∈ m.map, e.parentId = rootParentId → e.name = []
  tree : m.tree.Wf RetainedEntry.id
  id_lt : ∀ e ∈ m.map, e.id ≠ rootParentId ∧ e.id < m.nextNodeId

/-- The empty path leads to the root. -/
theorem node_nil : m.node [] = some m.tree.root := rfl

/-- A level leads to a child. -/
theorem node_snoc (p : List Buffer) (t : Buffer) :
    m.node (p ++ [t]) = (m.node p).bind fun e => m.tree.child e.id t := FlatTree.node_snoc p t

/-- The nodes on the way to a node are there. -/
theorem isSome_on_path (h : p <+: q) (hq : (m.node q).isSome) : (m.node p).isSome :=
  FlatTree.isSome_on_path h hq

/-- What is found is in the container, under the key. -/
theorem directFind_mem (h : m.directFind i t = some e) :
    e ∈ m.map ∧ e.parentId = i ∧ e.name = t := by
  refine ⟨List.mem_of_find?_eq_some h, ?_⟩
  simpa using List.find?_some h

/-- A node is one of the entries. -/
theorem mem_of_node (h : m.node p = some e) (hroot : ∃ e ∈ m.map, e.parentId = rootParentId ∧
    e.name = []) : e ∈ m.map := by
  rcases List.eq_nil_or_concat' p with rfl | ⟨q, t, rfl⟩
  · rw [node_nil, tree] at h
    obtain rfl := Option.some.inj h
    cases hfind : m.directFind rootParentId [] with
    | none =>
      obtain ⟨e, he, hparent, hname⟩ := hroot
      have hnone := List.find?_eq_none.mp hfind e he
      exact absurd (by simp [hparent, hname]) hnone
    | some e => exact (directFind_mem hfind).1
  · obtain ⟨e', -, hchild⟩ := FlatTree.child_of_node_snoc h
    rw [tree] at hchild
    dsimp only at hchild
    split at hchild
    · exact nomatch hchild
    · exact (directFind_mem hchild).1

namespace WellFormed

/-- An entry is found under its key. -/
theorem directFind_iff (h : WellFormed m) :
    m.directFind i t = some e ↔ e ∈ m.map ∧ e.parentId = i ∧ e.name = t := by
  constructor
  · exact directFind_mem
  · rintro ⟨he, rfl, rfl⟩
    cases hfind : m.directFind e.parentId e.name with
    | none =>
      have hnone := List.find?_eq_none.mp hfind e he
      exact absurd (by simp) hnone
    | some e' =>
      obtain ⟨he', hparent, hname⟩ := directFind_mem hfind
      exact congrArg some (List.inj_on_of_nodup_map h.keys he' he (Prod.ext hparent hname))

/-- The root is one of the entries. -/
theorem root_mem (h : WellFormed m) : ∃ e ∈ m.map, e.parentId = rootParentId ∧ e.name = [] := by
  obtain ⟨e, he, hparent, -⟩ := h.root
  exact ⟨e, he, hparent, h.parent e he hparent⟩

/-- The entry of the root -/
theorem directFind_root (h : WellFormed m) :
    m.directFind rootParentId [] = some m.tree.root ∧ m.tree.root.id = rootNodeId := by
  obtain ⟨e, he, hparent, hid⟩ := h.root
  have hfind : m.directFind rootParentId [] = some e :=
    h.directFind_iff.mpr ⟨he, hparent, h.parent e he hparent⟩
  have hroot : m.tree.root = e := by
    rw [RetainedTopicMap.tree, hfind]
    rfl
  exact ⟨by rw [hfind, hroot], by rw [hroot, hid]⟩

/-- A node of a well-formed map is one of its entries. -/
theorem mem (h : WellFormed m) (he : m.node p = some e) : e ∈ m.map := mem_of_node he h.root_mem

/-- The children of an entry are found under its identifier. -/
theorem node_snoc_find (h : WellFormed m) (he : m.node p = some e) (t : Buffer) :
    m.node (p ++ [t]) = m.directFind e.id t := by
  rw [node_snoc, he]
  exact if_neg (h.id_lt e (h.mem he)).1

/-- Every entry is at the end of a path. -/
theorem exists_path (h : WellFormed m) (he : e ∈ m.map) : ∃ p, m.node p = some e := by
  by_cases hroot : e.parentId = rootParentId
  · refine ⟨[], ?_⟩
    have hfind := h.directFind_iff.mpr ⟨he, hroot, h.parent e he hroot⟩
    rw [node_nil, ← h.directFind_root.1, hfind]
  · have hchild : m.tree.child e.parentId e.name = some e := by
      show (if e.parentId = rootParentId then none else _) = _
      rw [if_neg hroot]
      exact h.directFind_iff.mpr ⟨he, rfl, rfl⟩
    obtain ⟨p, e', -, -, hnode⟩ := FlatTree.exists_node_snoc h.tree hchild
    exact ⟨p ++ [e.name], hnode⟩

/-- Entries at different paths are different. -/
theorem node_inj (h : WellFormed m) (hp : m.node p = some e) (hq : m.node q = some e')
    (heq : e.id = e'.id) : p = q :=
  FlatTree.node_inj h.tree hp hq heq

/-- Identifiers are unique. -/
theorem ids_nodup (h : WellFormed m) : (m.map.map RetainedEntry.id).Nodup := by
  refine List.Nodup.map_on (fun e he e' he' heq => ?_) (List.Nodup.of_map key h.keys)
  obtain ⟨p, hp⟩ := h.exists_path he
  obtain ⟨q, hq⟩ := h.exists_path he'
  obtain rfl := h.node_inj hp hq heq
  exact Option.some.inj (hp.symm.trans hq)

end WellFormed

/-! ### Entries are changed -/

/-- A change that leaves an entry where it is -/
structure Keeps (g : RetainedEntry V → RetainedEntry V) : Prop where
  key : ∀ e, key (g e) = key e
  id : ∀ e, (g e).id = e.id

/-- Every entry is changed. -/
def update (g : RetainedEntry V → RetainedEntry V) (m : RetainedTopicMap V) : RetainedTopicMap V :=
  { m with map := m.map.map g }

section Update

variable {g : RetainedEntry V → RetainedEntry V}

/-- A change leaves the entry where it is found. -/
theorem directFind_update (hg : Keeps g) (i : Nat) (t : Buffer) :
    (m.update g).directFind i t = (m.directFind i t).map g := by
  have hkey : ((fun e : RetainedEntry V => decide (e.parentId = i ∧ e.name = t)) ∘ g) =
      fun e => decide (e.parentId = i ∧ e.name = t) := by
    funext e
    obtain ⟨hparent, hname⟩ := Prod.mk.inj (hg.key e)
    simp only [Function.comp_apply, hparent, hname]
  unfold directFind update
  rw [List.find?_map, hkey]

/-- A change of the entries is one of the tree. -/
theorem tree_update (hg : Keeps g) (h : WellFormed m) : (m.update g).tree = m.tree.map g := by
  have hroot : (m.update g).tree.root = g m.tree.root := by
    rw [tree, directFind_update hg, h.directFind_root.1]
    rfl
  have hchild : (m.update g).tree.child = (m.tree.map g).child := by
    funext i t
    show (if i = rootParentId then none else (m.update g).directFind i t) =
      (if i = rootParentId then none else m.directFind i t).map g
    rw [directFind_update hg]
    split <;> rfl
  exact congrArg₂ FlatTree.mk hroot hchild

/-- After a change a path leads to the changed node. -/
theorem node_update (hg : Keeps g) (h : WellFormed m) (p : List Buffer) :
    (m.update g).node p = (m.node p).map g := by
  rw [node, tree_update hg h]
  exact FlatTree.node_map hg.id p

/-- A change leaves the identifiers. -/
theorem ids_update (hg : Keeps g) :
    (m.update g).map.map RetainedEntry.id = m.map.map RetainedEntry.id := by
  unfold update
  rw [List.map_map]
  exact List.map_congr_left fun e _ => hg.id e

/-- A change keeps the map well-formed. -/
theorem WellFormed.update (h : WellFormed m) (hg : Keeps g) : WellFormed (m.update g) := by
  -- the keys and the tree are kept, and the rest is read entry by entry
  constructor
  · have hkeys : (m.update g).map.map key = m.map.map key := by
      unfold RetainedTopicMap.update
      rw [List.map_map]
      exact List.map_congr_left fun e _ => hg.key e
    rw [hkeys]
    exact h.keys
  · obtain ⟨e, he, hparent, hid⟩ := h.root
    refine ⟨g e, List.mem_map_of_mem he, ?_, (hg.id e).trans hid⟩
    exact (Prod.mk.inj (hg.key e)).1.trans hparent
  · intro e' he' hparent
    obtain ⟨e, he, rfl⟩ := List.mem_map.mp he'
    obtain ⟨hp, hn⟩ := Prod.mk.inj (hg.key e)
    exact hn.trans (h.parent e he (hp.symm.trans hparent))
  · rw [tree_update hg h]
    exact h.tree.map hg.id
  · intro e' he'
    obtain ⟨e, he, rfl⟩ := List.mem_map.mp he'
    rw [hg.id]
    exact h.id_lt e he

/-- What an iterator points to is changed. -/
theorem modify_eq (id : Nat) (f : RetainedEntry V → RetainedEntry V) :
    m.modify id f = m.update fun e => if e.id = id then f e else e := rfl

/-- A change of one entry keeps the place of each. -/
theorem keeps_modify {id : Nat} {f : RetainedEntry V → RetainedEntry V}
    (hf : ∀ e, e.id = id → key (f e) = key e ∧ (f e).id = e.id) :
    Keeps fun e => if e.id = id then f e else e := by
  constructor
  · intro e
    split
    · next heq => exact (hf e heq).1
    · rfl
  · intro e
    split
    · next heq => exact (hf e heq).2
    · rfl

end Update

/-! ### A new entry -/

/-- The map with a new entry at the end. -/
def addLeaf (i : Nat) (t : Buffer) (m : RetainedTopicMap V) : RetainedTopicMap V :=
  { m with map := m.map ++ [⟨i, t, m.nextNodeId, none, 1⟩], nextNodeId := m.nextNodeId + 1 }

section AddLeaf

/-- The next identifier has not been used. -/
theorem WellFormed.fresh (h : WellFormed m) : m.tree.Fresh RetainedEntry.id m.nextNodeId := by
  constructor
  · obtain ⟨e, he, -⟩ := h.root
    exact (h.id_lt _ (h.mem node_nil)).2.ne
  · intro j s e he
    obtain ⟨p, -, -, -, hnode⟩ := FlatTree.exists_node_snoc h.tree he
    exact (h.id_lt e (h.mem hnode)).2.ne

/-- The new entry is found under its parent. -/
theorem directFind_addLeaf (hnone : m.directFind i t = none) (j : Nat) (s : Buffer) :
    (m.addLeaf i t).directFind j s =
      if j = i ∧ s = t then some ⟨i, t, m.nextNodeId, none, 1⟩ else m.directFind j s := by
  unfold directFind addLeaf
  rw [List.find?_append]
  by_cases heq : j = i ∧ s = t
  · obtain ⟨rfl, rfl⟩ := heq
    unfold directFind at hnone
    rw [hnone]
    simp
  · rw [if_neg heq]
    have hnew : ¬ (i = j ∧ t = s) := fun h => heq ⟨h.1.symm, h.2.symm⟩
    simp [hnew]

/-- A new entry is a new child. -/
theorem tree_addLeaf (h : WellFormed m) (he : m.node p = some e)
    (hnone : m.directFind e.id t = none) :
    (m.addLeaf e.id t).tree =
      m.tree.insert e.id t ⟨e.id, t, m.nextNodeId, none, 1⟩ := by
  have hne : e.id ≠ rootParentId := (h.id_lt e (h.mem he)).1
  have hroot : (m.addLeaf e.id t).tree.root = m.tree.root := by
    rw [tree, tree, directFind_addLeaf hnone, if_neg fun heq => hne heq.1.symm]
  have hchild : (m.addLeaf e.id t).tree.child =
      (m.tree.insert e.id t ⟨e.id, t, m.nextNodeId, none, 1⟩).child := by
    funext j s
    show (if j = rootParentId then none else (m.addLeaf e.id t).directFind j s) =
      if j = e.id ∧ s = t then some _ else if j = rootParentId then none else m.directFind j s
    rw [directFind_addLeaf hnone]
    by_cases hj : j = rootParentId
    · rw [if_pos hj, if_neg fun heq => hne (heq.1.symm.trans hj), if_pos hj]
    · rw [if_neg hj, if_neg hj]
  exact congrArg₂ FlatTree.mk hroot hchild

/-- After a new entry the longer path has a node. -/
theorem node_addLeaf (h : WellFormed m) (he : m.node p = some e)
    (hnone : m.directFind e.id t = none) (q : List Buffer) :
    (m.addLeaf e.id t).node q =
      if q = p ++ [t] then some ⟨e.id, t, m.nextNodeId, none, 1⟩ else m.node q := by
  rw [node, tree_addLeaf h he hnone]
  apply FlatTree.node_insert h.tree he
  · exact (if_neg (h.id_lt e (h.mem he)).1).trans hnone
  · exact h.fresh

/-- A new entry keeps the map well-formed. -/
theorem WellFormed.addLeaf (h : WellFormed m) (he : m.node p = some e)
    (hnone : m.directFind e.id t = none) : WellFormed (m.addLeaf e.id t) := by
  have hne : e.id ≠ rootParentId := (h.id_lt e (h.mem he)).1
  constructor
  · show ((m.map ++ [_]).map key).Nodup
    rw [List.map_append, List.nodup_append]
    refine ⟨h.keys, List.nodup_singleton _, ?_⟩
    intro k hk k' hk' heq
    obtain ⟨e', he', rfl⟩ := List.mem_map.mp hk
    obtain rfl := List.mem_singleton.mp hk'
    obtain ⟨hparent, hname⟩ := Prod.mk.inj heq
    have hsome := h.directFind_iff.mpr ⟨he', hparent, hname⟩
    exact nomatch hnone.symm.trans hsome
  · obtain ⟨e', he', hroot⟩ := h.root
    exact ⟨e', List.mem_append_left _ he', hroot⟩
  -- only the root has no parent
  · intro e' he' hparent
    rcases List.mem_append.mp he' with he' | he'
    · exact h.parent e' he' hparent
    · obtain rfl := List.mem_singleton.mp he'
      exact absurd hparent hne
  · rw [tree_addLeaf h he hnone]
    exact h.tree.insert he ((if_neg hne).trans hnone) h.fresh
  -- the identifiers stay below the next one, which is the one after that of the leaf
  · intro e' he'
    rcases List.mem_append.mp he' with he' | he'
    · obtain ⟨hid, hlt⟩ := h.id_lt e' he'
      exact ⟨hid, Nat.lt_succ_of_lt hlt⟩
    · obtain rfl := List.mem_singleton.mp he'
      have hlt := (h.id_lt e (h.mem he)).2
      exact ⟨Nat.ne_of_gt (Nat.zero_lt_of_lt hlt), Nat.lt_succ_self _⟩

end AddLeaf

/-! ### Entries are left out -/

/-- The map with some entries only. -/
def keep (k : RetainedEntry V → Bool) (m : RetainedTopicMap V) : RetainedTopicMap V :=
  { m with map := m.map.filter k }

section Keep

variable {k : RetainedEntry V → Bool}

/-- An entry that is kept is found. -/
theorem directFind_keep (h : WellFormed m) (i : Nat) (t : Buffer) :
    (m.keep k).directFind i t = (m.directFind i t).filter k := by
  apply Option.ext
  intro e
  rw [Option.filter_eq_some_iff, h.directFind_iff]
  unfold directFind keep
  constructor
  · intro hfind
    have hmem := List.mem_filter.mp (List.mem_of_find?_eq_some hfind)
    have hkey := List.find?_some hfind
    exact ⟨⟨hmem.1, by simpa using hkey⟩, hmem.2⟩
  · rintro ⟨⟨he, rfl, rfl⟩, hk⟩
    -- the same entry is found, since the key has no other one
    cases hfind : (m.map.filter k).find? fun e' => e'.parentId = e.parentId ∧ e'.name = e.name with
    | none =>
      have hnone := List.find?_eq_none.mp hfind e (List.mem_filter.mpr ⟨he, hk⟩)
      exact absurd (by simp) hnone
    | some e' =>
      have hmem := (List.mem_filter.mp (List.mem_of_find?_eq_some hfind)).1
      have hkey : e'.parentId = e.parentId ∧ e'.name = e.name := by
        simpa using List.find?_some hfind
      exact congrArg some
        (List.inj_on_of_nodup_map h.keys hmem he (Prod.ext hkey.1 hkey.2))

/-- Keeping some entries is keeping them in the tree. -/
theorem tree_keep (h : WellFormed m) (hroot : k m.tree.root) :
    (m.keep k).tree = m.tree.filter k := by
  have hroot' : (m.keep k).tree.root = m.tree.root := by
    rw [tree, directFind_keep h, h.directFind_root.1, Option.filter, if_pos hroot]
    rfl
  have hchild : (m.keep k).tree.child = (m.tree.filter k).child := by
    funext i t
    show (if i = rootParentId then none else (m.keep k).directFind i t) =
      (if i = rootParentId then none else m.directFind i t).filter k
    rw [directFind_keep h]
    split <;> rfl
  exact congrArg₂ FlatTree.mk hroot' hchild

/-- A path leads to its node as long as the node is kept. -/
theorem node_keep (h : WellFormed m) (hroot : k m.tree.root)
    (hclosed : m.tree.Closed RetainedEntry.id k) (p : List Buffer) :
    (m.keep k).node p = if p = [] then some m.tree.root else (m.node p).filter k := by
  rw [node, tree_keep h hroot]
  exact FlatTree.node_filter hclosed p

/-- Keeping entries that are closed upwards keeps the map well-formed. -/
theorem WellFormed.keep (h : WellFormed m) (hroot : k m.tree.root)
    (hclosed : m.tree.Closed RetainedEntry.id k) : WellFormed (m.keep k) := by
  constructor
  · exact h.keys.sublist (List.filter_sublist.map key)
  · obtain ⟨hfind, hid⟩ := h.directFind_root
    obtain ⟨hmem, hparent, -⟩ := directFind_mem hfind
    exact ⟨m.tree.root, List.mem_filter.mpr ⟨hmem, hroot⟩, hparent, hid⟩
  · exact fun e he => h.parent e (List.mem_filter.mp he).1
  · rw [tree_keep h hroot]
    exact h.tree.filter hclosed
  · exact fun e he => h.id_lt e (List.mem_filter.mp he).1

end Keep

end RetainedTopicMap

end AsyncMqtt
