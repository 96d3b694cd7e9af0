import AsyncMqtt.ForStd.CountedTree
import AsyncMqtt.ForStd.Except
import AsyncMqtt.Spec.SubscriptionTree

/-!
# Reference counts and flags of a subscription map

A subscription map holds a list of filters: `Represents` says that the nodes are their prefixes,
that each count is the number of filters at or below the node, and that the flags tell which wildcard
children there are. A filter is added level by level and taken away level by level, so that after
each of these steps the map holds a part of the filter beside the others.

## Key results

- `SubscriptionMapBase.Represents.createLevels`: a filter that is added
- `SubscriptionMapBase.Represents.increase`: one that is added along a path
- `SubscriptionMapBase.Represents.removeEntries`: one that is taken away
-/

namespace AsyncMqtt

namespace SubscriptionMapBase

open FlatTree (pathsAlong mem_pathsAlong pathsAlong_snoc not_prefix_snoc exists_prefix_snoc
  countP_snoc_self countP_snoc_ne)

variable {V : Type} [Inhabited V] {m : SubscriptionMapBase V}

/-- The map holds the filters `S`, and its values are `A`. -/
structure Represents (m : SubscriptionMapBase V) (S : List (List Buffer))
    (A : List Buffer → V) : Prop extends WellFormed m where
  isSome : ∀ p, p ≠ [] → ((m.node p).isSome ↔ ∃ f ∈ S, p <+: f)
  count : ∀ p e, p ≠ [] → m.node p = some e → e.count.value = S.countP fun f => p <+: f
  plus : ∀ p e, m.node p = some e → e.count.hasPlusChild = (m.node (p ++ [plusLevel])).isSome
  hash : ∀ p e, m.node p = some e → e.count.hasHashChild = (m.node (p ++ [hashLevel])).isSome
  value : ∀ p e, m.node p = some e → e.value = A p
  unused : ∀ p, m.node p = none → A p = default

namespace Represents

variable {S S' : List (List Buffer)} {A A' : List Buffer → V} {p f : List Buffer}
  {e : PathEntry V} {t : Buffer}

/-- A new map. -/
theorem make : Represents (make : SubscriptionMapBase V) [] fun _ => default := by
  -- the map has the root as its only entry
  have hlookup : ∀ key, (SubscriptionMapBase.make : SubscriptionMapBase V).map.lookup key =
      if key = rootKey then some ⟨rootNodeId, (0, []), ⟨1, false, false⟩, default⟩ else none := by
    intro key
    rw [SubscriptionMapBase.make, ← AList.insert_empty]
    split
    · next h => rw [h, AList.lookup_insert]
    · next h => rw [AList.lookup_insert_ne h, AList.lookup_empty]
  have hnext : (SubscriptionMapBase.make : SubscriptionMapBase V).nextNodeId = 2 := rfl
  generalize (SubscriptionMapBase.make : SubscriptionMapBase V) = m at hlookup hnext
  have hchild : ∀ i s, m.tree.child i s = none := by
    intro i s
    show (if (i, s) = rootKey then none else m.map.lookup (i, s)) = none
    rw [hlookup]
    split <;> rfl
  have hnode : ∀ p t, m.node (p ++ [t]) = none := by
    intro p t
    rw [node_snoc]
    cases m.node p with
    | none => rfl
    | some e => exact hchild _ _
  -- so a path with an entry is the empty one
  have hroot : ∀ p e, m.node p = some e →
      p = [] ∧ e = ⟨rootNodeId, (0, []), ⟨1, false, false⟩, default⟩ := by
    intro p e he
    rcases List.eq_nil_or_concat' p with rfl | ⟨q, t, rfl⟩
    · rw [node_nil, tree, hlookup, if_pos rfl] at he
      exact ⟨rfl, (Option.some.inj he).symm⟩
    · rw [hnode] at he
      cases he
  constructor
  · constructor
    · exact ⟨_, by rw [hlookup, if_pos rfl], rfl⟩
    · constructor
      · exact fun h => by cases (hchild _ _).symm.trans h
      · exact fun h => by cases (hchild _ _).symm.trans h
      · exact fun h => by cases (hchild _ _).symm.trans h
    · intro p e he
      obtain ⟨-, rfl⟩ := hroot p e he
      rw [hnext]
      exact ⟨Nat.le_succ 1, Nat.succ_ne_self 1 ∘ Eq.symm⟩
    · exact hnext ▸ Nat.le_refl 2
    · intro p t e he
      cases (hnode p t).symm.trans he
  · intro p hp
    rcases List.eq_nil_or_concat' p with rfl | ⟨q, t, rfl⟩
    · exact absurd rfl hp
    · simp [hnode]
  · intro p e hp he
    exact absurd (hroot p e he).1 hp
  · intro p e he
    obtain ⟨rfl, rfl⟩ := hroot p e he
    rw [hnode]
    rfl
  · intro p e he
    obtain ⟨rfl, rfl⟩ := hroot p e he
    rw [hnode]
    rfl
  · intro p e he
    obtain ⟨rfl, rfl⟩ := hroot p e he
    rfl
  · exact fun _ _ => rfl

/-- The order of the filters does not matter. -/
theorem perm (h : Represents m S A) (hS : S.Perm S') : Represents m S' A := by
  refine { h with isSome := fun p hp => ?_, count := fun p e hp he => ?_ }
  · rw [h.isSome p hp]
    simp only [hS.mem_iff]
  · rw [h.count p e hp he, hS.countP_eq]

/-- The root is below every filter. -/
theorem nil_cons : Represents m ([] :: S) A ↔ Represents m S A := by
  have hsome : ∀ p : List Buffer, p ≠ [] →
      ((∃ f ∈ [] :: S, p <+: f) ↔ ∃ f ∈ S, p <+: f) := by
    intro p hp
    simp [hp]
  have hcount : ∀ p : List Buffer, p ≠ [] →
      ([] :: S).countP (fun f => p <+: f) = S.countP fun f => p <+: f := by
    intro p hp
    simp [hp]
  constructor
  · intro h
    exact { h with
      isSome := fun p hp => (h.isSome p hp).trans (hsome p hp)
      count := fun p e hp he => (h.count p e hp he).trans (hcount p hp) }
  · intro h
    exact { h with
      isSome := fun p hp => (h.isSome p hp).trans (hsome p hp).symm
      count := fun p e hp he => (h.count p e hp he).trans (hcount p hp).symm }

/-- The entries of the root and of what is below a filter -/
theorem isSome_of_mem (h : Represents m S A) (hf : f ∈ S) : (m.node f).isSome := by
  by_cases hnil : f = []
  · subst hnil
    rfl
  · exact (h.isSome f hnil).mpr ⟨f, hf, List.prefix_refl f⟩

/-- Entries are changed, and none is created or erased. -/
theorem of_modified {m' : SubscriptionMapBase V} (h : Represents m S A) (hwf : WellFormed m')
    (hsome : ∀ q, (m'.node q).isSome = (m.node q).isSome)
    (hentry : ∀ q e', m'.node q = some e' → ∃ e, m.node q = some e ∧
      e'.count.hasPlusChild = e.count.hasPlusChild ∧
      e'.count.hasHashChild = e.count.hasHashChild ∧ e'.value = A' q ∧
      (q ≠ [] → e'.count.value = S'.countP fun f => q <+: f))
    (hS : ∀ q, q ≠ [] → ((∃ f ∈ S, q <+: f) ↔ ∃ f ∈ S', q <+: f))
    (hA : ∀ q, m.node q = none → A' q = default) : Represents m' S' A' := by
  refine { hwf with isSome := ?_, count := ?_, plus := ?_, hash := ?_, value := ?_, unused := ?_ }
  -- no node is there or gone
  · intro q hq
    rw [hsome, h.isSome q hq]
    exact hS q hq
  -- the count follows from that of before
  · intro q e' hq he'
    obtain ⟨e, -, -, -, -, hcount⟩ := hentry q e' he'
    exact hcount hq
  · intro q e' he'
    obtain ⟨e, he, hplus, -⟩ := hentry q e' he'
    rw [hplus, hsome]
    exact h.plus q e he
  · intro q e' he'
    obtain ⟨e, he, -, hhash, -⟩ := hentry q e' he'
    rw [hhash, hsome]
    exact h.hash q e he
  · intro q e' he'
    obtain ⟨e, -, -, -, hvalue, -⟩ := hentry q e' he'
    exact hvalue
  · intro q hq
    refine hA q ?_
    have hnone := hsome q
    rw [hq] at hnone
    exact Option.isSome_eq_false_iff.mp hnone.symm |> Option.isNone_iff_eq_none.mp

/-- The size does not matter. -/
theorem setMapSize (h : Represents m S A) (n : Nat) : Represents { m with mapSize := n } S A :=
  ⟨⟨h.root, h.tree, h.id_le, h.next, h.parent⟩, h.isSome, h.count, h.plus, h.hash, h.value, h.unused⟩

theorem isSome_modify {f : PathEntry V → PathEntry V} (h : WellFormed m) (hp : m.node p = some e)
    (hf : ∀ e, (f e).id = e.id) (q : List Buffer) :
    ((m.modify (m.keyAt p) f).node q).isSome = (m.node q).isSome := by
  rw [node_modify h hp hf]
  split
  · next heq => rw [heq, hp]; rfl
  · rfl

/-! ### A filter with one more level -/

/-- The next level has a node. -/
theorem increase_snoc (h : Represents m (p :: S) A) (hp : m.node (p ++ [t]) = some e)
    {f : PathEntry V → PathEntry V} (hf : ∀ e', (f e').id = e'.id ∧ (f e').parent = e'.parent)
    (hfe : f e = { e with count := { e.count with value := e.count.value + 1 } }) :
    Represents (m.modify (m.keyAt (p ++ [t])) f) ((p ++ [t]) :: S) A := by
  have hnode := node_modify h.toWellFormed hp (f := f) fun e' => (hf e').1
  have hwf := h.toWellFormed.modify hp (fun e' => (hf e').1) fun e' => (hf e').2
  apply h.of_modified hwf (isSome_modify h.toWellFormed hp fun e' => (hf e').1)
  -- the node of the level counts one path more
  · intro q e' he'
    rw [hnode] at he'
    split at he'
    · next heq =>
      subst heq
      obtain rfl := Option.some.inj he'
      refine ⟨e, hp, ?_⟩
      rw [hfe]
      refine ⟨rfl, rfl, h.value _ e hp, fun hq => ?_⟩
      rw [countP_snoc_self, ← h.count _ e hq hp]
    · next hne =>
      refine ⟨e', he', rfl, rfl, h.value q e' he', fun hq => ?_⟩
      rw [countP_snoc_ne hne, h.count q e' hq he']
  -- the path was counted before, or it ends in the new level
  · intro q hq
    rw [exists_prefix_snoc]
    constructor
    · exact .inr
    · rintro (rfl | hf)
      · exact (h.isSome _ hq).mp (by rw [hp]; rfl)
      · exact hf
  · exact h.unused

/-- The next level gets a node. -/
theorem addChild_snoc (h : Represents m (p :: S) A) (hp : m.node p = some e)
    (hnone : m.node (p ++ [t]) = none) :
    Represents ((m.addChild p t).modify (m.keyAt p) (setChildFlags t)) ((p ++ [t]) :: S) A := by
  have hwf₁ := h.toWellFormed.addChild hp hnone
  have hnode₁ := node_addChild h.toWellFormed hp hnone
  have hne : p ≠ p ++ [t] := fun heq => not_prefix_snoc p t (heq ▸ List.prefix_refl p)
  have hp₁ : (m.addChild p t).node p = some e := by rw [hnode₁, if_neg hne, hp]
  rw [← keyAt_addChild h.toWellFormed hp hnone (isSome_node_dropLast hp)]
  have hwf := hwf₁.modify hp₁ (f := setChildFlags t) (fun _ => rfl) fun _ => rfl
  have hnode := node_modify hwf₁ hp₁ (f := setChildFlags t) fun _ => rfl
  have hsome : ∀ q, (((m.addChild p t).modify ((m.addChild p t).keyAt p)
      (setChildFlags t)).node q).isSome = (q = p ++ [t] || (m.node q).isSome) := by
    intro q
    rw [isSome_modify hwf₁ hp₁ (f := setChildFlags t) fun _ => rfl, hnode₁]
    split
    · next heq => simp [heq]
    · next hq => simp [hq]
  -- the levels below a level without a node have none
  have hbelow : ∀ s, m.node (p ++ [t] ++ [s]) = none := by
    intro s
    rw [node_snoc, hnone]
    rfl
  have hcases : ∀ q e', ((m.addChild p t).modify ((m.addChild p t).keyAt p)
      (setChildFlags t)).node q = some e' → (q = p ∧ e' = setChildFlags t e) ∨
      (q = p ++ [t] ∧ e' = m.newEntry p) ∨ (q ≠ p ∧ q ≠ p ++ [t] ∧ m.node q = some e') := by
    intro q e' he'
    rw [hnode, hnode₁] at he'
    split at he'
    · next heq => exact .inl ⟨heq, (Option.some.inj he').symm⟩
    · next hq =>
      split at he'
      · next heq => exact .inr (.inl ⟨heq, (Option.some.inj he').symm⟩)
      · next hq' => exact .inr (.inr ⟨hq, hq', he'⟩)
  refine { hwf with isSome := ?_, count := ?_, plus := ?_, hash := ?_, value := ?_, unused := ?_ }
  · intro q hq
    rw [hsome, exists_prefix_snoc, Bool.or_eq_true_iff, decide_eq_true_iff, h.isSome q hq]
  · intro q e' hq he'
    rcases hcases q e' he' with ⟨rfl, rfl⟩ | ⟨rfl, rfl⟩ | ⟨-, hq', he'⟩
    · rw [countP_snoc_ne hne]
      exact h.count q e hq hp
    · rw [countP_snoc_self]
      have hzero : (p :: S).countP (fun f => (p ++ [t]) <+: f) = 0 := by
        rw [List.countP_eq_zero]
        intro f hf hpre
        have hsome' := (h.isSome _ hq).mpr ⟨f, hf, of_decide_eq_true hpre⟩
        rw [hnone] at hsome'
        exact nomatch hsome'
      rw [hzero]
      rfl
    · rw [countP_snoc_ne hq']
      exact h.count q e' hq he'
  · intro q e' he'
    rw [hsome]
    rcases hcases q e' he' with ⟨rfl, rfl⟩ | ⟨rfl, rfl⟩ | ⟨hq, -, he'⟩
    · have hold := h.plus q e hp
      show (e.count.hasPlusChild || decide (t = plusLevel)) = _
      rw [hold, Bool.or_comm]
      simp [eq_comm]
    · rw [hbelow]
      simp [newEntry]
    · rw [h.plus q e' he']
      simp [hq]
  · intro q e' he'
    rw [hsome]
    rcases hcases q e' he' with ⟨rfl, rfl⟩ | ⟨rfl, rfl⟩ | ⟨hq, -, he'⟩
    · have hold := h.hash q e hp
      show (e.count.hasHashChild || decide (t = hashLevel)) = _
      rw [hold, Bool.or_comm]
      simp [eq_comm]
    · rw [hbelow]
      simp [newEntry]
    · rw [h.hash q e' he']
      simp [hq]
  · intro q e' he'
    rcases hcases q e' he' with ⟨rfl, rfl⟩ | ⟨rfl, rfl⟩ | ⟨-, -, he'⟩
    · exact h.value q e hp
    · exact (h.unused _ hnone).symm
    · exact h.value q e' he'
  · intro q hq
    have hnone' := hsome q
    rw [hq] at hnone'
    cases hnode : m.node q with
    | none => exact h.unused q hnode
    | some e' => simp [hnode] at hnone'

/-- What is done at one level that is to be created: there is a map with one more level, in which the
    levels after it are created. -/
structure LevelCreated (m m₁ : SubscriptionMapBase V) (S : List (List Buffer))
    (A : List Buffer → V) (p : List Buffer) (t : Buffer) (e₁ : PathEntry V) : Prop where
  represents : Represents m₁ ((p ++ [t]) :: S) A
  node : m₁.node (p ++ [t]) = some e₁
  keyAt : m₁.keyAt (p ++ [t]) = m.keyAt (p ++ [t])
  mapSize : m₁.mapSize = m.mapSize
  nextNodeId : m₁.nextNodeId ≤ m.nextNodeId + 1
  stays : Extends m m₁

/-- A level that has no node gets one. -/
theorem levelCreated_new (h : Represents m (p :: S) A) (hp : m.node p = some e)
    (hnone : m.node (p ++ [t]) = none) :
    LevelCreated m ((m.addChild p t).modify (m.keyAt p) (setChildFlags t)) S A p t
      (m.newEntry p) := by
  have hwf := h.toWellFormed
  have hwf₁ := hwf.addChild hp hnone
  have hnode := node_addChild hwf hp hnone
  have hp₁ : (m.addChild p t).node p = some e := by rw [hnode, if_neg (by simp), hp]
  have hkey := keyAt_addChild hwf hp hnone (isSome_node_dropLast hp)
  have hnode₁ := node_modify hwf₁ hp₁ (f := setChildFlags t) fun _ => rfl
  have hkey₁ := keyAt_modify hwf₁ hp₁ (f := setChildFlags t) fun _ => rfl
  have hext := Extends.modify hwf₁ hp₁ (f := setChildFlags t) fun _ => rfl
  rw [hkey] at hnode₁ hkey₁ hext
  refine ⟨h.addChild_snoc hp hnone, ?_, ?_, modify_mapSize _, ?_, ?_⟩
  · rw [hnode₁, if_neg (by simp), hnode, if_pos rfl]
  · rw [hkey₁, keyAt_addChild hwf hp hnone (by rw [List.dropLast_concat, hp]; rfl)]
  · rw [modify_nextNodeId]
    exact Nat.le_refl _
  · exact (Extends.addChild hwf hp hnone).trans hext.1

/-- A level that has a node counts one more filter. -/
theorem levelCreated_old (h : Represents m (p :: S) A) (hp : m.node (p ++ [t]) = some e)
    {f : PathEntry V → PathEntry V} (hf : ∀ e', (f e').id = e'.id ∧ (f e').parent = e'.parent)
    (hfe : f e = { e with count := { e.count with value := e.count.value + 1 } }) :
    LevelCreated m (m.modify (m.keyAt (p ++ [t])) f) S A p t (f e) := by
  have hid : ∀ e', (f e').id = e'.id := fun e' => (hf e').1
  refine ⟨h.increase_snoc hp hf hfe, ?_, ?_, modify_mapSize _, ?_, ?_⟩
  · rw [node_modify h.toWellFormed hp hid, if_pos rfl]
  · exact keyAt_modify h.toWellFormed hp hid _
  · rw [modify_nextNodeId]
    exact Nat.le_succ _
  · exact (Extends.modify h.toWellFormed hp hid).1

/-- One turn of the callback of `create_topic_filter`. It is refused only if a counter has reached
    its limit. -/
theorem createLevels_cons (h : Represents m (p :: S) A) (hp : m.node p = some e) (t : Buffer)
    (ts : List Buffer) :
    (∃ m₁ e₁, LevelCreated m m₁ S A p t e₁ ∧
      SubscriptionMapBase.createLevels (m.keyAt p) e.id (t :: ts) m = (do
        let (path, m) ← SubscriptionMapBase.createLevels (m₁.keyAt (p ++ [t])) e₁.id ts m₁
        .ok (m₁.keyAt (p ++ [t]) :: path, m))) ∨
    (SubscriptionMapBase.createLevels (m.keyAt p) e.id (t :: ts) m = .error .maxStoredTopics ∧
      (m.nextNodeId = sizeMax ∨ CountStorage.max ≤ S.length)) := by
  have hwf := h.toWellFormed
  have hkey : m.keyAt (p ++ [t]) = (e.id, t) := keyAt_snoc hp t
  rw [SubscriptionMapBase.createLevels, ← hwf.node_snoc_lookup hp]
  -- the level has its node, or gets one
  cases hnode : m.node (p ++ [t]) with
  | none =>
    dsimp only
    unfold generateNodeId
    split
    · next hmax => exact .inr ⟨rfl, .inl hmax⟩
    · have hcreated := h.levelCreated_new hp hnode
      refine .inl ⟨_, _, hcreated, ?_⟩
      rw [hcreated.keyAt]
      unfold addChild
      rw [hkey]
      rfl
  | some e' =>
    dsimp only
    unfold CountStorage.increase
    split
    · next hmax =>
      refine .inr ⟨rfl, .inr ?_⟩
      rw [← hmax, h.count _ e' (by simp) hnode,
        List.countP_cons_of_neg (by simp [not_prefix_snoc])]
      exact List.countP_le_length
    · have hcreated := h.levelCreated_old hnode (f := fun entry => { entry with
        count := { e'.count with value := e'.count.value + 1 } }) (fun _ => ⟨rfl, rfl⟩) rfl
      refine .inl ⟨_, _, hcreated, ?_⟩
      rw [hcreated.keyAt, hkey]
      rfl

/-- `create_topic_filter`: the levels that are left are added to those that are there. -/
theorem createLevels {ts : List Buffer} (h : Represents m (p :: S) A) (hp : m.node p = some e) :
    (∃ path m', SubscriptionMapBase.createLevels (m.keyAt p) e.id ts m = .ok (path, m') ∧
      Represents m' ((p ++ ts) :: S) A ∧ path.getLastD (m.keyAt p) = m'.keyAt (p ++ ts) ∧
      m'.mapSize = m.mapSize ∧ m'.nextNodeId ≤ m.nextNodeId + ts.length ∧ Extends m m') ∨
    (SubscriptionMapBase.createLevels (m.keyAt p) e.id ts m = .error .maxStoredTopics ∧
      (sizeMax < m.nextNodeId + ts.length ∨ CountStorage.max ≤ S.length)) := by
  -- the induction is on the levels that are left, with the paths counted so far
  induction ts generalizing m p e with
  | nil =>
    refine .inl ⟨[], m, rfl, ?_, ?_, rfl, Nat.le_refl _, .refl m⟩
    · rw [List.append_nil]
      exact h
    · rw [List.append_nil]
      rfl
  | cons t ts ih =>
    rw [List.length_cons]
    rcases h.createLevels_cons hp t ts with ⟨m₁, e₁, hcreated, heq⟩ | ⟨heq, hlimit⟩
    · have hnext := hcreated.nextNodeId
      rw [heq]
      rcases ih hcreated.represents hcreated.node with
        ⟨path, m', hpath, hm', hlast, hsize, hnext', hext⟩ | ⟨herror, hlimit⟩
      · rw [hpath]
        rw [List.append_assoc] at hm' hlast
        refine .inl ⟨_, _, rfl, hm', ?_, hsize.trans hcreated.mapSize, by omega,
          hcreated.stays.trans hext⟩
        rw [List.getLastD_cons]
        exact hlast
      · rw [herror]
        exact .inr ⟨rfl, hlimit.imp_left fun hlt => by omega⟩
    · exact .inr ⟨heq, hlimit.imp_left fun hmax => by omega⟩

/-- `create_topic_filter` begins at the root. -/
theorem createLevels_root (h : Represents m S A) (he : m.node [] = some e) (ts : List Buffer) :
    (∃ path m', SubscriptionMapBase.createLevels rootKey e.id ts m = .ok (path, m') ∧
      Represents m' (ts :: S) A ∧ path.getLastD rootKey = m'.keyAt ts ∧
      m'.mapSize = m.mapSize ∧ m'.nextNodeId ≤ m.nextNodeId + ts.length ∧ Extends m m') ∨
    (SubscriptionMapBase.createLevels rootKey e.id ts m = .error .maxStoredTopics ∧
      (sizeMax < m.nextNodeId + ts.length ∨ CountStorage.max ≤ S.length)) :=
  (nil_cons.mpr h).createLevels he

/-! ### A filter with one level less -/

/-- The level stays, for other filters. -/
theorem decrease_snoc (h : Represents m ((p ++ [t]) :: S) A) (hp : m.node (p ++ [t]) = some e)
    (hS : ∃ f ∈ S, (p ++ [t]) <+: f) {f : PathEntry V → PathEntry V}
    (hf : ∀ e', f e' = { e' with count := e'.count.decrease }) :
    Represents (m.modify (m.keyAt (p ++ [t])) f) (p :: S) A := by
  have hid : ∀ e', (f e').id = e'.id := fun e' => by rw [hf]
  have hnode := node_modify h.toWellFormed hp hid
  have hwf := h.toWellFormed.modify hp hid fun e' => by rw [hf]
  apply h.of_modified hwf (isSome_modify h.toWellFormed hp hid)
  -- the node of the level counts one path less
  · intro q e' he'
    rw [hnode] at he'
    split at he'
    · next heq =>
      subst heq
      obtain rfl := Option.some.inj he'
      refine ⟨e, hp, ?_⟩
      rw [hf]
      refine ⟨rfl, rfl, h.value _ e hp, fun hq => ?_⟩
      show e.count.value - 1 = _
      rw [h.count _ e hq hp, countP_snoc_self, Nat.add_sub_cancel]
    · next hne =>
      refine ⟨e', he', rfl, rfl, h.value q e' he', fun hq => ?_⟩
      rw [← countP_snoc_ne hne, h.count q e' hq he']
  -- another path keeps the node
  · intro q hq
    rw [exists_prefix_snoc]
    constructor
    · rintro (rfl | hf)
      · obtain ⟨f, hf, hpre⟩ := hS
        exact ⟨f, List.mem_cons_of_mem _ hf, hpre⟩
      · exact hf
    · exact .inr
  · exact h.unused

/-- Nothing is below a level that has lost its last filter. -/
theorem isLeaf_snoc (h : Represents m ((p ++ [t]) :: S) A) (hS : ¬ ∃ f ∈ S, (p ++ [t]) <+: f) :
    m.IsLeaf (p ++ [t]) := by
  refine ⟨by simp, fun s => ?_⟩
  cases hnode : m.node (p ++ [t] ++ [s]) with
  | none => rfl
  | some e' =>
    obtain ⟨f, hf, hpre⟩ := (h.isSome (p ++ [t] ++ [s]) (by simp)).mp (by rw [hnode]; rfl)
    rcases List.mem_cons.mp hf with rfl | hf
    · exact absurd hpre (not_prefix_snoc _ s)
    · exact absurd ⟨f, hf, (List.prefix_append _ [s]).trans hpre⟩ hS

/-- The level goes with its last filter. -/
theorem eraseEntry_snoc (h : Represents m ((p ++ [t]) :: S) A)
    (hS : ¬ ∃ f ∈ S, (p ++ [t]) <+: f) (hA : A (p ++ [t]) = default) :
    Represents ((m.eraseEntry (p ++ [t])).modify (m.keyAt p)
      (clearChildFlags (t = plusLevel) (t = hashLevel))) (p :: S) A := by
  have hne : p ≠ p ++ [t] := fun heq => not_prefix_snoc p t (heq ▸ List.prefix_refl p)
  obtain ⟨e, he⟩ := Option.isSome_iff_exists.mp (h.isSome_of_mem (List.mem_cons_self ..))
  obtain ⟨e₀, hp, -⟩ := FlatTree.child_of_node_snoc he
  have hp : m.node p = some e₀ := hp
  -- no filter goes on below the level, so that it is a leaf
  have hleaf := h.isLeaf_snoc hS
  have hwf₁ := h.toWellFormed.eraseEntry he hleaf
  have hnode₁ := node_eraseEntry h.toWellFormed he hleaf
  have hp₁ : (m.eraseEntry (p ++ [t])).node p = some e₀ := by rw [hnode₁, if_neg hne, hp]
  -- the key of the parent does not change when a leaf below it is erased
  have hkey : (m.eraseEntry (p ++ [t])).keyAt p = m.keyAt p := by
    apply keyAt_eraseEntry h.toWellFormed he hleaf
    intro heq
    have hlen := congrArg List.length heq
    rw [List.length_dropLast, List.length_append, List.length_singleton] at hlen
    omega
  rw [← hkey]
  have hwf := hwf₁.modify hp₁ (f := clearChildFlags (t = plusLevel) (t = hashLevel))
    (fun _ => rfl) fun _ => rfl
  have hnode := node_modify hwf₁ hp₁ (f := clearChildFlags (t = plusLevel) (t = hashLevel))
    fun _ => rfl
  -- exactly the erased level is gone
  have hsome : ∀ q, (((m.eraseEntry (p ++ [t])).modify ((m.eraseEntry (p ++ [t])).keyAt p)
      (clearChildFlags (t = plusLevel) (t = hashLevel))).node q).isSome =
      (q ≠ p ++ [t] && (m.node q).isSome) := by
    intro q
    rw [isSome_modify hwf₁ hp₁ (f := clearChildFlags (t = plusLevel) (t = hashLevel))
      fun _ => rfl, hnode₁]
    split
    · next heq => simp [heq]
    · next hq => simp [hq]
  -- the parent has lost its flags for the child, every other level is as before
  have hcases : ∀ q e', ((m.eraseEntry (p ++ [t])).modify ((m.eraseEntry (p ++ [t])).keyAt p)
      (clearChildFlags (t = plusLevel) (t = hashLevel))).node q = some e' →
      (q = p ∧ e' = clearChildFlags (t = plusLevel) (t = hashLevel) e₀) ∨
      (q ≠ p ∧ q ≠ p ++ [t] ∧ m.node q = some e') := by
    intro q e' he'
    rw [hnode, hnode₁] at he'
    split at he'
    · next heq => exact .inl ⟨heq, (Option.some.inj he').symm⟩
    · next hq =>
      split at he'
      · exact nomatch he'
      · next hq' => exact .inr ⟨hq, hq', he'⟩
  refine { hwf with isSome := ?_, count := ?_, plus := ?_, hash := ?_, value := ?_, unused := ?_ }
  -- a level is needed by another filter exactly if it is needed by one of the rest
  · intro q hq
    rw [hsome, Bool.and_eq_true_iff, decide_eq_true_iff, h.isSome q hq, exists_prefix_snoc]
    constructor
    · rintro ⟨hne', heq | hf⟩
      · exact absurd heq hne'
      · exact hf
    · rintro ⟨f, hf, hpre⟩
      refine ⟨?_, .inr ⟨f, hf, hpre⟩⟩
      rintro rfl
      rcases List.mem_cons.mp hf with rfl | hf
      · exact not_prefix_snoc _ t hpre
      · exact hS ⟨f, hf, hpre⟩
  -- the count of a level is about the children, so that only the parent could differ
  · intro q e' hq he'
    rcases hcases q e' he' with ⟨rfl, rfl⟩ | ⟨-, hq', he'⟩
    · rw [← countP_snoc_ne hne]
      exact h.count q e₀ hq hp
    · rw [← countP_snoc_ne hq']
      exact h.count q e' hq he'
  · intro q e' he'
    rw [hsome]
    rcases hcases q e' he' with ⟨rfl, rfl⟩ | ⟨hq, -, he'⟩
    · have hold := h.plus q e₀ hp
      show (e₀.count.hasPlusChild && ! decide (t = plusLevel)) = _
      rw [hold, Bool.and_comm]
      simp [eq_comm]
    · rw [h.plus q e' he']
      simp [hq]
  · intro q e' he'
    rw [hsome]
    rcases hcases q e' he' with ⟨rfl, rfl⟩ | ⟨hq, -, he'⟩
    · have hold := h.hash q e₀ hp
      show (e₀.count.hasHashChild && ! decide (t = hashLevel)) = _
      rw [hold, Bool.and_comm]
      simp [eq_comm]
    · rw [h.hash q e' he']
      simp [hq]
  · intro q e' he'
    rcases hcases q e' he' with ⟨rfl, rfl⟩ | ⟨-, -, he'⟩
    · exact h.value q e₀ hp
    · exact h.value q e' he'
  · intro q hq
    by_cases hqp : q = p ++ [t]
    · rw [hqp, hA]
    · have hnone := hsome q
      rw [hq] at hnone
      cases hnode : m.node q with
      | none => exact h.unused q hnode
      | some e' => simp [hnode, hqp] at hnone

/-- No flag is cleared. -/
theorem clear_false (h : Represents m S A) (hp : m.node p = some e) :
    Represents (m.modify (m.keyAt p) (clearChildFlags false false)) S A := by
  have hclear : ∀ e' : PathEntry V, clearChildFlags false false e' = e' := by
    intro e'
    simp [clearChildFlags]
  have hnode := node_modify h.toWellFormed hp (f := clearChildFlags false false) fun _ => rfl
  apply h.of_modified
  · exact h.toWellFormed.modify hp (fun _ => rfl) fun _ => rfl
  · exact isSome_modify h.toWellFormed hp (f := clearChildFlags false false) fun _ => rfl
  · intro q e' he'
    rw [hnode, hclear] at he'
    have he : m.node q = some e' := by
      split at he'
      · next heq => rw [heq, hp, he']
      · exact he'
    exact ⟨e', he, rfl, rfl, h.value q e' he, fun hq => h.count q e' hq he⟩
  · exact fun _ _ => Iff.rfl
  · exact h.unused

/-- The keys along a path are those of a map that extends this one. -/
theorem map_keyAt_pathsAlong {m' : SubscriptionMapBase V} (hext : Extends m m')
    (hp : (m.node p).isSome) :
    (pathsAlong [] p).map m'.keyAt = (pathsAlong [] p).map m.keyAt := by
  apply List.map_congr_left
  intro q hq
  obtain ⟨r, -, hr, rfl⟩ := mem_pathsAlong.mp hq
  exact (hext _ (isSome_on_path hr hp)).2

/-- The loop of `remove_topic_filter`, from the last level up to the root. The flags that are still
    to be cleared are cleared in the hypothesis. -/
theorem removeEntries {a b : Bool} (hwf : WellFormed m) (hp : m.node p = some e)
    (h : Represents (m.modify (m.keyAt p) (clearChildFlags a b)) (p :: S) A)
    (hA : ∀ q, q <+: p → (¬ ∃ f ∈ S, q <+: f) → A q = default) :
    Represents (removeEntries a b ((pathsAlong [] p).map m.keyAt).reverse m) S A ∧
      Extends (removeEntries a b ((pathsAlong [] p).map m.keyAt).reverse m) m := by
  induction p using List.reverseRecOn generalizing m e a b with
  | nil =>
    refine ⟨nil_cons.mp h, ?_⟩
    exact (Extends.modify (p := []) hwf hp (f := clearChildFlags a b) fun _ => rfl).2
  | append_singleton p t ih =>
    obtain ⟨e₀, hp₀, -⟩ := FlatTree.child_of_node_snoc hp
    have hp₀ : m.node p = some e₀ := hp₀
    have hkey : m.keyAt (p ++ [t]) = (e₀.id, t) := keyAt_snoc hp₀ t
    have hstep : ∀ m₀ : SubscriptionMapBase V, Represents m₀ ((p ++ [t]) :: S) A →
        let m₁ := m₀.modify (m₀.keyAt (p ++ [t])) fun entry =>
          { entry with count := entry.count.decrease }
        let m' := if (m₁.map.lookup (m₀.keyAt (p ++ [t]))).any (·.count.value = 0) then
            SubscriptionMapBase.removeEntries (t = plusLevel) (t = hashLevel)
              ((pathsAlong [] p).map m₀.keyAt).reverse
              { m₁ with map := m₁.map.erase (m₀.keyAt (p ++ [t])) }
          else
            SubscriptionMapBase.removeEntries false false
              ((pathsAlong [] p).map m₀.keyAt).reverse m₁
        Represents m' S A ∧ Extends m' m₀ := by
      intro m₀ h m₁ m'
      obtain ⟨e, he⟩ := Option.isSome_iff_exists.mp (h.isSome_of_mem (List.mem_cons_self ..))
      obtain ⟨e₀, hp, -⟩ := FlatTree.child_of_node_snoc he
      have hp : m₀.node p = some e₀ := hp
      have hlookup := lookup_modify_self h.toWellFormed he
        (f := fun entry => { entry with count := entry.count.decrease })
      have hcount : e.count.decrease.value = S.countP fun f => (p ++ [t]) <+: f := by
        show e.count.value - 1 = _
        rw [h.count _ e (by simp) he, countP_snoc_self, Nat.add_sub_cancel]
        exact List.countP_cons_of_neg (by simp [not_prefix_snoc])
      have hif : (m₁.map.lookup (m₀.keyAt (p ++ [t]))).any (·.count.value = 0) =
          decide (¬ ∃ f ∈ S, (p ++ [t]) <+: f) := by
        rw [hlookup, Option.any_some, hcount]
        simp [List.countP_eq_zero]
      by_cases hS : ∃ f ∈ S, (p ++ [t]) <+: f
      · -- other filters keep the level
        have hm' : m' = SubscriptionMapBase.removeEntries false false
            ((pathsAlong [] p).map m₀.keyAt).reverse m₁ := if_neg (by simpa [hif] using hS)
        have h₁ : Represents m₁ (p :: S) A := h.decrease_snoc he hS fun _ => rfl
        have hext := Extends.modify h.toWellFormed he
          (f := fun entry => { entry with count := entry.count.decrease }) fun _ => rfl
        obtain ⟨hp₁, -⟩ := hext.1 p (by rw [hp]; rfl)
        obtain ⟨e₁, he₁⟩ := Option.isSome_iff_exists.mp hp₁
        have hih := ih h₁.toWellFormed he₁ (h₁.clear_false he₁)
          fun q hq => hA q (hq.trans (List.prefix_append p [t]))
        rw [map_keyAt_pathsAlong hext.1 (by rw [hp]; rfl), ← hm'] at hih
        exact ⟨hih.1, hih.2.trans hext.2⟩
      · -- the level goes, and the flag of its parent is cleared in the next turn
        have herase : { m₁ with map := m₁.map.erase (m₀.keyAt (p ++ [t])) } =
            m₀.eraseEntry (p ++ [t]) := erase_modify _
        have hm' : m' = SubscriptionMapBase.removeEntries (t = plusLevel) (t = hashLevel)
            ((pathsAlong [] p).map m₀.keyAt).reverse (m₀.eraseEntry (p ++ [t])) := by
          rw [← herase]
          exact if_pos (by simpa [hif] using hS)
        have hA' : A (p ++ [t]) = default := hA _ (List.prefix_refl _) hS
        have hleaf := h.isLeaf_snoc hS
        have hwf₁ := h.toWellFormed.eraseEntry he hleaf
        have hext := Extends.eraseEntry h.toWellFormed he hleaf
        have hp₁ : (m₀.eraseEntry (p ++ [t])).node p = some e₀ := by
          rw [node_eraseEntry h.toWellFormed he hleaf, if_neg (by simp), hp]
        have hkey := hext p (by rw [hp₁]; rfl)
        have hih := ih hwf₁ hp₁ (by rw [← hkey.2]; exact h.eraseEntry_snoc hS hA')
          fun q hq => hA q (hq.trans (List.prefix_append p [t]))
        rw [← map_keyAt_pathsAlong hext (by rw [hp₁]; rfl), ← hm'] at hih
        exact ⟨hih.1, hih.2.trans hext⟩
    -- the flags are cleared before the count is decreased
    have hext := Extends.modify hwf hp (f := clearChildFlags a b) fun _ => rfl
    have hkeys := map_keyAt_pathsAlong hext.1 (by rw [hp₀]; rfl : (m.node p).isSome)
    have hkey₁ := (hext.1 (p ++ [t]) (by rw [hp]; rfl)).2
    obtain ⟨hm', hext'⟩ := hstep _ h
    rw [hkeys, hkey₁, modify_modify, hkey] at hm' hext'
    rw [pathsAlong_snoc, List.map_append, List.reverse_append, List.map_singleton, List.nil_append,
      List.reverse_singleton, List.singleton_append, SubscriptionMapBase.removeEntries, hkey]
    rw [hkey] at hext
    exact ⟨hm', hext'.trans hext.2⟩

/-! ### A filter that has a node -/

/-- One more filter at an entry. -/
def counted (e : PathEntry V) : PathEntry V :=
  { e with count := { e.count with value := e.count.value + 1 } }

/-- `increase_subscriptions` counts at different paths. It is refused only if a count has reached its
    limit. -/
theorem increaseSubscriptions_node {qs : List (List Buffer)} (hwf : WellFormed m)
    (hqs : qs.Nodup) (hnode : ∀ q ∈ qs, (m.node q).isSome) :
    (∃ m', increaseSubscriptions (qs.map m.keyAt) m = .ok m' ∧ WellFormed m' ∧
      m'.mapSize = m.mapSize ∧ m'.nextNodeId = m.nextNodeId ∧ Extends m m' ∧ Extends m' m ∧
      ∀ q, m'.node q = (m.node q).map fun e => if q ∈ qs then counted e else e) ∨
    (increaseSubscriptions (qs.map m.keyAt) m = .error .maxStoredTopics ∧
      ∃ q ∈ qs, ∃ e, m.node q = some e ∧ e.count.value = CountStorage.max) := by
  induction qs generalizing m with
  | nil =>
    refine .inl ⟨m, rfl, hwf, rfl, rfl, .refl m, .refl m, fun q => ?_⟩
    simp
  -- the first path is counted, and the others are different from it
  | cons q qs ih =>
    obtain ⟨hq, hqs⟩ := List.nodup_cons.mp hqs
    obtain ⟨e, he⟩ := Option.isSome_iff_exists.mp (hnode q (List.mem_cons_self ..))
    rw [List.map_cons, increaseSubscriptions, hwf.lookup_keyAt he]
    dsimp only
    by_cases hmax : e.count.value = CountStorage.max
    · rw [CountStorage.increase, if_pos hmax]
      exact .inr ⟨rfl, q, List.mem_cons_self .., e, he, hmax⟩
    · have hcount : e.count.increase = .ok (counted e).count := if_neg hmax
      rw [hcount]
      show (∃ m', increaseSubscriptions (qs.map m.keyAt) (m.modify (m.keyAt q) fun e' =>
        { e' with count := (counted e).count }) = .ok m' ∧ _) ∨ (increaseSubscriptions
        (qs.map m.keyAt) (m.modify (m.keyAt q) fun e' => { e' with count := (counted e).count }) =
        .error .maxStoredTopics ∧ _)
      have hid : ∀ e' : PathEntry V,
          ({ e' with count := (counted e).count } : PathEntry V).id = e'.id := fun _ => rfl
      have hwf₁ := hwf.modify he hid fun _ => rfl
      have hext := Extends.modify hwf he hid
      have hnode₁ := node_modify hwf he hid
      have hsize := modify_mapSize (m := m) (m.keyAt q) (f := fun e' : PathEntry V =>
        { e' with count := (counted e).count })
      have hnext := modify_nextNodeId (m := m) (m.keyAt q) (f := fun e' : PathEntry V =>
        { e' with count := (counted e).count })
      -- counting leaves the keys of the other paths alone
      have hkeys : qs.map m.keyAt = qs.map (m.modify (m.keyAt q) fun e' =>
          { e' with count := (counted e).count }).keyAt :=
        List.map_congr_left fun q' _ => (keyAt_modify hwf he hid q').symm
      rw [hkeys]
      generalize (m.modify (m.keyAt q) fun e' => { e' with count := (counted e).count }) = m₁ at *
      rcases ih hwf₁ hqs (fun q' hq' => (hext.1 q' (hnode q' (List.mem_cons_of_mem _ hq'))).1) with
        ⟨m', hok, hwf', hsize', hnext', hext₁, hext₂, hnode'⟩ | ⟨herror, q', hq', e', he', hmax⟩
      · refine .inl ⟨m', hok, hwf', hsize'.trans hsize, hnext'.trans hnext,
          hext.1.trans hext₁, hext₂.trans hext.2, fun q' => ?_⟩
        rw [hnode', hnode₁]
        by_cases heq : q' = q
        · subst heq
          rw [if_pos rfl, he, Option.map_some, Option.map_some, if_neg hq,
            if_pos (List.mem_cons_self ..)]
          rfl
        · rw [if_neg heq]
          simp only [List.mem_cons, heq, false_or]
      · refine .inr ⟨herror, q', List.mem_cons_of_mem _ hq', e', ?_, hmax⟩
        rw [hnode₁, if_neg] at he'
        · exact he'
        · rintro rfl
          exact hq hq'

/-- The filter of a node is counted along the path to it. -/
theorem increase {qs : List (List Buffer)} (h : Represents m S A) (hqs : qs.Nodup)
    (hmem : ∀ q, q ∈ qs ↔ q ≠ [] ∧ q <+: f) (hf : (m.node f).isSome) :
    (∃ m', increaseSubscriptions (qs.map m.keyAt) m = .ok m' ∧ Represents m' (f :: S) A ∧
      m'.mapSize = m.mapSize ∧ m'.nextNodeId = m.nextNodeId ∧ Extends m m' ∧ Extends m' m) ∨
    (increaseSubscriptions (qs.map m.keyAt) m = .error .maxStoredTopics ∧
      CountStorage.max ≤ S.length) := by
  have hpre : ∀ q ∈ qs, (m.node q).isSome :=
    fun q hq => isSome_on_path ((hmem q).mp hq).2 hf
  rcases increaseSubscriptions_node h.toWellFormed hqs hpre with
    ⟨m', hok, hwf, hsize, hnext, hext₁, hext₂, hnode⟩ | ⟨herror, q, hq, e, he, hmax⟩
  · refine .inl ⟨m', hok, ?_, hsize, hnext, hext₁, hext₂⟩
    apply h.of_modified hwf
    · intro q
      rw [hnode, Option.isSome_map]
    -- the nodes on the path count one more
    · intro q e' he'
      rw [hnode] at he'
      obtain ⟨e, he, rfl⟩ := Option.map_eq_some_iff.mp he'
      refine ⟨e, he, ?_⟩
      by_cases hq : q ∈ qs
      · rw [if_pos hq]
        refine ⟨rfl, rfl, h.value q e he, fun hnil => ?_⟩
        rw [List.countP_cons_of_pos (by simpa using ((hmem q).mp hq).2), ← h.count q e hnil he]
        rfl
      · rw [if_neg hq]
        refine ⟨rfl, rfl, h.value q e he, fun hnil => ?_⟩
        rw [List.countP_cons_of_neg (by simpa using fun hp => hq ((hmem q).mpr ⟨hnil, hp⟩)),
          ← h.count q e hnil he]
    -- the new path is among the counted ones
    · intro q hq
      rw [List.exists_mem_cons_iff]
      constructor
      · exact .inr
      · rintro (hqf | hS)
        · exact (h.isSome q hq).mp (isSome_on_path hqf hf)
        · exact hS
    · exact h.unused
  · refine .inr ⟨herror, ?_⟩
    rw [← hmax, h.count q e ((hmem q).mp hq).1 he]
    exact List.countP_le_length

/-- What an entry holds is changed. -/
theorem modifyValue {g : V → V} (h : Represents m S A) (hp : m.node p = some e) :
    Represents (m.modify (m.keyAt p) fun entry => { entry with value := g entry.value }) S
      (Function.update A p (g (A p))) := by
  have hid : ∀ e' : PathEntry V, ({ e' with value := g e'.value } : PathEntry V).id = e'.id :=
    fun _ => rfl
  have hnode := node_modify h.toWellFormed hp hid
  apply h.of_modified
  · exact h.toWellFormed.modify hp hid fun _ => rfl
  · exact isSome_modify h.toWellFormed hp hid
  · intro q e' he'
    rw [hnode] at he'
    split at he'
    · next heq =>
      subst heq
      obtain rfl := Option.some.inj he'
      refine ⟨e, hp, rfl, rfl, ?_, fun hq => h.count q e hq hp⟩
      rw [Function.update_self, h.value q e hp]
    · next hne =>
      refine ⟨e', he', rfl, rfl, ?_, fun hq => h.count q e' hq he'⟩
      rw [Function.update_of_ne hne]
      exact h.value q e' he'
  · exact fun _ _ => Iff.rfl
  · intro q hq
    rw [Function.update_of_ne]
    · exact h.unused q hq
    · rintro rfl
      exact nomatch hq.symm.trans hp

end Represents

end SubscriptionMapBase

end AsyncMqtt
