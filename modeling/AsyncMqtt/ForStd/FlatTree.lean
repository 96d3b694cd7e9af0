import Mathlib.Data.List.Infix
import Mathlib.Data.List.Induction

/-!
# Trees whose nodes stand in one table

A tree that is stored flat: every node has an identity, and one table gives the child of the node
with an identity along a label. `FlatTree.node` follows a path of labels from the root. Changes of
the table are changes at one path of the tree, as long as identities are unique.

## Key results

- `FlatTree.node_inj`: two paths do not lead to one node
- `FlatTree.node_map`, `FlatTree.node_insert`, `FlatTree.node_filter`: the tree after a change
-/

/-- A root, and the child of the node with an identity along a label. -/
structure FlatTree (L N : Type) where
  root : N
  child : Nat → L → Option N

namespace FlatTree

variable {L N : Type} {ident : N → Nat} {T : FlatTree L N}

/-- The node at the end of a path from a node. -/
def nodeFrom (ident : N → Nat) (T : FlatTree L N) (n : N) : List L → Option N
  | [] => some n
  | t :: ts => (T.child (ident n) t).bind fun n' => nodeFrom ident T n' ts

/-- The node at the end of a path from the root. -/
def node (ident : N → Nat) (T : FlatTree L N) (p : List L) : Option N := T.nodeFrom ident T.root p

/-- The empty path leads to the root. -/
@[simp] theorem node_nil : T.node ident [] = some T.root := rfl

/-- A longer path goes on where the shorter one ends. -/
theorem nodeFrom_append (n : N) (p q : List L) :
    T.nodeFrom ident n (p ++ q) = (T.nodeFrom ident n p).bind fun n' => T.nodeFrom ident n' q := by
  induction p generalizing n with
  | nil => rfl
  | cons t ts ih =>
    simp only [List.cons_append, nodeFrom]
    cases T.child (ident n) t with
    | none => rfl
    | some n' => exact ih n'

/-- A longer path from the root -/
theorem node_append (p q : List L) :
    T.node ident (p ++ q) = (T.node ident p).bind fun n => T.nodeFrom ident n q :=
  nodeFrom_append T.root p q

/-- The last step of a path. -/
theorem node_snoc (p : List L) (t : L) :
    T.node ident (p ++ [t]) = (T.node ident p).bind fun n => T.child (ident n) t := by
  rw [node_append]
  congr 1
  funext n
  simp [nodeFrom]

/-- There is a node at every prefix of a path to a node. -/
theorem isSome_on_path {p q : List L} (h : p <+: q) (hq : (T.node ident q).isSome) :
    (T.node ident p).isSome := by
  obtain ⟨r, rfl⟩ := h
  rw [node_append] at hq
  cases hp : T.node ident p with
  | none => simp [hp] at hq
  | some n => rfl

/-- Identities are unique, and every entry of the table belongs to a node of the tree. -/
structure Wf (ident : N → Nat) (T : FlatTree L N) : Prop where
  ne_root : ∀ {i t n}, T.child i t = some n → ident n ≠ ident T.root
  unique : ∀ {i t n j s m}, T.child i t = some n → T.child j s = some m → ident n = ident m →
    i = j ∧ t = s
  reached : ∀ {i t n}, T.child i t = some n → ∃ p m, T.node ident p = some m ∧ ident m = i

/-- A node that is not the root is a child. -/
theorem child_of_node_snoc {p : List L} {t : L} {n : N} (h : T.node ident (p ++ [t]) = some n) :
    ∃ m, T.node ident p = some m ∧ T.child (ident m) t = some n := by
  rw [node_snoc] at h
  exact Option.bind_eq_some_iff.mp h

/-- Two paths do not lead to one node. -/
theorem node_inj (hT : T.Wf ident) {p q : List L} {n m : N} (hp : T.node ident p = some n)
    (hq : T.node ident q = some m) (heq : ident n = ident m) : p = q := by
  induction p using List.reverseRecOn generalizing q n m with
  | nil =>
    obtain rfl : T.root = n := Option.some.inj hp
    rcases List.eq_nil_or_concat' q with rfl | ⟨q', s, rfl⟩
    · rfl
    · obtain ⟨_, _, hchild⟩ := child_of_node_snoc hq
      exact absurd heq.symm (hT.ne_root hchild)
  | append_singleton p t ih =>
    obtain ⟨n', hn', hchild⟩ := child_of_node_snoc hp
    rcases List.eq_nil_or_concat' q with rfl | ⟨q', s, rfl⟩
    · obtain rfl : T.root = m := Option.some.inj hq
      exact absurd heq (hT.ne_root hchild)
    · obtain ⟨m', hm', hchild'⟩ := child_of_node_snoc hq
      obtain ⟨hparent, rfl⟩ := hT.unique hchild hchild' heq
      rw [ih hn' hm' hparent]

/-- The path to an entry of the table. -/
theorem exists_node_snoc (hT : T.Wf ident) {i : Nat} {t : L} {n : N}
    (h : T.child i t = some n) :
    ∃ p m, T.node ident p = some m ∧ ident m = i ∧ T.node ident (p ++ [t]) = some n := by
  obtain ⟨p, m, hm, rfl⟩ := hT.reached h
  refine ⟨p, m, hm, rfl, ?_⟩
  rw [node_snoc, hm]
  exact h

/-! ### Changes of the nodes -/

/-- Every node is changed. -/
def map (g : N → N) (T : FlatTree L N) : FlatTree L N :=
  ⟨g T.root, fun i t => (T.child i t).map g⟩

/-- A change of the nodes that leaves their identifiers is one along each path. -/
theorem node_map {g : N → N} (hg : ∀ n, ident (g n) = ident n) (p : List L) :
    (T.map g).node ident p = (T.node ident p).map g := by
  induction p using List.reverseRecOn with
  | nil => rfl
  | append_singleton p t ih =>
    rw [node_snoc, node_snoc, ih]
    cases T.node ident p with
    | none => rfl
    | some n => simp [map, hg]

/-- A change of the nodes keeps the tree well-formed. -/
theorem Wf.map (hT : T.Wf ident) {g : N → N} (hg : ∀ n, ident (g n) = ident n) :
    (T.map g).Wf ident where
  ne_root h := by
    obtain ⟨n, hn, rfl⟩ := Option.map_eq_some_iff.mp h
    rw [hg, FlatTree.map, hg]
    exact hT.ne_root hn
  unique h h' heq := by
    obtain ⟨n, hn, rfl⟩ := Option.map_eq_some_iff.mp h
    obtain ⟨m, hm, rfl⟩ := Option.map_eq_some_iff.mp h'
    rw [hg, hg] at heq
    exact hT.unique hn hm heq
  reached h := by
    obtain ⟨n, hn, rfl⟩ := Option.map_eq_some_iff.mp h
    obtain ⟨p, m, hm, hident⟩ := hT.reached hn
    exact ⟨p, g m, by rw [node_map hg, hm]; rfl, (hg m).trans hident⟩

/-! ### A new leaf -/

/-- No node has this identity. -/
def Fresh (ident : N → Nat) (T : FlatTree L N) (k : Nat) : Prop :=
  ident T.root ≠ k ∧ ∀ j s m, T.child j s = some m → ident m ≠ k

/-- A node does not have a fresh identifier. -/
theorem Fresh.node {k : Nat} (h : T.Fresh ident k) {p : List L} {m : N}
    (hm : T.node ident p = some m) : ident m ≠ k := by
  rcases List.eq_nil_or_concat' p with rfl | ⟨p', t, rfl⟩
  · exact Option.some.inj hm ▸ h.1
  · obtain ⟨m', -, hchild⟩ := child_of_node_snoc hm
    exact h.2 _ _ _ hchild

/-- The new leaf has no children. -/
theorem Fresh.child (hT : T.Wf ident) {k : Nat} (h : T.Fresh ident k) (s : L) :
    T.child k s = none := by
  cases hchild : T.child k s with
  | none => rfl
  | some n' =>
    obtain ⟨p, m, hm, hident⟩ := hT.reached hchild
    exact absurd hident (h.node hm)

variable [DecidableEq L]

/-- A new child. -/
def insert (i : Nat) (t : L) (n : N) (T : FlatTree L N) : FlatTree L N :=
  { T with child := fun j s => if j = i ∧ s = t then some n else T.child j s }

variable {p : List L} {t : L} {m n : N}

/-- After a new node the longer path leads to it, and the others to where they did. -/
theorem node_insert (hT : T.Wf ident) (hp : T.node ident p = some m)
    (hnone : T.child (ident m) t = none) (hfresh : T.Fresh ident (ident n)) (q : List L) :
    (T.insert (ident m) t n).node ident q = if q = p ++ [t] then some n else T.node ident q := by
  induction q using List.reverseRecOn with
  | nil => rw [if_neg (by simp)]; rfl
  | append_singleton q s ih =>
    rw [node_snoc, ih]
    by_cases hq : q = p ++ [t]
    · -- below the new leaf, there is nothing
      have hne : q ++ [s] ≠ p ++ [t] := by
        intro heq
        have hlen := congrArg List.length heq
        rw [hq] at hlen
        simp at hlen
      have hbelow : T.node ident (q ++ [s]) = none := by
        rw [node_snoc, hq, node_snoc, hp, Option.bind_some, hnone]
        rfl
      have hident : ident n ≠ ident m := (hfresh.node hp).symm
      rw [if_pos hq, if_neg hne, hbelow, Option.bind_some, insert]
      simp [hident, hfresh.child hT]
    · rw [if_neg hq, node_snoc]
      cases hnode : T.node ident q with
      -- a path whose beginning leads nowhere cannot be the new one
      | none =>
        rw [if_neg]
        · rfl
        · intro heq
          obtain ⟨rfl, -⟩ := List.append_inj' heq rfl
          exact Option.some_ne_none m (hp.symm.trans hnode)
      | some m' =>
        simp only [Option.bind_some, insert]
        -- the new leaf hangs below one node only, under one label
        by_cases heq : q ++ [s] = p ++ [t]
        · obtain ⟨rfl, hs⟩ := List.append_inj' heq rfl
          obtain rfl : m' = m := Option.some.inj (hnode.symm.trans hp)
          simp_all
        · rw [if_neg heq, if_neg]
          rintro ⟨hident, rfl⟩
          exact heq (by rw [node_inj hT hnode hp hident])

/-- A new node keeps the tree well-formed. -/
theorem Wf.insert (hT : T.Wf ident) (hp : T.node ident p = some m)
    (hnone : T.child (ident m) t = none) (hfresh : T.Fresh ident (ident n)) :
    (T.insert (ident m) t n).Wf ident := by
  -- an edge is the new one or was there before
  have hcases : ∀ {i s n'}, (T.insert (ident m) t n).child i s = some n' →
      (i = ident m ∧ s = t ∧ n' = n) ∨ T.child i s = some n' := by
    intro i s n' h
    rw [FlatTree.insert] at h
    dsimp only at h
    split at h
    · next heq => exact .inl ⟨heq.1, heq.2, (Option.some.inj h).symm⟩
    · exact .inr h
  have hnode : ∀ {q m'}, T.node ident q = some m' →
      (T.insert (ident m) t n).node ident q = some m' := by
    intro q m' hq
    rw [node_insert hT hp hnone hfresh, if_neg, hq]
    rintro rfl
    rw [node_snoc, hp, Option.bind_some, hnone] at hq
    exact nomatch hq
  -- no edge leads to the root
  constructor
  · intro i s n' h
    rcases hcases h with ⟨-, -, rfl⟩ | h
    · exact hfresh.1.symm
    · exact hT.ne_root h
  -- no two edges lead to one node
  · intro i s n' j r m' h h' heq
    rcases hcases h with ⟨hi, hs, hn⟩ | hold <;> rcases hcases h' with ⟨hj, hr, hm⟩ | hold'
    · exact ⟨hi.trans hj.symm, hs.trans hr.symm⟩
    · exact absurd (hn ▸ heq.symm) (hfresh.2 _ _ _ hold')
    · exact absurd (hm ▸ heq) (hfresh.2 _ _ _ hold)
    · exact hT.unique hold hold' heq
  -- every parent can be reached from the root
  · intro i s n' h
    rcases hcases h with ⟨rfl, -, -⟩ | h
    · exact ⟨p, m, hnode hp, rfl⟩
    · obtain ⟨q, m', hq, hident⟩ := hT.reached h
      exact ⟨q, m', hnode hq, hident⟩

omit [DecidableEq L]

/-! ### Nodes that are taken out -/

/-- Only the nodes that satisfy `keep` stay, and the root. -/
def filter (keep : N → Bool) (T : FlatTree L N) : FlatTree L N :=
  { T with child := fun i t => (T.child i t).filter keep }

/-- With a node that stays, its parent stays. -/
def Closed (ident : N → Nat) (T : FlatTree L N) (keep : N → Bool) : Prop :=
  ∀ p t m n, p ≠ [] → T.node ident p = some m → T.node ident (p ++ [t]) = some n → keep n → keep m

/-- A path leads to its node as long as the node is kept. -/
theorem node_filter {keep : N → Bool} (hkeep : T.Closed ident keep) (p : List L) :
    (T.filter keep).node ident p =
      if p = [] then some T.root else (T.node ident p).filter keep := by
  induction p using List.reverseRecOn with
  | nil => rfl
  | append_singleton p t ih =>
    rw [node_snoc, ih, if_neg (by simp : p ++ [t] ≠ [])]
    by_cases hp : p = []
    · rw [if_pos hp, node_snoc, hp]
      rfl
    · rw [if_neg hp]
      cases hnode : T.node ident p with
      | none => rw [node_snoc, hnode]; rfl
      | some m =>
        rw [node_snoc, hnode]
        simp only [Option.bind_some, Option.filter_some]
        cases hm : keep m with
        | true => rfl
        | false =>
          -- nothing stays below a node that goes
          rw [if_neg Bool.false_ne_true, Option.bind_none]
          cases hchild : T.child (ident m) t with
          | none => rfl
          | some n =>
            have hn : T.node ident (p ++ [t]) = some n := by rw [node_snoc, hnode]; exact hchild
            have hgone : keep n = false := by
              cases hkn : keep n with
              | false => rfl
              | true => exact absurd (hkeep p t m n hp hnode hn hkn) (by rw [hm]; exact nofun)
            rw [Option.filter, hgone]
            rfl

/-- Keeping nodes that are closed upwards keeps the tree well-formed. -/
theorem Wf.filter (hT : T.Wf ident) {keep : N → Bool} (hkeep : T.Closed ident keep) :
    (T.filter keep).Wf ident := by
  have hcases : ∀ {i t n}, (T.filter keep).child i t = some n →
      T.child i t = some n ∧ keep n := fun h => Option.filter_eq_some_iff.mp h
  constructor
  · exact fun h => hT.ne_root (hcases h).1
  · exact fun h h' heq => hT.unique (hcases h).1 (hcases h').1 heq
  · intro i t n h
    obtain ⟨hchild, hn⟩ := hcases h
    obtain ⟨p, m, hm, hident, hnode⟩ := exists_node_snoc hT hchild
    refine ⟨p, m, ?_, hident⟩
    rw [node_filter hkeep]
    by_cases hp : p = []
    · rw [if_pos hp, ← hm, hp]
      rfl
    · rw [if_neg hp, hm]
      rw [Option.filter, if_pos (hkeep p t m n hp hm hnode hn)]

/-! ### The paths along a path -/

/-- The paths that one comes by on the way from a path. -/
def pathsAlong (p : List L) : List L → List (List L)
  | [] => []
  | t :: ts => (p ++ [t]) :: pathsAlong (p ++ [t]) ts

/-- The paths on the way are the longer ones that begin the whole. -/
theorem mem_pathsAlong {p ts q : List L} :
    q ∈ pathsAlong p ts ↔ ∃ r, r ≠ [] ∧ r <+: ts ∧ q = p ++ r := by
  induction ts generalizing p with
  | nil => simp [pathsAlong]
  | cons t ts ih =>
    rw [pathsAlong, List.mem_cons, ih]
    constructor
    · rintro (rfl | ⟨r, hr, hpre, rfl⟩)
      · exact ⟨[t], by simp, by simp, rfl⟩
      · exact ⟨t :: r, by simp, by simpa using hpre, by simp⟩
    · rintro ⟨r, hr, hpre, rfl⟩
      cases r with
      | nil => exact absurd rfl hr
      | cons s r =>
        obtain ⟨rfl, htail⟩ := List.cons_prefix_cons.mp hpre
        by_cases hnil : r = []
        · subst hnil
          exact .inl rfl
        · exact .inr ⟨r, hnil, htail, by simp⟩

/-- The paths on the way differ. -/
theorem nodup_pathsAlong (p ts : List L) : (pathsAlong p ts).Nodup := by
  induction ts generalizing p with
  | nil => exact List.nodup_nil
  | cons t ts ih =>
    refine List.nodup_cons.mpr ⟨fun hmem => ?_, ih _⟩
    obtain ⟨r, hr, -, heq⟩ := mem_pathsAlong.mp hmem
    exact hr (List.append_right_eq_self.mp heq.symm)

/-- The last path on the way is the whole. -/
theorem pathsAlong_snoc (p ts : List L) (t : L) :
    pathsAlong p (ts ++ [t]) = pathsAlong p ts ++ [p ++ (ts ++ [t])] := by
  induction ts generalizing p with
  | nil => rfl
  | cons s ts ih =>
    rw [List.cons_append, pathsAlong, ih, pathsAlong]
    simp

/-- There are as many paths on the way as levels. -/
theorem length_pathsAlong (p ts : List L) : (pathsAlong p ts).length = ts.length := by
  induction ts generalizing p with
  | nil => rfl
  | cons t ts ih => simp [pathsAlong, ih]

/-- The way ends with the whole path. -/
theorem getLast?_pathsAlong (p : List L) {ts : List L} (h : ts ≠ []) :
    (pathsAlong p ts).getLast? = some (p ++ ts) := by
  rcases List.eq_nil_or_concat' ts with rfl | ⟨ts', t, rfl⟩
  · exact absurd rfl h
  · rw [pathsAlong_snoc, List.getLast?_concat]

/-- From the root, the paths along a path are its non-empty prefixes. -/
theorem mem_pathsAlong_nil {p q : List L} : q ∈ pathsAlong [] p ↔ q ≠ [] ∧ q <+: p := by
  rw [mem_pathsAlong]
  constructor
  · rintro ⟨r, hr, hpre, rfl⟩
    exact ⟨hr, hpre⟩
  · exact fun ⟨hq, hpre⟩ => ⟨q, hq, hpre, rfl⟩

end FlatTree
