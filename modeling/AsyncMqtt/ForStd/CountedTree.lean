import Mathlib.Data.List.Dedup
import AsyncMqtt.ForStd.FlatTree

/-!
# Trees with reference counts

A flat tree holds a list of paths if its nodes are the prefixes of these paths and each node counts
the paths that go through it. A path is added level by level, or along nodes that are there, and
taken away by counting down along it and leaving out what has come to zero.

## Key results

- `FlatTree.Counted.map_snoc`, `FlatTree.Counted.insert_snoc`: one level that is added
- `FlatTree.Counted.map_path`: a path along nodes that are there
- `FlatTree.Counted.filter_path`: a path that is taken away
-/

namespace FlatTree

variable {L N : Type} [DecidableEq L] {ident count : N → Nat} {T : FlatTree L N}
  {S S' : List (List L)} {p q f : List L} {t : L} {m n : N}

/-! ### Lists of paths -/

omit [DecidableEq L] in
theorem not_prefix_snoc (p : List L) (t : L) : ¬ (p ++ [t]) <+: p := by
  intro h
  have hle := h.length_le
  rw [List.length_append, List.length_singleton] at hle
  omega

omit [DecidableEq L] in
theorem exists_prefix_snoc :
    (∃ f ∈ (p ++ [t]) :: S, q <+: f) ↔ q = p ++ [t] ∨ ∃ f ∈ p :: S, q <+: f := by
  simp only [List.exists_mem_cons_iff, List.prefix_concat_iff, or_assoc]

theorem countP_snoc_self :
    ((p ++ [t]) :: S).countP (fun f => (p ++ [t]) <+: f) =
      (p :: S).countP (fun f => (p ++ [t]) <+: f) + 1 := by
  rw [List.countP_cons, List.countP_cons, if_pos (by simp), if_neg (by simp [not_prefix_snoc])]

theorem countP_snoc_ne (h : q ≠ p ++ [t]) :
    ((p ++ [t]) :: S).countP (fun f => q <+: f) = (p :: S).countP (fun f => q <+: f) := by
  rw [List.countP_cons, List.countP_cons]
  simp [List.prefix_concat_iff, h]

/-- The distinct non-empty prefixes of the paths -/
def prefixes (S : List (List L)) : List (List L) := (S.flatMap (pathsAlong [])).dedup

theorem mem_prefixes : q ∈ prefixes S ↔ q ≠ [] ∧ ∃ f ∈ S, q <+: f := by
  unfold prefixes
  rw [List.mem_dedup, List.mem_flatMap]
  simp only [mem_pathsAlong_nil]
  tauto

theorem nodup_prefixes (S : List (List L)) : (prefixes S).Nodup := List.nodup_dedup _

/-! ### Trees that hold paths -/

/-- The nodes are the prefixes of the paths, and they are counted. -/
structure Counted (ident count : N → Nat) (T : FlatTree L N) (S : List (List L)) : Prop where
  isSome : ∀ p, p ≠ [] → ((T.node ident p).isSome ↔ ∃ f ∈ S, p <+: f)
  count : ∀ p n, p ≠ [] → T.node ident p = some n → count n = S.countP fun f => p <+: f

namespace Counted

/-- The order of the paths does not matter. -/
theorem perm (h : Counted ident count T S) (hS : S.Perm S') : Counted ident count T S' := by
  constructor
  · intro p hp
    rw [h.isSome p hp]
    simp only [hS.mem_iff]
  · intro p n hp hn
    rw [h.count p n hp hn, hS.countP_eq]

/-- The root is below every path. -/
theorem cons_nil (h : Counted ident count T S) : Counted ident count T ([] :: S) := by
  constructor
  · intro p hp
    rw [h.isSome p hp]
    simp [hp]
  · intro p n hp hn
    rw [h.count p n hp hn]
    simp [hp]

theorem isSome_of_mem (h : Counted ident count T S) (hf : f ∈ S) : (T.node ident f).isSome := by
  by_cases hnil : f = []
  · subst hnil
    rfl
  · exact (h.isSome f hnil).mpr ⟨f, hf, List.prefix_refl f⟩

/-- Nodes are changed, and none is created or erased. -/
theorem of_map {g : N → N} (h : Counted ident count T S) (hg : ∀ n, ident (g n) = ident n)
    (hS : ∀ q, q ≠ [] → ((∃ f ∈ S', q <+: f) ↔ ∃ f ∈ S, q <+: f))
    (hcount : ∀ q n, q ≠ [] → T.node ident q = some n →
      count (g n) = S'.countP fun f => q <+: f) : Counted ident count (T.map g) S' := by
  constructor
  · intro q hq
    rw [node_map hg, Option.isSome_map, h.isSome q hq, hS q hq]
  · intro q n' hq hn'
    rw [node_map hg] at hn'
    obtain ⟨n, hn, rfl⟩ := Option.map_eq_some_iff.mp hn'
    exact hcount q n hq hn

/-- The next level has a node. -/
theorem map_snoc {g : N → N} (h : Counted ident count T (p :: S)) (hT : T.Wf ident)
    (hn : T.node ident (p ++ [t]) = some n) (hg : ∀ n, ident (g n) = ident n)
    (hcount : ∀ m, count (g m) = if ident m = ident n then count m + 1 else count m) :
    Counted ident count (T.map g) ((p ++ [t]) :: S) := by
  apply h.of_map hg
  · intro q hq
    rw [exists_prefix_snoc]
    constructor
    · rintro (rfl | hf)
      · exact (h.isSome _ hq).mp (by rw [hn]; rfl)
      · exact hf
    · exact .inr
  · intro q m hq hm
    rw [hcount]
    by_cases hpq : q = p ++ [t]
    · subst hpq
      obtain rfl := Option.some.inj (hn.symm.trans hm)
      rw [if_pos rfl, countP_snoc_self, ← h.count _ n hq hn]
    · rw [if_neg fun heq => hpq (node_inj hT hm hn heq), countP_snoc_ne hpq, h.count q m hq hm]

/-- The next level gets a node. -/
theorem insert_snoc (h : Counted ident count T (p :: S)) (hT : T.Wf ident)
    (hm : T.node ident p = some m) (hnone : T.node ident (p ++ [t]) = none)
    (hfresh : T.Fresh ident (ident n)) (hcount : count n = 1) :
    Counted ident count (T.insert (ident m) t n) ((p ++ [t]) :: S) := by
  have hchild : T.child (ident m) t = none := by
    rw [node_snoc, hm] at hnone
    exact hnone
  have hnode := node_insert hT hm hchild hfresh
  constructor
  · intro q hq
    rw [hnode, exists_prefix_snoc, ← h.isSome q hq]
    split
    · next heq => simp [heq]
    · next hne => simp [hne]
  · intro q n' hq hn'
    rw [hnode] at hn'
    split at hn'
    · next heq =>
      obtain rfl := Option.some.inj hn'
      subst heq
      -- no path went through the new node
      have hzero : (p :: S).countP (fun f => (p ++ [t]) <+: f) = 0 := by
        rw [List.countP_eq_zero]
        intro f hf hpre
        have hsome := (h.isSome _ hq).mpr ⟨f, hf, of_decide_eq_true hpre⟩
        rw [hnone] at hsome
        exact nomatch hsome
      rw [hcount, countP_snoc_self, hzero]
    · next hne => rw [countP_snoc_ne hne, h.count q n' hq hn']

/-- A path along nodes that are there. -/
theorem map_path {g : N → N} (h : Counted ident count T S) (hf : (T.node ident f).isSome)
    (hg : ∀ n, ident (g n) = ident n)
    (hcount : ∀ q n, q ≠ [] → T.node ident q = some n →
      count (g n) = if q <+: f then count n + 1 else count n) :
    Counted ident count (T.map g) (f :: S) := by
  apply h.of_map hg
  · intro q hq
    rw [List.exists_mem_cons_iff]
    constructor
    · rintro (hqf | hS)
      · exact (h.isSome q hq).mp (isSome_on_path hqf hf)
      · exact hS
    · exact .inr
  · intro q n hq hn
    rw [hcount q n hq hn, h.count q n hq hn, List.countP_cons]
    by_cases hqf : q <+: f
    · rw [if_pos hqf, if_pos (decide_eq_true hqf)]
    · rw [if_neg hqf, if_neg (by simpa using hqf), Nat.add_zero]

/-- Below a node that is counted down to zero, there is only the path that is taken away. -/
theorem closed {g : N → N} (hg : ∀ n, ident (g n) = ident n)
    (h : ∀ q n, q ≠ [] → T.node ident q = some n →
      count (g n) = S.countP fun f => q <+: f) :
    (T.map g).Closed ident fun n => count n ≠ 0 := by
  intro q t m' n' hq hm' hn' hkeep
  rw [node_map hg] at hm' hn'
  obtain ⟨m, hm, rfl⟩ := Option.map_eq_some_iff.mp hm'
  obtain ⟨n, hn, rfl⟩ := Option.map_eq_some_iff.mp hn'
  rw [decide_eq_true_iff] at hkeep ⊢
  rw [h q m hq hm]
  rw [h (q ++ [t]) n (by simp) hn] at hkeep
  intro hzero
  apply hkeep
  rw [List.countP_eq_zero] at hzero ⊢
  intro f hf hpre
  have hpre' : q <+: f := (List.prefix_append q [t]).trans (of_decide_eq_true hpre)
  exact hzero f hf (decide_eq_true hpre')

/-- A path is taken away: it is counted down, and what has come to zero is left out. -/
theorem filter_path {g : N → N} (h : Counted ident count T (f :: S))
    (hg : ∀ n, ident (g n) = ident n)
    (hcount : ∀ q n, q ≠ [] → T.node ident q = some n →
      count (g n) = if q <+: f then count n - 1 else count n) :
    Counted ident count ((T.map g).filter fun n => count n ≠ 0) S ∧
      (T.map g).Closed ident fun n => count n ≠ 0 := by
  -- of the paths that run through a node, one may be the removed one
  have hS : ∀ q n, q ≠ [] → T.node ident q = some n →
      count (g n) = S.countP fun f => q <+: f := by
    intro q n hq hn
    rw [hcount q n hq hn, h.count q n hq hn, List.countP_cons]
    by_cases hqf : q <+: f
    · rw [if_pos hqf, if_pos (decide_eq_true hqf), Nat.add_sub_cancel]
    · rw [if_neg hqf, if_neg (by simpa using hqf), Nat.add_zero]
  have hclosed := closed hg hS
  refine ⟨⟨fun q hq => ?_, fun q n' hq hn' => ?_⟩, hclosed⟩
  · rw [node_filter hclosed, if_neg hq, node_map hg]
    cases hn : T.node ident q with
    | none =>
      -- no other path runs through a node that is not there
      have hnone : ¬ ∃ f' ∈ f :: S, q <+: f' := by
        rw [← h.isSome q hq, hn]
        exact Bool.false_ne_true
      constructor
      · exact fun hsome => nomatch hsome
      · rintro ⟨f', hf', hpre⟩
        exact absurd ⟨f', List.mem_cons_of_mem _ hf', hpre⟩ hnone
    | some n =>
      rw [Option.map_some, Option.isSome_filter, Option.any_some, decide_eq_true_iff, hS q n hq hn,
        ← Nat.pos_iff_ne_zero, List.countP_pos_iff]
      simp only [decide_eq_true_iff]
  -- what is left has the count of the paths that are left
  · rw [node_filter hclosed, if_neg hq, node_map hg] at hn'
    obtain ⟨hmap, -⟩ := Option.filter_eq_some_iff.mp hn'
    obtain ⟨n, hn, rfl⟩ := Option.map_eq_some_iff.mp hmap
    exact hS q n hq hn

end Counted

end FlatTree
