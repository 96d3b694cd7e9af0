import Mathlib.Data.List.TakeWhile
import AsyncMqtt.Spec.RetainedFind

/-!
# Which retained topics are found

A stored topic is found if the filter matches it and the walk does not stop before it. The walk
stops at the root, where a `+` comes to a level of the server, and for `#` it goes on below the first
place only. Both depend on the order in which the entries were created.

## Key results

- `RetainedTopicMap.mem_foundPaths`: which paths are found
- `RetainedTopicMap.nodup_foundPaths`: no path is found twice
-/

namespace AsyncMqtt

namespace RetainedTopicMap

open PathOrder (Earlier)

variable {V : Type} {m : RetainedTopicMap V} {p q r s : List Buffer}
  {qs : List (List Buffer)} {t : Buffer} {fs gs ts : List Buffer}

/-- The levels of a filter match, and the filter has no `#`. -/
abbrev isMatch (gs q : List Buffer) : Bool := LevelMatch.isMatch plusLevel hashLevel true gs q

/-! ### Below some paths -/

theorem mem_belowStep (h : WellFormed m) {ignoreSystem : Bool} :
    p ∈ m.belowStep ignoreSystem q ↔
      ∃ t, p = q ++ [t] ∧ m.hasNode p ∧ (ignoreSystem → isSystemLevel t = false) := by
  unfold belowStep
  rw [List.mem_map]
  constructor
  · rintro ⟨t, ht, rfl⟩
    obtain ⟨hmem, hsystem⟩ := List.mem_filter.mp ht
    refine ⟨t, rfl, h.mem_childNames.mp hmem, fun hignore => ?_⟩
    simpa [hignore] using hsystem
  · rintro ⟨t, rfl, hnode, hsystem⟩
    refine ⟨t, List.mem_filter.mpr ⟨h.mem_childNames.mpr hnode, ?_⟩, rfl⟩
    cases ignoreSystem with
    | false => rfl
    | true => simp [hsystem rfl]

/-- Whatever is below one of the paths, as far as the fuel goes. -/
theorem mem_below (h : WellFormed m) {fuel : Nat} {ignoreSystem : Bool} :
    p ∈ m.below fuel ignoreSystem qs ↔
      ∃ q ∈ qs, ∃ t s, p = q ++ t :: s ∧ s.length < fuel ∧ m.hasNode p ∧
        (ignoreSystem → isSystemLevel t = false) := by
  -- the induction is on the fuel, which bounds the levels below
  induction fuel generalizing qs ignoreSystem with
  | zero =>
    rw [below]
    constructor
    · exact fun hmem => by cases hmem
    · rintro ⟨q, -, t, s, -, hlen, -⟩
      exact absurd hlen (Nat.not_lt_zero _)
  | succ fuel ih =>
    rw [below, List.mem_append, ih, List.mem_flatMap]
    constructor
    · rintro (⟨q, hq, hp⟩ | ⟨q', hq', t, s, rfl, hlen, hnode, -⟩)
      · obtain ⟨t, rfl, hnode, hsystem⟩ := (mem_belowStep h).mp hp
        exact ⟨q, hq, t, [], rfl, Nat.zero_lt_succ _, hnode, hsystem⟩
      · obtain ⟨q, hq, hq'⟩ := List.mem_flatMap.mp hq'
        obtain ⟨u, rfl, -, hsystem⟩ := (mem_belowStep h).mp hq'
        refine ⟨q, hq, u, t :: s, by simp, ?_, hnode, hsystem⟩
        exact Nat.succ_lt_succ hlen
    · rintro ⟨q, hq, t, s, rfl, hlen, hnode, hsystem⟩
      -- one level below, or further below a child
      cases s with
      | nil => exact .inl ⟨q, hq, (mem_belowStep h).mpr ⟨t, rfl, hnode, hsystem⟩⟩
      | cons u s =>
        have hstep : m.hasNode (q ++ [t]) := isSome_on_path ⟨u :: s, by simp⟩ hnode
        right
        refine ⟨q ++ [t], List.mem_flatMap.mpr ⟨q, hq, ?_⟩, u, s, by simp, ?_, hnode, by rintro ⟨⟩⟩
        · exact (mem_belowStep h).mpr ⟨t, rfl, hstep, hsystem⟩
        · exact Nat.lt_of_succ_lt_succ hlen

/-- There are not more levels than entries. -/
theorem length_lt_of_hasNode (h : WellFormed m) (hp : m.hasNode p) : p.length < m.map.length := by
  have hsome : ∀ q, q <+: p → ∃ e, m.node q = some e := fun q hq =>
    Option.isSome_iff_exists.mp (isSome_on_path hq hp)
  have hall : ∀ q ∈ [] :: FlatTree.pathsAlong [] p, q <+: p := by
    intro q hq
    rcases List.mem_cons.mp hq with rfl | hq
    · exact List.nil_prefix
    · exact (FlatTree.mem_pathsAlong_nil.mp hq).2
  have hnodup : ([] :: FlatTree.pathsAlong [] p).Nodup := by
    refine List.nodup_cons.mpr ⟨fun hmem => ?_, FlatTree.nodup_pathsAlong [] p⟩
    exact (FlatTree.mem_pathsAlong_nil.mp hmem).1 rfl
  -- the entries on the way are different ones
  have hentries : (([] :: FlatTree.pathsAlong [] p).map m.node).Nodup := by
    apply List.Nodup.map_on _ hnodup
    intro q hq q' hq' heq
    obtain ⟨e, he⟩ := hsome q (hall q hq)
    exact h.node_inj he (heq.symm.trans he) rfl
  have hsub : ([] :: FlatTree.pathsAlong [] p).map m.node ⊆ m.map.map some := by
    intro o ho
    obtain ⟨q, hq, rfl⟩ := List.mem_map.mp ho
    obtain ⟨e, he⟩ := hsome q (hall q hq)
    rw [he]
    exact List.mem_map_of_mem (h.mem he)
  have hle := (List.subperm_of_subset hentries hsub).length_le
  rw [List.length_map, List.length_map, List.length_cons, FlatTree.length_pathsAlong] at hle
  exact hle

/-! ### The places that the levels of a filter lead to -/

theorem mem_step (h : WellFormed m) (hq : q ≠ []) :
    p ∈ m.step t q ↔ ∃ u, p = q ++ [u] ∧ m.hasNode p ∧ (t = u ∨ t = plusLevel) := by
  unfold step
  split
  -- the wildcard goes to every child
  · next hplus =>
    have hall : (m.childNames q).takeWhile (fun u => q ≠ [] || ! isSystemLevel u) =
        m.childNames q := by
      apply List.takeWhile_eq_self_iff.mpr
      simp [hq]
    rw [hall, List.mem_map]
    constructor
    · rintro ⟨u, hu, rfl⟩
      exact ⟨u, rfl, h.mem_childNames.mp hu, .inr hplus⟩
    · rintro ⟨u, rfl, hnode, -⟩
      exact ⟨u, h.mem_childNames.mpr hnode, rfl⟩
  -- a name goes to its child, if there is one
  · next hplus =>
    split
    · next hnode =>
      rw [List.mem_singleton]
      constructor
      · rintro rfl
        exact ⟨t, rfl, hnode, .inl rfl⟩
      · rintro ⟨u, rfl, -, rfl | ht⟩
        · rfl
        · exact absurd ht hplus
    · next hnode =>
      constructor
      · exact fun hmem => nomatch hmem
      · rintro ⟨u, rfl, hnode', rfl | ht⟩
        · exact absurd hnode' hnode
        · exact absurd ht hplus

/-- At the root, nothing that a `+` stands for comes after a level of the server. -/
structure Clear (m : RetainedTopicMap V) (ts : List Buffer) : Prop where
  head : ∀ t ∈ ts.head?, isSystemLevel t = false
  before : ∀ s, isSystemLevel s → ¬ Earlier m.childNames [s] ts

theorem mem_step_root (h : WellFormed m) :
    p ∈ m.step t [] ↔
      ∃ u, p = [u] ∧ m.hasNode p ∧ (t = u ∨ t = plusLevel) ∧ (t = plusLevel → Clear m p) := by
  unfold step
  split
  · next hplus =>
    rw [List.mem_map]
    -- at the root the wildcard stops at the first system level
    constructor
    · rintro ⟨u, hu, rfl⟩
      obtain ⟨hmem, hsystem, hbefore⟩ := (PathOrder.mem_takeWhile_iff (h.nodup_childNames [])).mp hu
      refine ⟨u, rfl, h.mem_childNames.mp hmem, .inr hplus, fun _ => ⟨?_, ?_⟩⟩
      · rintro t ht
        obtain rfl := Option.some.inj ht
        simpa using hsystem
      · exact fun s hs hearlier =>
          hbefore s (by simp [hs]) (PathOrder.earlier_singleton_iff.mp hearlier)
    · rintro ⟨u, rfl, hnode, -, hclear⟩
      have hclear := hclear hplus
      refine ⟨u, (PathOrder.mem_takeWhile_iff (h.nodup_childNames [])).mpr ⟨?_, ?_, ?_⟩, rfl⟩
      · exact h.mem_childNames.mpr hnode
      · simp [hclear.head u rfl]
      · intro s hs hsub
        exact hclear.before s (by simpa using hs) (PathOrder.earlier_singleton_iff.mpr hsub)
  · next hplus =>
    split
    · next hnode =>
      rw [List.mem_singleton]
      constructor
      · rintro rfl
        exact ⟨t, rfl, hnode, .inl rfl, fun ht => absurd ht hplus⟩
      · rintro ⟨u, rfl, -, rfl | ht, -⟩
        · rfl
        · exact absurd ht hplus
    · next hnode =>
      constructor
      · exact fun hmem => nomatch hmem
      · rintro ⟨u, rfl, hnode', rfl | ht, -⟩
        · exact absurd hnode' hnode
        · exact absurd ht hplus

/-- Below the root, the levels lead wherever they match. -/
theorem mem_places (h : WellFormed m) (hgs : hashLevel ∉ gs) (hqs : ∀ q ∈ qs, q ≠ [] ∧ m.hasNode q) :
    p ∈ m.places gs qs ↔ ∃ q ∈ qs, ∃ s, p = q ++ s ∧ m.hasNode p ∧ isMatch gs s := by
  -- the induction is on the levels of the filter
  induction gs generalizing qs with
  | nil =>
    rw [places]
    constructor
    · exact fun hp => ⟨p, hp, [], by simp, (hqs p hp).2, rfl⟩
    · rintro ⟨q, hq, s, rfl, -, hs⟩
      obtain rfl : s = [] := by simpa using hs
      simpa using hq
  | cons t gs ih =>
    obtain ⟨ht, hgs⟩ := not_or.mp (mt List.mem_cons.mpr hgs)
    have hmany : ¬ (gs = [] ∧ t = hashLevel) := fun heq => ht heq.2.symm
    have hnext : ∀ q ∈ qs.flatMap (m.step t), q ≠ [] ∧ m.hasNode q := by
      intro q hq
      obtain ⟨q', hq', hq⟩ := List.mem_flatMap.mp hq
      obtain ⟨u, rfl, hnode, -⟩ := (mem_step h (hqs q' hq').1).mp hq
      exact ⟨by simp, hnode⟩
    rw [places, ih hgs hnext]
    constructor
    · rintro ⟨q', hq', s, rfl, hnode, hs⟩
      obtain ⟨q, hq, hq'⟩ := List.mem_flatMap.mp hq'
      obtain ⟨u, rfl, -, hu⟩ := (mem_step h (hqs q hq).1).mp hq'
      refine ⟨q, hq, u :: s, by simp, hnode, ?_⟩
      rw [isMatch, LevelMatch.isMatch_cons_cons hmany]
      simpa [hu] using hs
    · rintro ⟨q, hq, s, rfl, hnode, hs⟩
      cases s with
      | nil =>
        rw [isMatch, LevelMatch.isMatch_cons_nil hmany] at hs
        cases hs
      -- the first level takes one level of the topic
      | cons u s =>
        rw [isMatch, LevelMatch.isMatch_cons_cons hmany] at hs
        obtain ⟨hu, hs⟩ := Bool.and_eq_true_iff.mp hs
        have hstep : m.hasNode (q ++ [u]) := isSome_on_path ⟨s, by simp⟩ hnode
        refine ⟨q ++ [u], List.mem_flatMap.mpr ⟨q, hq, ?_⟩, s, by simp, hnode, hs⟩
        exact (mem_step h (hqs q hq).1).mpr ⟨u, rfl, hstep, by simpa using hu⟩

/-- From the root, the levels lead wherever they match and the walk has not stopped. -/
theorem mem_places_root (h : WellFormed m) (hgs : hashLevel ∉ gs) :
    p ∈ m.places gs [[]] ↔
      m.hasNode p ∧ isMatch gs p ∧ (gs.head? = some plusLevel → Clear m p) := by
  cases gs with
  | nil =>
    rw [places, List.mem_singleton]
    constructor
    · rintro rfl
      exact ⟨rfl, rfl, by rintro ⟨⟩⟩
    · rintro ⟨-, hp, -⟩
      simpa using hp
  | cons t gs =>
    obtain ⟨ht, hgs⟩ := not_or.mp (mt List.mem_cons.mpr hgs)
    have hmany : ¬ (gs = [] ∧ t = hashLevel) := fun heq => ht heq.2.symm
    -- the first level of a path decides whether it is visible
    have hclear : ∀ u s, Clear m [u] ↔ Clear m (u :: s) := by
      intro u s
      have hearlier : ∀ v, Earlier m.childNames [v] [u] ↔ Earlier m.childNames [v] (u :: s) :=
        fun v => PathOrder.earlier_singleton_iff.trans PathOrder.earlier_singleton_iff.symm
      constructor
      · exact fun hc => ⟨hc.head, fun v hv he => hc.before v hv ((hearlier v).mpr he)⟩
      · exact fun hc => ⟨hc.head, fun v hv he => hc.before v hv ((hearlier v).mp he)⟩
    rw [places, List.flatMap_singleton, List.head?_cons, Option.some_inj]
    rw [mem_places h hgs fun q hq => by
      obtain ⟨u, rfl, hnode, -⟩ := (mem_step_root h).mp hq
      exact ⟨by simp, hnode⟩]
    constructor
    · rintro ⟨q, hq, s, rfl, hnode, hs⟩
      obtain ⟨u, rfl, -, hu, hc⟩ := (mem_step_root h).mp hq
      refine ⟨hnode, ?_, fun hplus => (hclear u s).mp (hc hplus)⟩
      rw [List.singleton_append, isMatch, LevelMatch.isMatch_cons_cons hmany]
      simpa [hu] using hs
    · rintro ⟨hnode, hp, hc⟩
      cases p with
      | nil =>
        rw [isMatch, LevelMatch.isMatch_cons_nil hmany] at hp
        cases hp
      | cons u s =>
        rw [isMatch, LevelMatch.isMatch_cons_cons hmany] at hp
        obtain ⟨hu, hs⟩ := Bool.and_eq_true_iff.mp hp
        have hstep : m.hasNode [u] := isSome_on_path ⟨s, rfl⟩ hnode
        refine ⟨[u], (mem_step_root h).mpr ⟨u, rfl, hstep, by simpa using hu, ?_⟩, s, rfl, hnode, hs⟩
        exact fun hplus => (hclear u s).mpr (hc hplus)

/-- The places stand in the order of their paths. -/
theorem pairwise_places (h : WellFormed m) (gs : List Buffer)
    (hqs : qs.Pairwise (Earlier m.childNames)) :
    (m.places gs qs).Pairwise (Earlier m.childNames) := by
  -- the induction is on the levels, each of which keeps the order of the children
  induction gs generalizing qs with
  | nil => exact hqs
  | cons t gs ih =>
    have hstep : ∀ q, ∃ us : List Buffer, m.step t q = us.map (fun u => q ++ [u]) ∧
        us.Sublist (m.childNames q) := by
      intro q
      unfold step
      split
      · exact ⟨_, rfl, List.takeWhile_sublist _⟩
      · split
        · next hnode =>
          exact ⟨[t], rfl, List.singleton_sublist.mpr (h.mem_childNames.mpr hnode)⟩
        · exact ⟨[], rfl, List.nil_sublist _⟩
    apply ih
    rw [List.pairwise_flatMap]
    constructor
    -- the children of one path are in their order
    · intro q _
      obtain ⟨us, heq, hsub⟩ := hstep q
      rw [heq, List.pairwise_map]
      refine (List.pairwise_iff_forall_sublist.mpr fun {a b} hab => ?_)
      exact Earlier.of_kids (hab.trans hsub)
    -- the children of an earlier path come first
    · refine hqs.imp fun {q q'} hearlier p hp p' hp' => ?_
      obtain ⟨us, heq, -⟩ := hstep q
      obtain ⟨us', heq', -⟩ := hstep q'
      rw [heq] at hp
      rw [heq'] at hp'
      obtain ⟨u, -, rfl⟩ := List.mem_map.mp hp
      obtain ⟨u', -, rfl⟩ := List.mem_map.mp hp'
      exact hearlier.append [u] [u']

/-- No place is earlier than the first one. -/
theorem not_earlier_head (h : WellFormed m) (hp : (m.places gs [[]]).head? = some p)
    (hq : q ∈ m.places gs [[]]) : ¬ Earlier m.childNames q p := by
  intro hearlier
  have hpair := pairwise_places h gs (List.pairwise_singleton _ [])
  cases hplaces : m.places gs [[]] with
  | nil => exact absurd (hplaces ▸ hq) List.not_mem_nil
  | cons p' ps =>
    rw [hplaces] at hp hq hpair
    obtain rfl := Option.some.inj hp
    rcases List.mem_cons.mp hq with rfl | hq
    · exact hearlier.irrefl h.nodup_childNames rfl
    · exact hearlier.asymm h.nodup_childNames ((List.pairwise_cons.mp hpair).1 q hq)

/-! ### What a filter finds -/

theorem foundPaths_of_not_mem (hfs : hashLevel ∉ fs) : m.foundPaths fs qs = m.places fs qs := by
  induction fs generalizing qs with
  | nil => rfl
  | cons t ts ih =>
    obtain ⟨ht, hts⟩ := not_or.mp (mt List.mem_cons.mpr hfs)
    rw [foundPaths, if_neg (Ne.symm ht), ih hts, places]

theorem foundPaths_append_hash (hgs : hashLevel ∉ gs) :
    m.foundPaths (gs ++ [hashLevel]) qs =
      m.belowFirst (m.places gs qs) ++ m.places gs qs := by
  induction gs generalizing qs with
  | nil => rw [List.nil_append, foundPaths, if_pos rfl, places]
  | cons t ts ih =>
    obtain ⟨ht, hts⟩ := not_or.mp (mt List.mem_cons.mpr hgs)
    rw [List.cons_append, foundPaths, if_neg (Ne.symm ht), ih hts, places]

/-- The walk for the filter comes by the path: a `+` at the root stands for no level of the server
    that comes before, and the first of the places at which a `#` stands is on the path. -/
structure Visible (m : RetainedTopicMap V) (fs ts : List Buffer) : Prop where
  root : fs.head? = some plusLevel → ∀ s, isSystemLevel s → ¬ Earlier m.childNames [s] ts
  first : ∀ gs, fs = gs ++ [hashLevel] → gs.length < ts.length →
    ∀ q, m.hasNode q → isMatch gs q → ¬ Earlier m.childNames q ts

/-- Before a path to which the walk comes, it comes to every other one. -/
theorem Clear.of_earlier (h : WellFormed m) (hp : Clear m p) (hearlier : Earlier m.childNames q p) :
    Clear m q := by
  obtain ⟨r, s, t, q', p', rfl, rfl, hsub⟩ := hearlier
  cases r with
  | nil =>
    have hbefore : ∀ u, isSystemLevel u → ¬ [u, t].Sublist (m.childNames []) :=
      fun u hu hsub' => hp.before u hu (PathOrder.earlier_singleton_iff.mpr hsub')
    constructor
    · intro u hu
      obtain rfl := Option.some.inj hu
      exact Bool.eq_false_iff.mpr fun hs => hbefore s hs hsub
    · intro u hu hearlier
      have hsub' := PathOrder.earlier_singleton_iff.mp hearlier
      exact hbefore u hu (PathOrder.sublist_pair_trans (h.nodup_childNames []) hsub' hsub)
  | cons a r =>
    -- both paths begin with the same level
    refine ⟨hp.head, fun u hu hearlier => hp.before u hu ?_⟩
    exact PathOrder.earlier_singleton_iff.mpr (PathOrder.earlier_singleton_iff.mp hearlier)

theorem levelsMatch_iff :
    levelsMatch true fs ts ↔
      isMatch fs ts ∧ (fs.head? = some plusLevel ∨ fs.head? = some hashLevel →
        ∀ t ∈ ts.head?, isSystemLevel t = false) := by
  unfold levelsMatch isHidden
  rw [Bool.and_eq_true_iff]
  apply and_congr_right
  intro _
  cases ts.head? with
  | none => simp
  | some t =>
    by_cases hhead : fs.head? = some plusLevel ∨ fs.head? = some hashLevel
    · rcases hhead with hhead | hhead <;> simp [hhead]
    · simp [not_or.mp hhead]

theorem mem_belowFirst (h : WellFormed m) :
    ts ∈ m.belowFirst qs ↔
      ∃ q ∈ qs.head?, ∃ t s, ts = q ++ t :: s ∧ m.hasNode ts ∧
        (q = [] → isSystemLevel t = false) := by
  unfold belowFirst
  cases qs.head? with
  | none => simp
  | some q =>
    simp only [mem_below h, List.mem_singleton, Option.mem_def, Option.some.injEq,
      exists_eq_left, exists_eq_left', decide_eq_true_eq]
    constructor
    · rintro ⟨t, s, rfl, -, hrest⟩
      exact ⟨t, s, rfl, hrest⟩
    · rintro ⟨t, s, rfl, hnode, hsystem⟩
      refine ⟨t, s, rfl, ?_, hnode, hsystem⟩
      have hlen := length_lt_of_hasNode h hnode
      rw [List.length_append, List.length_cons] at hlen
      omega

/-- What is found without a `#` -/
theorem mem_foundPaths_places (h : WellFormed m) (hfs : hashLevel ∉ fs) (hts : m.hasNode ts) :
    ts ∈ m.foundPaths fs [[]] ↔ levelsMatch true fs ts ∧ Visible m fs ts := by
  rw [foundPaths_of_not_mem hfs, mem_places_root h hfs, levelsMatch_iff]
  have hhead : fs.head? ≠ some hashLevel := fun heq => hfs (List.mem_of_mem_head? heq)
  constructor
  · rintro ⟨-, hmatch, hclear⟩
    refine ⟨⟨hmatch, ?_⟩, fun hplus => (hclear hplus).before, ?_⟩
    · rintro (hplus | hhash)
      · exact (hclear hplus).head
      · exact absurd hhash hhead
    · rintro gs rfl
      exact absurd (List.mem_append_right gs (List.mem_singleton.mpr rfl)) hfs
  · rintro ⟨⟨hmatch, hsystem⟩, hvisible⟩
    exact ⟨hts, hmatch, fun hplus => ⟨hsystem (.inl hplus), hvisible.root hplus⟩⟩

/-- A place of `+` at the root is no empty path. -/
theorem length_pos_of_head (hgs : hashLevel ∉ gs) (hp : isMatch gs p) {f : Buffer}
    (hhead : gs.head? = some f) : 0 < p.length := by
  rw [LevelMatch.length_eq_of_isMatch hgs hp]
  exact List.length_pos_of_mem (List.mem_of_mem_head? hhead)

theorem head?_append_hash (gs : List Buffer) {f : Buffer} (hf : f ≠ hashLevel)
    (h : (gs ++ [hashLevel]).head? = some f) : gs.head? = some f := by
  cases gs with
  | nil => exact absurd (Option.some.inj h).symm hf
  | cons g gs => exact h

/-- A place, or what is below the first place, is matched and comes by. -/
theorem visible_of_place (h : WellFormed m) (hgs : hashLevel ∉ gs) (hp : p ∈ m.places gs [[]])
    (hr : r ≠ [] → (m.places gs [[]]).head? = some p ∧ (p = [] → ∀ t ∈ r.head?, isSystemLevel t = false)) :
    levelsMatch true (gs ++ [hashLevel]) (p ++ r) ∧ Visible m (gs ++ [hashLevel]) (p ++ r) := by
  obtain ⟨hnode, hmatch, hclear⟩ := (mem_places_root h hgs).mp hp
  have hlen : p.length = gs.length := LevelMatch.length_eq_of_isMatch hgs hmatch
  have hplus : ∀ {P : Prop}, (gs ++ [hashLevel]).head? = some plusLevel →
      (Clear m p → 0 < p.length → P) → P := by
    intro P heq hP
    have hhead := head?_append_hash gs (by decide) heq
    exact hP (hclear hhead) (length_pos_of_head hgs hmatch hhead)
  rw [levelsMatch_iff]
  refine ⟨⟨(LevelMatch.isMatch_append_many hgs).mpr ⟨p, r, rfl, hmatch, .inl rfl⟩, ?_⟩, ?_, ?_⟩
  -- the first level of the filter is a wildcard
  · rintro (heq | heq)
    · refine hplus heq fun hc hpos => ?_
      rw [List.head?_append_of_ne_nil _ (List.ne_nil_of_length_pos hpos)]
      exact hc.head
    · -- the `#` stands at the root
      obtain rfl : gs = [] := by
        cases gs with
        | nil => rfl
        | cons g gs =>
          obtain rfl : g = hashLevel := Option.some.inj heq
          exact absurd (List.mem_cons_self ..) hgs
      obtain rfl : p = [] := List.eq_nil_of_length_eq_zero hlen
      rw [List.nil_append]
      cases r with
      | nil => exact nofun
      | cons t r => exact (hr (List.cons_ne_nil t r)).2 rfl
  · intro heq s hs hearlier
    exact hplus heq fun hc hpos => hc.before s hs (hearlier.of_append hpos)
  -- no earlier path ends in the same wildcard
  · intro gs' heq hlt q hq hqmatch hearlier
    obtain rfl := List.append_cancel_right heq
    have hrne : r ≠ [] := by
      rintro rfl
      rw [List.append_nil, hlen] at hlt
      exact absurd hlt (Nat.lt_irrefl _)
    have hqlen : q.length = p.length :=
      (LevelMatch.length_eq_of_isMatch hgs hqmatch).trans hlen.symm
    have hearlier := hearlier.of_append (Nat.le_of_eq hqlen)
    have hqmem : q ∈ m.places gs [[]] :=
      (mem_places_root h hgs).mpr ⟨hq, hqmatch, fun hhead => (hclear hhead).of_earlier h hearlier⟩
    exact not_earlier_head h (hr hrne).1 hqmem hearlier

/-- Which paths are found, if `#` stands at the end only. -/
theorem mem_foundPaths (h : WellFormed m) (hfs : hashLevel ∉ fs.dropLast) (hts : m.hasNode ts) :
    ts ∈ m.foundPaths fs [[]] ↔ levelsMatch true fs ts ∧ Visible m fs ts := by
  rcases List.eq_nil_or_concat' fs with rfl | ⟨gs, f, rfl⟩
  · exact mem_foundPaths_places h List.not_mem_nil hts
  rw [List.dropLast_concat] at hfs
  -- a filter without `#` finds the places themselves
  by_cases hf : f = hashLevel
  · subst hf
    rw [foundPaths_append_hash hfs, List.mem_append, mem_belowFirst h]
    -- what is below the first place, or a place itself
    constructor
    · rintro (⟨p, hp, t, s, rfl, -, hsystem⟩ | hplace)
      · refine visible_of_place h hfs (List.mem_of_mem_head? hp) fun _ => ⟨hp, fun hnil u hu => ?_⟩
        obtain rfl := Option.some.inj hu
        exact hsystem hnil
      · have hvisible := visible_of_place (r := []) h hfs hplace fun hne => absurd rfl hne
        rwa [List.append_nil] at hvisible
    · rintro ⟨hmatch, hvisible⟩
      obtain ⟨hmatch, hsystem⟩ := levelsMatch_iff.mp hmatch
      obtain ⟨p, r, rfl, hp, -⟩ := (LevelMatch.isMatch_append_many hfs).mp hmatch
      have hlen := LevelMatch.length_eq_of_isMatch hfs hp
      -- the levels before `#` match the beginning of the path, which is a place
      have hplace : p ∈ m.places gs [[]] := by
        refine (mem_places_root h hfs).mpr ⟨isSome_on_path ⟨r, rfl⟩ hts, hp, fun hhead => ?_⟩
        have hpos := length_pos_of_head hfs hp hhead
        have hhead' : (gs ++ [hashLevel]).head? = some plusLevel := by
          rw [List.head?_append, hhead]
          rfl
        have hsystem := hsystem (.inl hhead')
        rw [List.head?_append_of_ne_nil _ (List.ne_nil_of_length_pos hpos)] at hsystem
        refine ⟨hsystem, fun s hs hearlier => hvisible.root hhead' s hs ?_⟩
        have happend := hearlier.append [] r
        rwa [List.append_nil] at happend
      cases r with
      | nil => exact .inr (by rwa [List.append_nil])
      | cons t s =>
        left
        refine ⟨p, ?_, t, s, rfl, hts, ?_⟩
        · -- the first place is not earlier, and so it is the one
          cases hplaces : m.places gs [[]] with
          | nil => exact absurd (hplaces ▸ hplace) List.not_mem_nil
          | cons q qs =>
            rcases List.mem_cons.mp (hplaces ▸ hplace) with rfl | hmem
            · rfl
            · have hpair := pairwise_places h gs (List.pairwise_singleton _ [])
              rw [hplaces] at hpair
              have hearlier := ((List.pairwise_cons.mp hpair).1 p hmem).append [] (t :: s)
              rw [List.append_nil] at hearlier
              have hq : q ∈ m.places gs [[]] := hplaces ▸ List.mem_cons_self ..
              obtain ⟨hqnode, hqmatch, -⟩ := (mem_places_root h hfs).mp hq
              have hlt : gs.length < (p ++ t :: s).length := by
                rw [List.length_append, List.length_cons]
                omega
              exact absurd hearlier (hvisible.first gs rfl hlt q hqnode hqmatch)
        · rintro rfl
          obtain rfl : gs = [] := List.eq_nil_of_length_eq_zero hlen.symm
          exact hsystem (.inr rfl) t rfl
  · refine mem_foundPaths_places h ?_ hts
    simp [hfs, Ne.symm hf]

theorem nodup_below (h : WellFormed m) {fuel k : Nat} {ignoreSystem : Bool} (hqs : qs.Nodup)
    (hlen : ∀ q ∈ qs, q.length = k) : (m.below fuel ignoreSystem qs).Nodup := by
  induction fuel generalizing qs k ignoreSystem with
  | zero => exact List.nodup_nil
  | succ fuel ih =>
    have hnext : (qs.flatMap (m.belowStep ignoreSystem)).Nodup := by
      rw [List.nodup_flatMap]
      constructor
      · intro q _
        refine List.Nodup.map (fun a b hab => ?_) ((h.nodup_childNames q).filter _)
        exact List.singleton_inj.mp (List.append_cancel_left hab)
      · refine hqs.imp fun {q q'} hne p hp hp' => ?_
        obtain ⟨t, rfl, -⟩ := (mem_belowStep h).mp hp
        obtain ⟨t', heq, -⟩ := (mem_belowStep h).mp hp'
        exact hne (List.append_inj' heq rfl).1
    have hnextlen : ∀ q ∈ qs.flatMap (m.belowStep ignoreSystem), q.length = k + 1 := by
      intro q hq
      obtain ⟨q', hq', hq⟩ := List.mem_flatMap.mp hq
      obtain ⟨t, rfl, -⟩ := (mem_belowStep h).mp hq
      rw [List.length_append, hlen q' hq']
      rfl
    rw [below]
    refine hnext.append (ih hnext hnextlen) fun p hp hp' => ?_
    -- the next levels are deeper
    obtain ⟨q, hq, t, s, rfl, -⟩ := (mem_below h).mp hp'
    have hlen' := hnextlen _ hp
    rw [List.length_append, List.length_cons, hnextlen q hq] at hlen'
    omega

/-- No path is found twice. -/
theorem nodup_foundPaths (h : WellFormed m) (hfs : hashLevel ∉ fs.dropLast) :
    (m.foundPaths fs [[]]).Nodup := by
  -- no path is found twice
  have hplaces : ∀ gs, (m.places gs [[]]).Nodup := by
    intro gs
    refine (pairwise_places h gs (List.pairwise_singleton _ [])).imp fun {p q} hearlier => ?_
    exact hearlier.irrefl h.nodup_childNames
  rcases List.eq_nil_or_concat' fs with rfl | ⟨gs, f, rfl⟩
  · exact List.nodup_singleton []
  rw [List.dropLast_concat] at hfs
  by_cases hf : f = hashLevel
  · subst hf
    have hlen : ∀ p ∈ m.places gs [[]], p.length = gs.length := fun p hp =>
      LevelMatch.length_eq_of_isMatch hfs ((mem_places_root h hfs).mp hp).2.1
    rw [foundPaths_append_hash hfs]
    -- what is below the first path is longer than the paths found
    refine List.Nodup.append ?_ (hplaces gs) fun p hp hp' => ?_
    · unfold belowFirst
      split
      · exact List.nodup_nil
      · next q _ =>
        apply nodup_below h (List.nodup_singleton q) (k := q.length)
        intro q' hq'
        rw [List.mem_singleton.mp hq']
    · obtain ⟨q, hq, t, s, rfl, -⟩ := (mem_belowFirst h).mp hp
      have hlen' := hlen _ hp'
      rw [List.length_append, List.length_cons, hlen q (List.mem_of_mem_head? hq)] at hlen'
      omega
  · rw [foundPaths_of_not_mem (by simp [hfs, Ne.symm hf])]
    exact hplaces _

end RetainedTopicMap

end AsyncMqtt
