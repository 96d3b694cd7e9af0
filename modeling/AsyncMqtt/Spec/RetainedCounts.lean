import AsyncMqtt.Spec.RetainedRuns

/-!
# The sizes and counts of the retained topics

What the counters of a `retained_topic_map` say after any calls, as long as none has thrown. Erasing
a topic leaves out entries and moves none, so that whatever the walk of `find` comes to, it comes to
afterwards.

## Key results

- `RetainedTopicMap.Visible.of_index`: what is found when entries are left out
- `RetainedTopicMap.Represents.internalSize_eq`: how many entries there are
- `RetainedTopicMap.keeps_count`: every call after every run
- `RetainedTopicMap.insertOrAssign_refused`: the run that is refused
-/

namespace AsyncMqtt

namespace RetainedTopicMap

open PathOrder (Earlier)
open FlatTree (prefixes mem_prefixes nodup_prefixes)

variable {V : Type} {m m' : RetainedTopicMap V} {s : Stored V} {S : List (List Buffer)}
  {e e' : RetainedEntry V} {q : List Buffer} {f g : Buffer} {v : V} {n : Nat}

/-! ### Entries that are left out -/

/-- The keys and the identifiers of the entries in their order -/
def index (m : RetainedTopicMap V) : List ((Nat × Buffer) × Nat) := m.map.map fun e => (key e, e.id)

theorem index_update {h : RetainedEntry V → RetainedEntry V} (hg : Keeps h) :
    (m.update h).index = m.index := by
  unfold index update
  rw [List.map_map]
  exact List.map_congr_left fun e _ => Prod.ext (hg.key e) (hg.id e)

theorem index_eraseLevels (ids : List Nat) (m : RetainedTopicMap V) :
    (eraseLevels ids m).index.Sublist m.index := by
  induction ids generalizing m with
  | nil => exact List.Sublist.refl _
  | cons id ids ih =>
    have hg : Keeps fun e : RetainedEntry V =>
        if e.id = id then { e with count := e.count - 1 } else e :=
      keeps_modify fun _ _ => ⟨rfl, rfl⟩
    have hindex : (m.modify id fun e => { e with count := e.count - 1 }).index = m.index :=
      index_update hg
    rw [eraseLevels]
    split
    · rw [← hindex]
      exact (ih _).trans (List.filter_sublist.map _)
    · rw [← hindex]
      exact ih _

/-- `erase` leaves out entries and moves none. -/
theorem index_erase (f : Buffer) (m : RetainedTopicMap V) : (m.erase f).2.index.Sublist m.index := by
  unfold erase eraseTopic
  dsimp only
  split
  · exact List.Sublist.refl _
  · next back _ =>
    split
    · have hg : Keeps fun e : RetainedEntry V =>
          if e.id = back.id then { e with value := none } else e :=
        keeps_modify fun _ _ => ⟨rfl, rfl⟩
      have hindex : (m.modify back.id ({ · with value := none })).index = m.index := index_update hg
      rw [← hindex]
      exact index_eraseLevels _ _
    · exact List.Sublist.refl _

/-- The entry at a path was there before, with its identifier. -/
theorem exists_node_of_index (h : WellFormed m) (h' : WellFormed m') (hsub : m'.index.Sublist m.index)
    (hq : m'.node q = some e') : ∃ e, m.node q = some e ∧ e.id = e'.id := by
  induction q using List.reverseRecOn generalizing e' with
  | nil =>
    obtain rfl := Option.some.inj hq
    exact ⟨m.tree.root, rfl, h.directFind_root.2.trans h'.directFind_root.2.symm⟩
  | append_singleton q t ih =>
    obtain ⟨d', hd', -⟩ := FlatTree.child_of_node_snoc hq
    obtain ⟨d, hd, hid⟩ := ih hd'
    rw [h'.node_snoc_find hd', h'.directFind_iff] at hq
    obtain ⟨hmem, hparent, hname⟩ := hq
    -- the key and the identifier of the entry
    have hindex : (key e', e'.id) ∈ m.index := hsub.subset (List.mem_map_of_mem hmem)
    obtain ⟨e, he, heq⟩ := List.mem_map.mp hindex
    obtain ⟨hkey, hide⟩ := Prod.mk.inj heq
    obtain ⟨hparent', hname'⟩ := Prod.mk.inj hkey
    refine ⟨e, ?_, hide⟩
    rw [h.node_snoc_find hd, h.directFind_iff]
    exact ⟨he, hparent'.trans (hparent.trans hid.symm), hname'.trans hname⟩

theorem map_name_children (i : Nat) (m : RetainedTopicMap V) :
    (m.children i).map RetainedEntry.name =
      (m.index.filter fun k => k.1.1 = i).map fun k => k.1.2 := by
  unfold children index
  rw [List.filter_map, List.map_map]
  rfl

/-- The children of an entry stay in their order. -/
theorem childNames_of_index (h : WellFormed m) (h' : WellFormed m') (hsub : m'.index.Sublist m.index)
    (q : List Buffer) : (m'.childNames q).Sublist (m.childNames q) := by
  unfold childNames
  cases hq : m'.node q with
  | none => exact List.nil_sublist _
  | some e' =>
    obtain ⟨e, he, hid⟩ := exists_node_of_index h h' hsub hq
    rw [he]
    dsimp only
    rw [map_name_children, map_name_children, hid]
    exact (hsub.filter _).map _

/-- The walk comes to a path when it has come to it with more entries. -/
theorem Visible.of_index {fs ts : List Buffer} (hv : Visible m fs ts) (h : WellFormed m)
    (h' : WellFormed m') (hsub : m'.index.Sublist m.index) : Visible m' fs ts := by
  have hkids := childNames_of_index h h' hsub
  constructor
  · intro hhead t ht hearlier
    exact hv.root hhead t ht (hearlier.mono hkids)
  · intro gs hfs hlen q hq hmatch hearlier
    obtain ⟨e', he'⟩ := Option.isSome_iff_exists.mp hq
    obtain ⟨e, he, -⟩ := exists_node_of_index h h' hsub he'
    have hnode : m.hasNode q := by
      unfold hasNode
      rw [he]
      rfl
    exact hv.first gs hfs hlen q hnode hmatch (hearlier.mono hkids)

/-! ### Sizes and counts -/

/-- There is an entry for each prefix, and the root. -/
theorem Represents.internalSize_eq (h : Represents m S s) :
    m.internalSize = 1 + (prefixes S).length := by
  -- every beginning of a stored topic has a node
  have hsome : ∀ q ∈ [] :: prefixes S, (m.node q).isSome := by
    intro q hq
    rcases List.mem_cons.mp hq with rfl | hq
    · rfl
    · obtain ⟨hnil, hf⟩ := mem_prefixes.mp hq
      exact (h.counted.isSome q hnil).mpr hf
  have hnodup : ([] :: prefixes S).Nodup :=
    List.nodup_cons.mpr ⟨fun hmem => (mem_prefixes.mp hmem).1 rfl, nodup_prefixes S⟩
  have hentries : (([] :: prefixes S).filterMap m.node).Nodup :=
    hnodup.filterMap fun q q' e hq hq' => h.node_inj hq hq' rfl
  -- the entries of the map are the nodes of these paths
  have hperm : m.map.Perm (([] :: prefixes S).filterMap m.node) := by
    rw [List.perm_ext_iff_of_nodup (List.Nodup.of_map key h.keys) hentries]
    intro e
    rw [List.mem_filterMap]
    constructor
    · intro he
      obtain ⟨q, hq⟩ := h.exists_path he
      refine ⟨q, ?_, hq⟩
      by_cases hnil : q = []
      · exact hnil ▸ List.mem_cons_self ..
      · have hf := (h.counted.isSome q hnil).mp (Option.isSome_iff_exists.mpr ⟨e, hq⟩)
        exact List.mem_cons_of_mem _ (mem_prefixes.mpr ⟨hnil, hf⟩)
    · rintro ⟨q, -, hq⟩
      exact h.mem hq
  have hlen := hperm.length_eq
  rw [List.filterMap_length_eq_length.mpr hsome, List.length_cons] at hlen
  rw [internalSize, hlen, Nat.add_comm]

/-- Each entry but the root counts the stored topics at or below it. -/
def CountsTopics (m : RetainedTopicMap V) (s : Stored V) : Prop :=
  ∀ e ∈ m.map, e.id ≠ rootNodeId → ∃ q, q ≠ [] ∧ m.node q = some e ∧
    e.count = s.keys.countP fun topic => q <+: topicFilterTokens topic

theorem Holds.countsTopics (h : Holds m s) : CountsTopics m s := by
  intro e he hroot
  obtain ⟨q, hq⟩ := h.exists_path he
  have hnil : q ≠ [] := fun hnil => hroot ((id_eq_root_iff h.toWellFormed hq).mpr hnil)
  refine ⟨q, hnil, hq, ?_⟩
  rw [h.counted.count q e hnil hq, keyLevels, List.countP_map]
  rfl

/-- There is a root, which is always counted once. -/
def CountsRoot (m : RetainedTopicMap V) : Prop :=
  ∃ e, (∀ e', e' ∈ m.map ∧ e'.id = rootNodeId ↔ e' = e) ∧ e.count = 1

theorem Represents.countsRoot (h : Represents m S s) : CountsRoot m := by
  refine ⟨m.tree.root, fun e => ⟨?_, ?_⟩, h.rootCount⟩
  · rintro ⟨he, hid⟩
    obtain ⟨q, hq⟩ := h.exists_path he
    obtain rfl := (id_eq_root_iff h.toWellFormed hq).mp hid
    exact (Option.some.inj hq).symm
  · rintro rfl
    exact ⟨h.mem node_nil, h.toWellFormed.directFind_root.2⟩

/-! ### Runs -/

/-- A run of calls that return, with the number of the levels that were inserted since the map was
    made or cleared. The topics have no wildcards. -/
inductive CountedRuns : RetainedTopicMap V → Stored V → Nat → Prop
  | make : CountedRuns RetainedTopicMap.make ∅ 0
  | insertOrAssign {m m' : RetainedTopicMap V} {s : Stored V} {n : Nat} {f : Buffer} {v : V}
      {r : Nat} (hr : CountedRuns m s n) (hf : NoWildcards (topicFilterTokens f))
      (hcall : m.insertOrAssign f v = .ok (r, m')) :
      CountedRuns m' (s.insert f v) (n + (topicFilterTokens f).length)
  | erase {m : RetainedTopicMap V} {s : Stored V} {n : Nat} (hr : CountedRuns m s n) (f : Buffer) :
      CountedRuns (m.erase f).2 (s.erase f) n
  | clear {m : RetainedTopicMap V} {s : Stored V} {n : Nat} (hr : CountedRuns m s n) : CountedRuns m.clear ∅ 0

/-- What one call returns, and what it does to the counters -/
theorem Holds.insertOrAssign_cases (h : Holds m s) (hf : NoWildcards (topicFilterTokens f)) (v : V) :
    (∃ m', m.insertOrAssign f v = .ok (if (s.lookup f).isNone then 1 else 0, m') ∧
      Holds m' (s.insert f v) ∧ m'.mapSize = m.mapSize + (if (s.lookup f).isNone then 1 else 0) ∧
      m'.nextNodeId ≤ m.nextNodeId + (topicFilterTokens f).length) ∨
    (m.insertOrAssign f v = .error .maxStoredTopics ∧
      (sizeMax ≤ m.nextNodeId + (topicFilterTokens f).length ∨ sizeMax ≤ (keyLevels s).length ∨
        m.mapSize = sizeMax)) := by
  have h : Represents m (keyLevels s ++ []) s := (List.append_nil _).symm ▸ h
  rw [insertOrAssign_eq]
  -- an insertion returns or throws, as its cases say
  cases h.inserts f v with
  | returns m' hstate hm' _ hsize hnext =>
    rw [List.append_nil] at hm'
    refine .inl ⟨m', ?_, hm', hsize, hnext⟩
    rw [hstate]
    rfl
  | rejects _ _ _ hwild => exact absurd hf hwild
  | overflows herror hlimit =>
    rw [List.append_nil] at hlimit
    refine .inr ⟨?_, hlimit⟩
    rw [herror]
    rfl

namespace CountedRuns

/-- After a run, the finite map is held, and what the counters have reached is known. -/
theorem holds (hr : CountedRuns m s n) :
    Holds m s ∧ m.mapSize = s.entries.length ∧ m.nextNodeId ≤ n + 2 ∧ s.entries.length ≤ n := by
  induction hr with
  | make => exact ⟨Holds.make, rfl, Nat.le_refl 2, Nat.le_refl 0⟩
  | @insertOrAssign m m' s n f v r _ hf hcall ih =>
    obtain ⟨hm, hsize, hnext, hlen⟩ := ih
    have hpos := List.length_pos_of_ne_nil (topicFilterTokens_ne_nil f)
    have hlen' := AList.length_insert s f v
    -- the size and the ids grow with the new topic only
    rcases hm.insertOrAssign_cases hf v with ⟨m₁, hok, hm₁, hsize₁, hnext₁⟩ | ⟨herror, -⟩
    · obtain ⟨-, rfl⟩ := Prod.mk.inj (Except.ok.inj (hok.symm.trans hcall))
      refine ⟨hm₁, by omega, by omega, ?_⟩
      split at hlen'
      · omega
      · omega
    · exact nomatch herror.symm.trans hcall
  | @erase m s n _ f ih =>
    obtain ⟨hm, hsize, hnext, hlen⟩ := ih
    have hrepresents : Represents m (keyLevels s ++ []) s := (List.append_nil _).symm ▸ hm
    obtain ⟨-, -, hsize', hnext'⟩ := hrepresents.eraseCall f
    have hlen' := AList.length_erase s f
    exact ⟨hm.erase f, by omega, by omega, by omega⟩
  | clear => exact ⟨Holds.make, rfl, Nat.le_refl 2, Nat.le_refl 0⟩

end CountedRuns

/-! ### Every call after every run -/

/-- An insertion of a topic without wildcards returns whether the topic is new, or it is refused after
    so many levels that a counter may have reached its limit. -/
def InsertsNew (m : RetainedTopicMap V) (s : Stored V) (n : Nat) : Prop :=
  ∀ f v, NoWildcards (topicFilterTokens f) →
    (∃ m', m.insertOrAssign f v = .ok (if (s.lookup f).isNone then 1 else 0, m')) ∨
    (m.insertOrAssign f v = .error .maxStoredTopics ∧
      sizeMax ≤ n + 2 + (topicFilterTokens f).length)

open Classical in
/-- The stored topics that a filter matches and to which the walk comes -/
noncomputable def found (m : RetainedTopicMap V) (s : Stored V) (f : Buffer) :
    List (Sigma fun _ : Buffer => V) :=
  s.entries.filter fun i => topicFilterMatches true f i.1 &&
    Visible m (topicFilterTokens f) (topicFilterTokens i.1)

open Classical in
theorem mem_found {i : Sigma fun _ : Buffer => V} :
    i ∈ found m s f ↔ i ∈ s.entries ∧ topicFilterMatches true f i.1 ∧
      Visible m (topicFilterTokens f) (topicFilterTokens i.1) := by
  rw [found, List.mem_filter, Bool.and_eq_true_iff, decide_eq_true_iff]

/-- An erasure returns whether the topic was stored. Every other topic that `find` called back for a
    filter is called back afterwards. -/
def ErasesOnly (m : RetainedTopicMap V) (s : Stored V) : Prop :=
  ∀ g, ((m.erase g).1 = if (s.lookup g).isSome then 1 else 0) ∧
    ∀ f, validateTopicFilter f → (m.find f).Perm ((found m s f).map Sigma.snd) ∧
      ((m.erase g).2.find f).Perm ((found (m.erase g).2 (s.erase g) f).map Sigma.snd) ∧
      ∀ i ∈ found m s f, i.1 ≠ g → i ∈ found (m.erase g).2 (s.erase g) f

theorem Holds.erasesOnly (h : Holds m s) : ErasesOnly m s := by
  intro g
  have hrepresents : Represents m (keyLevels s ++ []) s := (List.append_nil _).symm ▸ h
  have herase := h.erase g
  refine ⟨(hrepresents.eraseCall g).1, fun f hf => ⟨h.perm_find hf, herase.perm_find hf, ?_⟩⟩
  intro i hi hne
  obtain ⟨hmem, hmatch, hvisible⟩ := mem_found.mp hi
  refine mem_found.mpr ⟨?_, hmatch, ?_⟩
  · -- the topic is still stored
    have hlookup := AList.mem_lookup_iff.mpr hmem
    rw [← AList.lookup_erase_ne hne] at hlookup
    exact AList.mem_lookup_iff.mp hlookup
  · exact hvisible.of_index h.toWellFormed herase.toWellFormed (index_erase g m)

/-- The counts and sizes of the retained topics -/
theorem keeps_count (hr : CountedRuns m s n) :
    CountsTopics m s ∧ CountsRoot m ∧ m.size = s.entries.length ∧
      m.internalSize = 1 + (prefixes (keyLevels s)).length ∧ InsertsNew m s n ∧ ErasesOnly m s := by
  obtain ⟨hm, hsize, hnext, hlen⟩ := hr.holds
  refine ⟨hm.countsTopics, hm.countsRoot, hsize, hm.internalSize_eq, fun f v hf => ?_,
    hm.erasesOnly⟩
  rcases hm.insertOrAssign_cases hf v with ⟨m', hok, -⟩ | ⟨herror, hlimit⟩
  · exact .inl ⟨m', hok⟩
  · refine .inr ⟨herror, ?_⟩
    rw [length_keyLevels] at hlimit
    omega

/-- Two topics are stored, one of which begins the other. -/
theorem keeps_count_two : ∃ (m : RetainedTopicMap Nat) (s : Stored Nat) (n : Nat),
    s.entries.length = 2 ∧ m.internalSize = 3 ∧ CountsTopics m s ∧ InsertsNew m s n := by
  have hone : NoWildcards (topicFilterTokens [0x61]) := by
    unfold NoWildcards
    decide
  have htwo : NoWildcards (topicFilterTokens [0x61, 0x2f, 0x62]) := by
    unfold NoWildcards
    decide
  have hr := CountedRuns.insertOrAssign (v := 8)
    (CountedRuns.insertOrAssign (v := 7) .make hone rfl) htwo rfl
  have hspec := keeps_count hr
  exact ⟨_, _, _, rfl, rfl, hspec.1, hspec.2.2.2.2.1⟩

/-! ### The run that is refused -/

/-- The map in which nothing is stored, after some identifiers have been given away -/
def emptyAt (n : Nat) : RetainedTopicMap Nat := { make with nextNodeId := n }

/-- A topic that is inserted and erased leaves nothing, but its identifier is lost. -/
theorem emptyAt_succ (hroot : n ≠ rootNodeId) (hn : n + 1 ≠ sizeMax) :
    ∃ m', (emptyAt n).insertOrAssign [0x61] 7 = .ok (1, m') ∧ (m'.erase [0x61]).2 = emptyAt (n + 1) := by
  have hcreate : (emptyAt n).createTopic [0x61] =
      .ok (n, { emptyAt (n + 1) with map := [rootEntry, ⟨rootNodeId, [0x61], n, none, 1⟩] }) := by
    show createLevels rootNodeId [[0x61]] (emptyAt n) = _
    have hname : ¬ (([0x61] : Buffer) = plusLevel ∨ ([0x61] : Buffer) = hashLevel) := by decide
    have hnone : (emptyAt n).directFind rootNodeId [0x61] = none := rfl
    rw [createLevels, if_neg hname, hnone]
    exact if_neg hn
  have hroot' : ¬ rootNodeId = n := fun h => hroot h.symm
  have hinsert : (emptyAt n).insertOrAssign [0x61] 7 =
      .ok (1, ⟨[rootEntry, ⟨rootNodeId, [0x61], n, some 7, 1⟩], 1, n + 1⟩) := by
    have hpath : (emptyAt n).findTopic [0x61] = [] := rfl
    unfold insertOrAssign
    rw [hpath, hcreate]
    simp [modify, rootEntry, hroot', increaseMapSize, emptyAt, make, sizeMax, bind, Except.bind]
  refine ⟨_, hinsert, ?_⟩
  have hpath : findTopic [0x61] (⟨[rootEntry, ⟨rootNodeId, [0x61], n, some 7, 1⟩], 1, n + 1⟩ :
      RetainedTopicMap Nat) = [⟨rootNodeId, [0x61], n, some 7, 1⟩] := rfl
  unfold erase eraseTopic
  rw [hpath]
  simp [modify, rootEntry, hroot', eraseLevels, emptyAt, make]

theorem countedRuns_emptyAt (hn : n + 2 < sizeMax) : CountedRuns (emptyAt (n + 2)) ∅ n := by
  induction n with
  | zero => exact .make
  | succ n ih =>
    have hone : NoWildcards (topicFilterTokens [0x61]) := by
      unfold NoWildcards
      decide
    obtain ⟨m', hok, herase⟩ := emptyAt_succ (n := n + 2) (by simp [rootNodeId]) (by omega)
    have hr := (CountedRuns.insertOrAssign (ih (by omega)) hone hok).erase [0x61]
    rw [herase] at hr
    exact hr

/-- The identifiers are used up although nothing is stored. And the root is always counted once. -/
theorem insertOrAssign_refused :
    (∃ (m : RetainedTopicMap Nat) (n : Nat), CountedRuns m ∅ n ∧
      m.insertOrAssign [0x61] 7 = .error .maxStoredTopics) ∧
    ∃ e ∈ (make : RetainedTopicMap Nat).map, e.count = 1 :=
  ⟨⟨emptyAt (sizeMax - 3 + 2), sizeMax - 3, countedRuns_emptyAt (by decide), rfl⟩,
    rootEntry, List.mem_singleton.mpr rfl, rfl⟩

end RetainedTopicMap

end AsyncMqtt
