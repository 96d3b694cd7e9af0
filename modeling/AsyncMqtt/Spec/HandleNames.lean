import AsyncMqtt.ForStd.Except
import AsyncMqtt.Native.SubscriptionMap
import AsyncMqtt.Spec.TopicFilterGrammar

/-!
# Handles and the filters that they name

`handle_to_topic_filter` goes from an entry to its parents and puts the levels before one another.
This way up is the way down that `find_topic_filter` takes, in every map that any calls lead to: it
needs no tree, only that an identifier belongs to one entry, and that the entries below it keep the
key of this entry.

## Key results

- `SubscriptionMapBase.Linked.findTopicFilter_keys`: the way up is the way down
- `SubscriptionMapBase.joined_eq_iff`: when the levels are put together to the filter
-/

namespace AsyncMqtt

namespace SubscriptionMapBase

variable {V : Type} {m m' m'' : SubscriptionMapBase V} {key key' : PathEntryKey} {e : PathEntry V}
  {f g : PathEntry V → PathEntry V} {keys path : List PathEntryKey} {ts : List Buffer} {fuel i : Nat}

/-! ### Links -/

/-- An identifier belongs to one entry, and what is below it knows the key of this entry. -/
structure Linked (m : SubscriptionMapBase V) : Prop where
  root : ∃ e, m.map.lookup rootKey = some e ∧ e.id = rootNodeId
  next : rootKey.1 ≤ m.nextNodeId
  key_le : ∀ key e, m.map.lookup key = some e → key.1 ≤ m.nextNodeId
  id_le : ∀ key e, m.map.lookup key = some e → e.id ≤ m.nextNodeId ∧ e.id ≠ rootKey.1
  key_lt : ∀ key e, key ≠ rootKey → m.map.lookup key = some e → key.1 < e.id
  id_inj : ∀ key e key' e', m.map.lookup key = some e → m.map.lookup key' = some e' →
    e.id = e'.id → key = key'
  parent : ∀ key e key' e', key ≠ rootKey → m.map.lookup key = some e →
    m.map.lookup key' = some e' → e'.id = key.1 → e.parent = key'

/-- Some entries are left, with their identifiers and their parents. -/
structure Restricts (m m' : SubscriptionMapBase V) : Prop where
  next : m'.nextNodeId = m.nextNodeId
  root : (m.map.lookup rootKey).isSome → (m'.map.lookup rootKey).isSome
  entry : ∀ key e', m'.map.lookup key = some e' →
    ∃ e, m.map.lookup key = some e ∧ e'.id = e.id ∧ e'.parent = e.parent

namespace Restricts

theorem refl (m : SubscriptionMapBase V) : Restricts m m :=
  ⟨rfl, id, fun _ e he => ⟨e, he, rfl, rfl⟩⟩

theorem trans (h : Restricts m m') (h' : Restricts m' m'') : Restricts m m'' := by
  refine ⟨h'.next.trans h.next, h'.root ∘ h.root, fun key e'' he'' => ?_⟩
  obtain ⟨e', he', hid', hparent'⟩ := h'.entry key e'' he''
  obtain ⟨e, he, hid, hparent⟩ := h.entry key e' he'
  exact ⟨e, he, hid'.trans hid, hparent'.trans hparent⟩

/-- Links stay when entries are left out. -/
theorem linked (h : Restricts m m') (hm : Linked m) : Linked m' := by
  constructor
  -- the root is still there
  · obtain ⟨e, he, hid⟩ := hm.root
    obtain ⟨e', he'⟩ := Option.isSome_iff_exists.mp (h.root (by rw [he]; rfl))
    obtain ⟨e₁, he₁, hid₁, -⟩ := h.entry rootKey e' he'
    obtain rfl := Option.some.inj (he.symm.trans he₁)
    exact ⟨e', he', hid₁.trans hid⟩
  · rw [h.next]
    exact hm.next
  -- the identifiers are still below the next one
  · intro key e' he'
    obtain ⟨e, he, -⟩ := h.entry key e' he'
    rw [h.next]
    exact hm.key_le key e he
  -- the entries are those of before, with the same parents
  · intro key e' he'
    obtain ⟨e, he, hid, -⟩ := h.entry key e' he'
    rw [h.next, hid]
    exact hm.id_le key e he
  · intro key e' hroot he'
    obtain ⟨e, he, hid, -⟩ := h.entry key e' he'
    rw [hid]
    exact hm.key_lt key e hroot he
  · intro key e' key' e'' he' he'' heq
    obtain ⟨e, he, hid, -⟩ := h.entry key e' he'
    obtain ⟨e₁, he₁, hid₁, -⟩ := h.entry key' e'' he''
    exact hm.id_inj key e key' e₁ he he₁ (hid.symm.trans (heq.trans hid₁))
  · intro key e' key' e'' hroot he' he'' heq
    obtain ⟨e, he, -, hparent⟩ := h.entry key e' he'
    obtain ⟨e₁, he₁, hid₁, -⟩ := h.entry key' e'' he''
    exact hparent.trans (hm.parent key e key' e₁ hroot he he₁ (hid₁.symm.trans heq))

end Restricts

/-- An entry is changed, but not its identifier and its parent. -/
theorem lookup_modify (key key' : PathEntryKey) :
    (m.modify key f).map.lookup key' =
      if key' = key then (m.map.lookup key').map f else m.map.lookup key' := by
  unfold modify
  split
  · next hnone =>
    split
    · next heq => rw [heq, hnone]; rfl
    · rfl
  · next e he =>
    split
    · next heq => rw [heq, he, AList.lookup_insert]; rfl
    · next hne => rw [AList.lookup_insert_ne hne]

theorem Restricts.modify (hf : ∀ e, (f e).id = e.id ∧ (f e).parent = e.parent)
    (key : PathEntryKey) : Restricts m (m.modify key f) := by
  refine ⟨?_, ?_, fun key' e' he' => ?_⟩
  · unfold SubscriptionMapBase.modify
    split <;> rfl
  · intro hroot
    rw [lookup_modify]
    split
    · rwa [Option.isSome_map]
    · exact hroot
  · rw [lookup_modify] at he'
    split at he'
    · obtain ⟨e, he, rfl⟩ := Option.map_eq_some_iff.mp he'
      exact ⟨e, he, hf e⟩
    · exact ⟨e', he', rfl, rfl⟩

theorem Restricts.erase (hkey : key ≠ rootKey) :
    Restricts m { m with map := m.map.erase key } := by
  refine ⟨rfl, fun hroot => ?_, fun key' e' he' => ?_⟩
  · show ((m.map.erase key).lookup rootKey).isSome
    rwa [AList.lookup_erase_ne hkey.symm]
  · have hne : key' ≠ key := by
      rintro rfl
      exact nomatch (AList.lookup_erase key' m.map).symm.trans he'
    have he : m.map.lookup key' = some e' := (AList.lookup_erase_ne hne).symm.trans he'
    exact ⟨e', he, rfl, rfl⟩

/-- `remove_topic_filter` leaves out entries on the path. -/
theorem Restricts.removeEntries {a b : Bool} (hkeys : rootKey ∉ keys) :
    Restricts m (removeEntries a b keys m) := by
  induction keys generalizing m a b with
  | nil => exact .modify (f := clearChildFlags a b) (fun _ => ⟨rfl, rfl⟩) rootKey
  | cons key keys ih =>
    obtain ⟨hkey, hkeys⟩ := not_or.mp (List.mem_cons.not.mp hkeys)
    have hstep : Restricts m (m.modify key fun entry =>
        let entry := clearChildFlags a b entry
        { entry with count := entry.count.decrease }) := by
      apply Restricts.modify
      exact fun _ => ⟨rfl, rfl⟩
    rw [SubscriptionMapBase.removeEntries]
    dsimp only
    split
    · exact hstep.trans ((Restricts.erase (Ne.symm hkey)).trans (ih hkeys))
    · exact hstep.trans (ih hkeys)

/-- `increase_subscriptions` changes counts only. -/
theorem Restricts.increaseSubscriptions (hcall : increaseSubscriptions keys m = .ok m') :
    Restricts m m' := by
  induction keys generalizing m with
  | nil =>
    obtain rfl := Except.ok.inj hcall
    exact .refl m
  | cons key keys ih =>
    rw [SubscriptionMapBase.increaseSubscriptions] at hcall
    split at hcall
    · exact nomatch hcall
    · next entry hentry =>
      obtain ⟨count, -, hrest⟩ := Except.bind_eq_ok.mp hcall
      have hstep : Restricts m (m.modify key fun entry => { entry with count }) := by
        apply Restricts.modify
        exact fun _ => ⟨rfl, rfl⟩
      exact hstep.trans (ih hrest)

/-! ### New entries -/

namespace Linked

/-- A new map -/
theorem make [Inhabited V] : Linked (make : SubscriptionMapBase V) := by
  have hlookup : ∀ key e, (SubscriptionMapBase.make : SubscriptionMapBase V).map.lookup key = some e →
      key = rootKey ∧ e.id = rootNodeId := by
    intro key e he
    rw [SubscriptionMapBase.make, ← AList.insert_empty] at he
    by_cases hkey : key = rootKey
    · subst hkey
      rw [AList.lookup_insert] at he
      exact ⟨rfl, congrArg PathEntry.id (Option.some.inj he).symm⟩
    · rw [AList.lookup_insert_ne hkey, AList.lookup_empty] at he
      exact nomatch he
  constructor
  · exact ⟨_, rfl, rfl⟩
  · exact Nat.le_refl 2
  · intro key e he
    obtain ⟨rfl, -⟩ := hlookup key e he
    exact Nat.le_refl 2
  · intro key e he
    obtain ⟨-, hid⟩ := hlookup key e he
    rw [hid]
    exact ⟨Nat.le_succ 1, Nat.succ_ne_self 1 ∘ Eq.symm⟩
  · intro key e hroot he
    exact absurd (hlookup key e he).1 hroot
  · intro key e key' e' he he' _
    rw [(hlookup key e he).1, (hlookup key' e' he').1]
  · intro key e key' e' hroot he
    exact absurd (hlookup key e he).1 hroot

/-- A child of an entry has its identifier in its key, and is not the root. -/
theorem child_ne_root (hm : Linked m) (he : m.map.lookup key = some e) (t : Buffer) :
    (e.id, t) ≠ rootKey :=
  fun heq => (hm.id_le key e he).2 (congrArg Prod.fst heq)

/-- A new child of an entry -/
theorem insert {c : CountStorage} {v : V} {t : Buffer} (hm : Linked m)
    (he : m.map.lookup key = some e) :
    Linked { m with
      map := m.map.insert (e.id, t) ⟨m.nextNodeId + 1, key, c, v⟩
      nextNodeId := m.nextNodeId + 1 } := by
  obtain ⟨hle, hroot⟩ := hm.id_le key e he
  have hnext := hm.next
  -- the map has one entry more, under the new key
  have hcases : ∀ k e', (m.map.insert (e.id, t) ⟨m.nextNodeId + 1, key, c, v⟩).lookup k =
      some e' → (k = (e.id, t) ∧ e' = ⟨m.nextNodeId + 1, key, c, v⟩) ∨
        (k ≠ (e.id, t) ∧ m.map.lookup k = some e') := by
    intro k e' he'
    by_cases hk : k = (e.id, t)
    · subst hk
      rw [AList.lookup_insert] at he'
      exact .inl ⟨rfl, (Option.some.inj he').symm⟩
    · rw [AList.lookup_insert_ne hk] at he'
      exact .inr ⟨hk, he'⟩
  constructor
  · obtain ⟨e₀, he₀, hid⟩ := hm.root
    refine ⟨e₀, ?_, hid⟩
    rw [AList.lookup_insert_ne (hm.child_ne_root he t).symm, he₀]
  · exact Nat.le_succ_of_le hnext
  · intro k e' he'
    rcases hcases k e' he' with ⟨rfl, -⟩ | ⟨-, he'⟩
    · exact Nat.le_succ_of_le hle
    · exact Nat.le_succ_of_le (hm.key_le k e' he')
  · intro k e' he'
    rcases hcases k e' he' with ⟨-, rfl⟩ | ⟨-, he'⟩
    · exact ⟨Nat.le_refl _, (Nat.lt_succ_of_le hnext).ne'⟩
    · exact (hm.id_le k e' he').imp_left Nat.le_succ_of_le
  · intro k e' hkroot he'
    rcases hcases k e' he' with ⟨rfl, rfl⟩ | ⟨-, he'⟩
    · exact Nat.lt_succ_of_le hle
    · exact hm.key_lt k e' hkroot he'
  · intro k e' k' e'' he' he'' heq
    rcases hcases k e' he' with ⟨rfl, rfl⟩ | ⟨-, he'⟩
    · rcases hcases k' e'' he'' with ⟨rfl, -⟩ | ⟨-, he''⟩
      · rfl
      · -- the new identifier is not in use
        have hold := (hm.id_le k' e'' he'').1
        exact absurd heq (Nat.ne_of_gt (Nat.lt_succ_of_le hold))
    -- an old entry has an old identifier
    · rcases hcases k' e'' he'' with ⟨rfl, rfl⟩ | ⟨-, he''⟩
      · have hold := (hm.id_le k e' he').1
        exact absurd heq (Nat.ne_of_lt (Nat.lt_succ_of_le hold))
      · exact hm.id_inj k e' k' e'' he' he'' heq
  · intro k e' k' e'' hkroot he' he'' heq
    rcases hcases k' e'' he'' with ⟨rfl, rfl⟩ | ⟨-, he''⟩
    · -- nothing is below the new entry
      have hk : k.1 ≤ m.nextNodeId := by
        rcases hcases k e' he' with ⟨rfl, -⟩ | ⟨-, he'⟩
        · exact hle
        · exact hm.key_le k e' he'
      exact absurd heq (Nat.ne_of_gt (Nat.lt_succ_of_le hk))
    · rcases hcases k e' he' with ⟨rfl, rfl⟩ | ⟨-, he'⟩
      · exact (hm.id_inj k' e'' key e he'' he heq).symm
      · exact hm.parent k e' k' e'' hkroot he' he'' heq

/-- `create_topic_filter`, or the first levels of it -/
theorem createLevels [Inhabited V] (hm : Linked m) (he : m.map.lookup key = some e)
    (hcall : createLevels key e.id ts m = .ok (path, m')) : Linked m' := by
  -- the induction is on the levels, each of which exists or gets a new entry
  induction ts generalizing m key e path with
  | nil =>
    obtain ⟨-, rfl⟩ := Prod.mk.inj (Except.ok.inj hcall)
    exact hm
  | cons t ts ih =>
    rw [SubscriptionMapBase.createLevels] at hcall
    dsimp only at hcall
    cases hchild : m.map.lookup (e.id, t) with
    -- the level is new: it hangs below the entry reached so far
    | none =>
      rw [hchild] at hcall
      dsimp only at hcall
      obtain ⟨⟨id, m₁⟩, hid, hcall⟩ := Except.bind_eq_ok.mp hcall
      unfold generateNodeId at hid
      split at hid
      · exact nomatch hid
      · obtain ⟨rfl, rfl⟩ := Prod.mk.inj (Except.ok.inj hid)
        obtain ⟨⟨path', m₂⟩, hrest, hcall⟩ := Except.bind_eq_ok.mp hcall
        obtain ⟨-, rfl⟩ := Prod.mk.inj (Except.ok.inj hcall)
        have hnew := hm.insert (c := ⟨1, false, false⟩) (v := default) (t := t) he
        have hne : (e.id, t) ≠ key := by
          rintro rfl
          exact nomatch hchild.symm.trans he
        refine ih (e := ⟨m.nextNodeId + 1, key, ⟨1, false, false⟩, default⟩) ?_ ?_ hrest
        · exact (Restricts.modify (f := setChildFlags t) (fun _ => ⟨rfl, rfl⟩) key).linked hnew
        · rw [lookup_modify, if_neg hne]
          exact AList.lookup_insert m.map
    -- the level exists, and its count is increased
    | some entry =>
      rw [hchild] at hcall
      dsimp only at hcall
      obtain ⟨count, -, hcall⟩ := Except.bind_eq_ok.mp hcall
      obtain ⟨⟨path', m₂⟩, hrest, hcall⟩ := Except.bind_eq_ok.mp hcall
      obtain ⟨-, rfl⟩ := Prod.mk.inj (Except.ok.inj hcall)
      refine ih (e := { entry with count }) ?_ ?_ hrest
      · refine Restricts.linked (Restricts.modify ?_ _) hm
        exact fun _ => ⟨rfl, rfl⟩
      · rw [lookup_modify, if_pos rfl, hchild]
        rfl

/-- `create_topic_filter` begins at the root. -/
theorem createLevels_root [Inhabited V] (hm : Linked m)
    (hcall : SubscriptionMapBase.createLevels rootKey rootNodeId ts m = .ok (path, m')) :
    Linked m' := by
  obtain ⟨e, he, hid⟩ := hm.root
  rw [← hid] at hcall
  exact hm.createLevels he hcall

/-! ### Down and up -/

/-- The keys that `find_topic_filter` comes to -/
theorem findLevels (hm : Linked m) (he : m.map.lookup key = some e)
    (hfind : m.findLevels e.id ts = some keys) :
    (∀ k ∈ keys, k ≠ rootKey ∧ (m.map.lookup k).isSome ∧ e.id ≤ k.1) ∧
      keys.Pairwise (fun a b => a.1 < b.1) ∧ keys.map Prod.snd = ts := by
  induction ts generalizing key e keys with
  | nil =>
    obtain rfl := Option.some.inj hfind
    exact ⟨nofun, .nil, rfl⟩
  | cons t ts ih =>
    rw [SubscriptionMapBase.findLevels] at hfind
    split at hfind
    · exact nomatch hfind
    · next e' he' =>
      obtain ⟨keys', hkeys', rfl⟩ := Option.map_eq_some_iff.mp hfind
      obtain ⟨hmem, hpairwise, hnames⟩ := ih he' hkeys'
      have hroot := hm.child_ne_root he t
      have hlt := hm.key_lt _ e' hroot he'
      refine ⟨fun k hk => ?_, ?_, ?_⟩
      · rcases List.mem_cons.mp hk with rfl | hk
        · exact ⟨hroot, by rw [he']; rfl, Nat.le_refl _⟩
        · obtain ⟨hkroot, hksome, hle⟩ := hmem k hk
          exact ⟨hkroot, hksome, (Nat.le_of_lt hlt).trans hle⟩
      · refine List.pairwise_cons.mpr ⟨fun k hk => ?_, hpairwise⟩
        exact Nat.lt_of_lt_of_le hlt (hmem k hk).2.2
      · rw [List.map_cons, hnames]

end Linked

/-- More fuel does not matter. -/
theorem handleToPath_mono {more : Nat} (hcall : m.handleToPath fuel key = .ok path)
    (hle : fuel ≤ more) : m.handleToPath more key = .ok path := by
  induction fuel generalizing more key path with
  | zero => exact nomatch hcall
  | succ fuel ih =>
    obtain ⟨more, rfl⟩ := Nat.exists_eq_add_one_of_ne_zero (Nat.ne_of_gt (Nat.zero_lt_of_lt hle))
    rw [handleToPath] at hcall ⊢
    split at hcall
    · next hroot => rwa [if_pos hroot]
    · next hroot =>
      rw [if_neg hroot]
      split at hcall
      · exact nomatch hcall
      · next e he =>
        obtain ⟨path', hrest, hpath⟩ := Except.bind_eq_ok.mp hcall
        rw [ih hrest (Nat.le_of_succ_le_succ hle)]
        exact hpath

/-- The way up ends before the root. -/
theorem rootKey_notMem_handleToPath (hcall : m.handleToPath fuel key = .ok path) :
    rootKey ∉ path := by
  induction fuel generalizing key path with
  | zero => exact nomatch hcall
  | succ fuel ih =>
    rw [handleToPath] at hcall
    split at hcall
    · obtain rfl := Except.ok.inj hcall
      exact List.not_mem_nil
    · next hroot =>
      split at hcall
      · exact nomatch hcall
      · next e he =>
        obtain ⟨path', hrest, hpath⟩ := Except.bind_eq_ok.mp hcall
        obtain rfl := Except.ok.inj hpath
        rw [List.mem_cons, not_or]
        exact ⟨Ne.symm hroot, ih hrest⟩

namespace Linked

/-- The way up from the last level is the way down. -/
theorem handleToPath_findLevels (hm : Linked m) (he : m.map.lookup key = some e)
    (hfind : m.findLevels e.id ts = some keys) (hup : m.handleToPath fuel key = .ok path) :
    m.handleToPath (fuel + keys.length) (keys.getLastD key) = .ok (keys.reverse ++ path) := by
  induction ts generalizing key e keys fuel path with
  | nil =>
    obtain rfl := Option.some.inj hfind
    exact hup
  | cons t ts ih =>
    rw [SubscriptionMapBase.findLevels] at hfind
    split at hfind
    · exact nomatch hfind
    · next e' he' =>
      obtain ⟨keys', hkeys', rfl⟩ := Option.map_eq_some_iff.mp hfind
      -- one step up from the first level
      have hroot := hm.child_ne_root he t
      have hparent := hm.parent _ e' key e hroot he' he rfl
      have hstep : m.handleToPath (fuel + 1) (e.id, t) = .ok ((e.id, t) :: path) := by
        rw [handleToPath, if_neg hroot, he']
        dsimp only
        rw [hparent, hup]
        rfl
      have hih := ih he' hkeys' hstep
      rw [List.getLastD_cons, List.length_cons, List.reverse_cons, List.append_assoc,
        ← Nat.add_assoc, Nat.add_right_comm]
      exact hih

/-- The keys on the path of a filter -/
theorem findTopicFilter_keys (hm : Linked m) {topicFilter : Buffer} {h : PathEntryKey}
    (hh : m.lookup topicFilter = some h) :
    (m.findTopicFilter topicFilter).map Prod.snd = topicFilterTokens topicFilter ∧
      m.handleToIterators h = .ok (m.findTopicFilter topicFilter).reverse := by
  obtain ⟨e, he, hid⟩ := hm.root
  unfold SubscriptionMapBase.lookup at hh
  have hpath : ∃ keys, m.findLevels e.id (topicFilterTokens topicFilter) = some keys ∧
      m.findTopicFilter topicFilter = keys := by
    unfold findTopicFilter at hh ⊢
    rw [hid]
    cases hfind : m.findLevels rootNodeId (topicFilterTokens topicFilter) with
    | none =>
      rw [hfind] at hh
      exact nomatch hh
    | some keys => exact ⟨keys, rfl, rfl⟩
  obtain ⟨keys, hfind, hkeys⟩ := hpath
  obtain ⟨hmem, hpairwise, hnames⟩ := hm.findLevels he hfind
  rw [hkeys] at hh ⊢
  refine ⟨hnames, ?_⟩
  -- there are not more levels than entries
  have hlen : keys.length ≤ m.map.entries.length := by
    have hnodup : keys.Nodup := hpairwise.imp fun hlt heq => Nat.ne_of_lt hlt (congrArg Prod.fst heq)
    have hsubset : keys ⊆ m.map.keys := fun k hk =>
      AList.mem_keys.mp (AList.lookup_isSome.mp (hmem k hk).2.1)
    have hle := (List.subperm_of_subset hnodup hsubset).length_le
    simpa [AList.keys, List.keys] using hle
  have hroot : m.handleToPath 1 rootKey = .ok [] := by
    rw [handleToPath, if_pos rfl]
  have hup := hm.handleToPath_findLevels he hfind hroot
  rw [List.append_nil] at hup
  have hlast : keys.getLastD rootKey = h := by
    rw [List.getLastD_eq_getLast?, hh]
    rfl
  rw [hlast] at hup
  unfold handleToIterators
  exact handleToPath_mono hup (by omega)

/-- Different filters have different handles. -/
theorem lookup_inj (hm : Linked m) {topicFilter topicFilter' : Buffer} {h : PathEntryKey}
    (hh : m.lookup topicFilter = some h) (hh' : m.lookup topicFilter' = some h) :
    topicFilter = topicFilter' := by
  obtain ⟨hnames, hup⟩ := hm.findTopicFilter_keys hh
  obtain ⟨hnames', hup'⟩ := hm.findTopicFilter_keys hh'
  have hpaths := List.reverse_injective (Except.ok.inj (hup.symm.trans hup'))
  apply topicFilterTokens_injective
  rw [← hnames, ← hnames', hpaths]

/-- The keys on a path are not the one of the root. -/
theorem rootKey_notMem_findTopicFilter (hm : Linked m) (topicFilter : Buffer) :
    rootKey ∉ m.findTopicFilter topicFilter := by
  obtain ⟨e, he, hid⟩ := hm.root
  unfold findTopicFilter
  rw [← hid]
  cases hfind : m.findLevels e.id (topicFilterTokens topicFilter) with
  | none => exact List.not_mem_nil
  | some keys => exact fun hmem => ((hm.findLevels he hfind).1 rootKey hmem).1 rfl

end Linked

/-! ### Levels that are put together -/

/-- The levels as `handle_to_topic_filter` puts them together -/
def joined (ts : List Buffer) : Buffer :=
  ts.foldr (fun t result => if result.isEmpty then t else t ++ topicFilterSeparator :: result) []

theorem foldl_prependLevel (keys : List PathEntryKey) :
    keys.reverse.foldl prependLevel [] = joined (keys.map Prod.snd) := by
  rw [List.foldl_reverse, joined, List.foldr_map]
  rfl

theorem joined_cons (t : Buffer) (ts : List Buffer) :
    joined (t :: ts) = if joined ts = [] then t else t ++ topicFilterSeparator :: joined ts := by
  show (if (joined ts).isEmpty then t else t ++ topicFilterSeparator :: joined ts) = _
  simp only [List.isEmpty_iff]

/-- The last level is lost if it is empty and not the only one. -/
theorem joined_eq_iff (hts : ts ≠ []) :
    joined ts = [topicFilterSeparator].intercalate ts ↔ ts.getLast? ≠ some [] ∨ ts = [[]] := by
  -- the induction is on the levels, where an empty end is lost
  induction ts with
  | nil => exact absurd rfl hts
  | cons t ts ih =>
    rw [joined_cons]
    cases ts with
    | nil =>
      have hone : t ≠ [] ∨ t = [] := (em (t = [])).symm
      rw [if_pos (by rfl), intercalate_cons]
      simpa [below] using hone
    | cons u us =>
      have hih := ih (List.cons_ne_nil u us)
      rw [List.intercalate_cons_cons, List.getLast?_cons_cons]
      by_cases hjoined : joined (u :: us) = []
      · -- the levels after `t` are lost
        rw [if_pos hjoined]
        constructor
        -- with levels behind it the first one cannot be all
        · intro heq
          have hlen := congrArg List.length heq
          simp at hlen
        · rintro (hlast | hone)
          · have hempty := hih.mpr (.inl hlast)
            rw [hjoined, intercalate_cons] at hempty
            obtain ⟨hu, hbelow⟩ := List.append_eq_nil_iff.mp hempty.symm
            have hus : us = [] :=
              List.eq_nil_iff_forall_not_mem.mpr (by simpa [below] using hbelow)
            rw [hu, hus] at hlast
            exact absurd rfl hlast
          · exact absurd (List.cons.inj hone).2 (List.cons_ne_nil u us)
      · rw [if_neg hjoined]
        have hrest : t ++ topicFilterSeparator :: joined (u :: us) =
            t ++ [topicFilterSeparator] ++ [topicFilterSeparator].intercalate (u :: us) ↔
            joined (u :: us) = [topicFilterSeparator].intercalate (u :: us) := by
          simp
        rw [hrest, hih]
        constructor
        · rintro (hlast | hone)
          · exact .inl hlast
          · rw [hone] at hjoined
            exact absurd rfl hjoined
        · rintro (hlast | hone)
          · exact .inl hlast
          · exact absurd (List.cons.inj hone).2 (List.cons_ne_nil u us)

/-- The last level of a string is empty if it ends with a separator. -/
theorem getLast?_topicFilterTokens {s : Buffer} (hs : s ≠ []) :
    (topicFilterTokens s).getLast? = some [] ↔ s.getLast? = some topicFilterSeparator := by
  obtain ⟨ts, t, hts⟩ := (List.eq_nil_or_concat' (topicFilterTokens s)).resolve_left
    (topicFilterTokens_ne_nil s)
  have hsplit : topicFilterSeparator ∉ t := isSplit_tokens s t (by rw [hts]; simp)
  have hjoin := below_tokens s
  rw [hts] at hjoin
  have hlast : s.getLast? = (topicFilterSeparator :: t).getLast? := by
    have hcons : (topicFilterSeparator :: s).getLast? = s.getLast? := by
      obtain ⟨c, cs, rfl⟩ := List.exists_cons_of_ne_nil hs
      rw [List.getLast?_cons_cons]
    have hbelow : below (ts ++ [t]) = below ts ++ topicFilterSeparator :: t := by simp [below]
    rw [← hcons, ← hjoin, hbelow]
    exact List.getLast?_append_of_ne_nil _ (List.cons_ne_nil _ _)
  rw [hlast, hts, List.getLast?_concat]
  cases t with
  | nil => exact ⟨fun _ => rfl, fun _ => rfl⟩
  | cons c cs =>
    rw [List.getLast?_cons_cons]
    constructor
    · exact fun heq => by cases heq
    · exact fun heq => absurd (List.mem_of_getLast? heq) hsplit

/-- The filter that a handle names -/
theorem Linked.handleToTopicFilter_eq_iff (hm : Linked m) {topicFilter : Buffer} {h : PathEntryKey}
    (hf : topicFilter ≠ []) (hh : m.lookup topicFilter = some h) :
    m.handleToTopicFilter h = .ok topicFilter ↔
      topicFilter.getLast? ≠ some topicFilterSeparator := by
  obtain ⟨hnames, hup⟩ := hm.findTopicFilter_keys hh
  have hjoin : [topicFilterSeparator].intercalate (topicFilterTokens topicFilter) = topicFilter :=
    List.intercalate_splitOn topicFilterSeparator
  have hone : topicFilterTokens topicFilter ≠ [[]] := by
    intro heq
    rw [heq] at hjoin
    exact hf hjoin.symm
  have hiff := joined_eq_iff (topicFilterTokens_ne_nil topicFilter)
  rw [hjoin, or_iff_left hone, Ne, getLast?_topicFilterTokens hf] at hiff
  unfold handleToTopicFilter
  rw [hup, Except.ok_bind, foldl_prependLevel, hnames, Except.ok.injEq]
  exact hiff

end SubscriptionMapBase

end AsyncMqtt
