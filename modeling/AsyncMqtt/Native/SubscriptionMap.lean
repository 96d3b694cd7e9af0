import Mathlib.Data.List.AList
import AsyncMqtt.Native.TopicFilter

/-!
# The subscription map

`subscription_map.hpp`: a tree of topic filters whose nodes stand in one hash map. The key of a node
is the identifier of its parent and the level. An iterator of the hash map is the key of what it
points to. The sizes are those of a platform with 64 bits.
-/

namespace AsyncMqtt

/-- What the subscription map throws. -/
inductive SubscriptionMapError where
  | invalidTopicFilter
  | invalidHandle
  | maxStoredTopics
  deriving DecidableEq

/-- `path_entry_key`, which is also `handle` -/
abbrev PathEntryKey := Nat × Buffer

/-- `std::numeric_limits<std::size_t>::max()` -/
def sizeMax : Nat := 2 ^ 64 - 1

/-- `count_storage<8>` -/
structure CountStorage where
  value : Nat
  hasHashChild : Bool
  hasPlusChild : Bool
  deriving DecidableEq

namespace CountStorage

/-- `count_storage<8>::max()` -/
def max : Nat := sizeMax >>> 2

/-- `increase_count_storage` -/
def increase (count : CountStorage) : Except SubscriptionMapError CountStorage :=
  if count.value = max then .error .maxStoredTopics
  else .ok { count with value := count.value + 1 }

/-- `decrease_count_storage` -/
def decrease (count : CountStorage) : CountStorage := { count with value := count.value - 1 }

end CountStorage

/-- `path_entry` -/
structure PathEntry (V : Type) where
  id : Nat
  parent : PathEntryKey
  count : CountStorage
  value : V

/-- `subscription_map_base` -/
structure SubscriptionMapBase (V : Type) where
  map : AList fun _ : PathEntryKey => PathEntry V
  nextNodeId : Nat
  mapSize : Nat

namespace SubscriptionMapBase

variable {V : Type}

/-- `root_node_id`, the first node identifier -/
def rootNodeId : Nat := 1

/-- `root_key`, with the second one -/
def rootKey : PathEntryKey := (2, [])

/-- `subscription_map_base()` -/
def make [Inhabited V] : SubscriptionMapBase V :=
  ⟨AList.singleton rootKey ⟨rootNodeId, (0, []), ⟨1, false, false⟩, default⟩, 2, 0⟩

/-- `generate_node_id` -/
def generateNodeId (m : SubscriptionMapBase V) :
    Except SubscriptionMapError (Nat × SubscriptionMapBase V) :=
  if m.nextNodeId = sizeMax then .error .maxStoredTopics
  else .ok (m.nextNodeId + 1, { m with nextNodeId := m.nextNodeId + 1 })

/-- What an iterator points to is changed. -/
def modify (key : PathEntryKey) (f : PathEntry V → PathEntry V) (m : SubscriptionMapBase V) :
    SubscriptionMapBase V :=
  match m.map.lookup key with
  | none => m
  | some entry => { m with map := m.map.insert key (f entry) }

/-- The callback of `find_topic_filter`. There is no path if a level has no node. -/
def findLevels (m : SubscriptionMapBase V) (parentId : Nat) :
    List Buffer → Option (List PathEntryKey)
  | [] => some []
  | t :: ts =>
    match m.map.lookup (parentId, t) with
    | none => none
    | some entry => (m.findLevels entry.id ts).map ((parentId, t) :: ·)

/-- `find_topic_filter` -/
def findTopicFilter (topicFilter : Buffer) (m : SubscriptionMapBase V) : List PathEntryKey :=
  (m.findLevels rootNodeId (topicFilterTokens topicFilter)).getD []

/-- `set_plus_child` and `set_hash_child` when a child with this level is created -/
def setChildFlags (t : Buffer) (entry : PathEntry V) : PathEntry V :=
  { entry with count := { entry.count with
      hasPlusChild := entry.count.hasPlusChild || t = plusLevel
      hasHashChild := entry.count.hasHashChild || t = hashLevel } }

/-- The callback of `create_topic_filter`. `parent` points to the entry with `parentId`. -/
def createLevels [Inhabited V] (parent : PathEntryKey) (parentId : Nat) :
    List Buffer → SubscriptionMapBase V →
    Except SubscriptionMapError (List PathEntryKey × SubscriptionMapBase V)
  | [], m => .ok ([], m)
  | t :: ts, m =>
    let key := (parentId, t)
    match m.map.lookup key with
    | none => do
      let (id, m) ← m.generateNodeId
      let entry : PathEntry V := ⟨id, parent, ⟨1, false, false⟩, default⟩
      let m := { m with map := m.map.insert key entry }.modify parent (setChildFlags t)
      let (path, m) ← createLevels key id ts m
      .ok (key :: path, m)
    | some entry => do
      let count ← entry.count.increase
      let m := m.modify key fun entry => { entry with count }
      let (path, m) ← createLevels key entry.id ts m
      .ok (key :: path, m)

/-- `create_topic_filter` -/
def createTopicFilter [Inhabited V] (topicFilter : Buffer) (m : SubscriptionMapBase V) :
    Except SubscriptionMapError (List PathEntryKey × SubscriptionMapBase V) :=
  createLevels rootKey rootNodeId (topicFilterTokens topicFilter) m

/-- `set_plus_child(false)` and `set_hash_child(false)`, if the flags say so -/
def clearChildFlags (removePlusChildFlag removeHashChildFlag : Bool) (entry : PathEntry V) :
    PathEntry V :=
  { entry with count := { entry.count with
      hasPlusChild := entry.count.hasPlusChild && ! removePlusChildFlag
      hasHashChild := entry.count.hasHashChild && ! removeHashChildFlag } }

/-- The loop of `remove_topic_filter` over the reversed path, and what follows it. -/
def removeEntries (removePlusChildFlag removeHashChildFlag : Bool) :
    List PathEntryKey → SubscriptionMapBase V → SubscriptionMapBase V
  | [], m => m.modify rootKey (clearChildFlags removePlusChildFlag removeHashChildFlag)
  | key :: keys, m =>
    let m := m.modify key fun entry =>
      let entry := clearChildFlags removePlusChildFlag removeHashChildFlag entry
      { entry with count := entry.count.decrease }
    if (m.map.lookup key).any (·.count.value = 0) then
      removeEntries (key.2 = plusLevel) (key.2 = hashLevel) keys { m with map := m.map.erase key }
    else removeEntries false false keys m

/-- `remove_topic_filter` -/
def removeTopicFilter (path : List PathEntryKey) (m : SubscriptionMapBase V) :
    SubscriptionMapBase V :=
  removeEntries false false path.reverse m

/-- What one entry adds to the new entries in `find_match_impl`. -/
def matchChildren (m : SubscriptionMapBase V) (t : Buffer) (entry : PathEntry V) :
    List (PathEntry V) :=
  (m.map.lookup (entry.id, t)).toList ++
    if entry.count.hasPlusChild ∧ (entry.id ≠ rootNodeId ∨ ! isSystemLevel t) then
      (m.map.lookup (entry.id, plusLevel)).toList
    else []

/-- What is called back for one entry in `find_match_impl`. -/
def matchHashChild (m : SubscriptionMapBase V) (t : Buffer) (entry : PathEntry V) : List V :=
  if entry.count.hasHashChild ∧ (entry.id ≠ rootNodeId ∨ ! isSystemLevel t) then
    ((m.map.lookup (entry.id, hashLevel)).map PathEntry.value).toList
  else []

/-- The callback of `find_match_impl`, and the loop after it. -/
def matchLevels (m : SubscriptionMapBase V) : List Buffer → List (PathEntry V) → List V
  | [], entries => entries.map PathEntry.value
  | t :: ts, entries =>
    let newEntries := entries.flatMap (m.matchChildren t)
    entries.flatMap (m.matchHashChild t) ++
      if newEntries.isEmpty then [] else m.matchLevels ts newEntries

/-- `find_match`, with what is called back one after another -/
def findMatch (topic : Buffer) (m : SubscriptionMapBase V) : List V :=
  m.matchLevels (topicFilterTokens topic) (m.map.lookup rootKey).toList

/-- `handle_to_iterators`, from the handle up to the root. An entry has fewer parents than there are
    entries, and so the fuel suffices. -/
def handleToPath (m : SubscriptionMapBase V) :
    Nat → PathEntryKey → Except SubscriptionMapError (List PathEntryKey)
  | 0, _ => .error .invalidHandle
  | fuel + 1, h =>
    if h = rootKey then .ok []
    else
      match m.map.lookup h with
      | none => .error .invalidHandle
      | some entry => do
        let path ← m.handleToPath fuel entry.parent
        .ok (h :: path)

/-- `handle_to_iterators` with a callback, in the order of the calls -/
def handleToIterators (h : PathEntryKey) (m : SubscriptionMapBase V) :
    Except SubscriptionMapError (List PathEntryKey) :=
  m.handleToPath (m.map.entries.length + 1) h

/-- `increase_subscriptions` -/
def increaseSubscriptions :
    List PathEntryKey → SubscriptionMapBase V → Except SubscriptionMapError (SubscriptionMapBase V)
  | [], m => .ok m
  | key :: keys, m =>
    match m.map.lookup key with
    | none => .error .invalidHandle
    | some entry => do
      let count ← entry.count.increase
      increaseSubscriptions keys (m.modify key fun entry => { entry with count })

/-- `increase_map_size` -/
def increaseMapSize (m : SubscriptionMapBase V) :
    Except SubscriptionMapError (SubscriptionMapBase V) :=
  if m.mapSize = sizeMax then .error .maxStoredTopics
  else .ok { m with mapSize := m.mapSize + 1 }

/-- `decrease_map_size`. Without the assertion, the size wraps. -/
def decreaseMapSize (m : SubscriptionMapBase V) : SubscriptionMapBase V :=
  { m with mapSize := if m.mapSize = 0 then sizeMax else m.mapSize - 1 }

/-- `internal_size` -/
def internalSize (m : SubscriptionMapBase V) : Nat := m.map.entries.length

/-- `size` -/
def size (m : SubscriptionMapBase V) : Nat := m.mapSize

/-- `lookup` -/
def lookup (topicFilter : Buffer) (m : SubscriptionMapBase V) : Option PathEntryKey :=
  (m.findTopicFilter topicFilter).getLast?

/-- The callback of `handle_to_topic_filter` -/
def prependLevel (result : Buffer) (i : PathEntryKey) : Buffer :=
  if result.isEmpty then i.2 else i.2 ++ topicFilterSeparator :: result

/-- `handle_to_topic_filter` -/
def handleToTopicFilter (h : PathEntryKey) (m : SubscriptionMapBase V) :
    Except SubscriptionMapError Buffer := do
  let path ← m.handleToIterators h
  .ok (path.foldl prependLevel [])

end SubscriptionMapBase

/-- `single_subscription_map` -/
abbrev SingleSubscriptionMap (V : Type) := SubscriptionMapBase (Option V)

namespace SingleSubscriptionMap

open SubscriptionMapBase

variable {V : Type}

/-- There is a value where an iterator points to. -/
def hasValue (iter : PathEntryKey) (m : SingleSubscriptionMap V) : Bool :=
  (m.map.lookup iter).any fun entry => entry.value.isSome

/-- `emplace` of the value that an iterator points to -/
def emplaceAt (iter : PathEntryKey) (value : V) (m : SingleSubscriptionMap V) :
    SingleSubscriptionMap V :=
  m.modify iter fun entry => { entry with value := some value }

/-- `insert`: the handle, and whether there was no value -/
def insert (topicFilter : Buffer) (value : V) (m : SingleSubscriptionMap V) :
    Except SubscriptionMapError ((PathEntryKey × Bool) × SingleSubscriptionMap V) := do
  let existingSubscription := m.findTopicFilter topicFilter
  match existingSubscription.getLast? with
  | some back =>
    if m.hasValue back then .ok ((back, false), m)
    else .ok ((back, true), m.emplaceAt back value)
  | none => do
    let (newTopicFilter, m) ← m.createTopicFilter topicFilter
    let back := newTopicFilter.getLastD rootKey
    let m ← (emplaceAt back value m).increaseMapSize
    .ok ((back, true), m)

/-- `update` with a topic filter -/
def update (topicFilter : Buffer) (value : V) (m : SingleSubscriptionMap V) :
    Except SubscriptionMapError (SingleSubscriptionMap V) :=
  match (m.findTopicFilter topicFilter).getLast? with
  | none => .error .invalidTopicFilter
  | some back => .ok (m.emplaceAt back value)

/-- `update` with a handle -/
def updateHandle (h : PathEntryKey) (value : V) (m : SingleSubscriptionMap V) :
    Except SubscriptionMapError (SingleSubscriptionMap V) :=
  if (m.map.lookup h).isNone then .error .invalidTopicFilter else .ok (m.emplaceAt h value)

/-- What both `erase` do with a path -/
def erasePath (path : List PathEntryKey) (m : SingleSubscriptionMap V) :
    Nat × SingleSubscriptionMap V :=
  match path.getLast? with
  | none => (0, m)
  | some back =>
    if m.hasValue back then (1, (m.removeTopicFilter path).decreaseMapSize) else (0, m)

/-- `erase` with a topic filter: the number of values that are removed -/
def erase (topicFilter : Buffer) (m : SingleSubscriptionMap V) : Nat × SingleSubscriptionMap V :=
  m.erasePath (m.findTopicFilter topicFilter)

/-- `erase` with a handle: the number of values that are removed -/
def eraseHandle (h : PathEntryKey) (m : SingleSubscriptionMap V) :
    Except SubscriptionMapError (Nat × SingleSubscriptionMap V) := do
  let path ← m.handleToIterators h
  .ok (m.erasePath path.reverse)

/-- `find`, with what is called back one after another -/
def find (topic : Buffer) (m : SingleSubscriptionMap V) : List V :=
  (m.findMatch topic).filterMap id

end SingleSubscriptionMap

/-- `multiple_subscription_map`. The container is `std::unordered_map`. -/
abbrev MultipleSubscriptionMap (K V : Type) [DecidableEq K] :=
  SubscriptionMapBase (AList fun _ : K => V)

namespace MultipleSubscriptionMap

open SubscriptionMapBase

variable {K V : Type} [DecidableEq K]

/-- `insert_or_assign` of the container that an iterator points to, and whether the key is new -/
def assignAt (iter : PathEntryKey) (key : K) (value : V) (m : MultipleSubscriptionMap K V) :
    Bool × MultipleSubscriptionMap K V :=
  ((m.map.lookup iter).any fun entry => (entry.value.lookup key).isNone,
    m.modify iter fun entry => { entry with value := entry.value.insert key value })

/-- `erase` of the container that an iterator points to, and whether the key was there -/
def eraseAt (iter : PathEntryKey) (key : K) (m : MultipleSubscriptionMap K V) :
    Bool × MultipleSubscriptionMap K V :=
  ((m.map.lookup iter).any fun entry => (entry.value.lookup key).isSome,
    m.modify iter fun entry => { entry with value := entry.value.erase key })

/-- `insert_or_assign` with a topic filter: the handle, and whether the key is new -/
def insertOrAssign (topicFilter : Buffer) (key : K) (value : V) (m : MultipleSubscriptionMap K V) :
    Except SubscriptionMapError ((PathEntryKey × Bool) × MultipleSubscriptionMap K V) := do
  let path := m.findTopicFilter topicFilter
  match path.getLast? with
  | none => do
    let (newTopicFilter, m) ← m.createTopicFilter topicFilter
    let back := newTopicFilter.getLastD rootKey
    let m ← (assignAt back key value m).2.increaseMapSize
    .ok ((back, true), m)
  | some back =>
    match assignAt back key value m with
    | (true, m) => do
      let m ← m.increaseSubscriptions path
      let m ← m.increaseMapSize
      .ok ((back, true), m)
    | (false, m) => .ok ((back, false), m)

/-- `insert_or_assign` with a handle -/
def insertOrAssignHandle (h : PathEntryKey) (key : K) (value : V)
    (m : MultipleSubscriptionMap K V) :
    Except SubscriptionMapError ((PathEntryKey × Bool) × MultipleSubscriptionMap K V) := do
  if (m.map.lookup h).isNone then .error .invalidHandle
  else
    match assignAt h key value m with
    | (true, m) => do
      let path ← m.handleToIterators h
      let m ← m.increaseSubscriptions path
      let m ← m.increaseMapSize
      .ok ((h, true), m)
    | (false, m) => .ok ((h, false), m)

/-- `erase` with a handle: the number of elements that are removed -/
def eraseHandle (h : PathEntryKey) (key : K) (m : MultipleSubscriptionMap K V) :
    Except SubscriptionMapError (Nat × MultipleSubscriptionMap K V) := do
  if (m.map.lookup h).isNone then .error .invalidHandle
  else
    match eraseAt h key m with
    | (true, m) => do
      let path ← m.handleToIterators h
      .ok (1, (m.removeTopicFilter path.reverse).decreaseMapSize)
    | (false, m) => .ok (0, m)

/-- `erase` with a topic filter: the number of elements that are removed -/
def erase (topicFilter : Buffer) (key : K) (m : MultipleSubscriptionMap K V) :
    Nat × MultipleSubscriptionMap K V :=
  let path := m.findTopicFilter topicFilter
  match path.getLast? with
  | none => (0, m)
  | some back =>
    match eraseAt back key m with
    | (true, m) => (1, m.decreaseMapSize.removeTopicFilter path)
    | (false, m) => (0, m)

/-- `find`, with the keys and values that are called back -/
def find (topic : Buffer) (m : MultipleSubscriptionMap K V) : List (K × V) :=
  (m.findMatch topic).flatMap fun values => values.entries.map fun i => (i.1, i.2)

end MultipleSubscriptionMap

end AsyncMqtt
