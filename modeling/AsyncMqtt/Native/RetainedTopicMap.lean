import AsyncMqtt.Native.SubscriptionMap

/-!
# The map of retained topics

`retained_topic_map.hpp`: a tree of topics whose nodes stand in one multi-index container. One index
finds an entry by its parent and its name, the other one goes through the children of a parent in the
order in which they were inserted, and so the container is a list in this order. An iterator is the
identifier of the entry that it points to. The sizes are those of a platform with 64 bits.
-/

namespace AsyncMqtt

/-- What the map of retained topics throws. -/
inductive RetainedTopicMapError where
  | noWildcardsAllowed
  | maxStoredTopics
  deriving DecidableEq

/-- `path_entry` -/
structure RetainedEntry (V : Type) where
  parentId : Nat
  name : Buffer
  id : Nat
  value : Option V
  count : Nat

/-- `retained_topic_map` -/
structure RetainedTopicMap (V : Type) where
  map : List (RetainedEntry V)
  mapSize : Nat
  nextNodeId : Nat

namespace RetainedTopicMap

variable {V : Type}

/-- `root_parent_id` -/
def rootParentId : Nat := 0

/-- `root_node_id` -/
def rootNodeId : Nat := 1

/-- The entry that `init_map` inserts. -/
def rootEntry : RetainedEntry V := ⟨rootParentId, [], rootNodeId, none, 1⟩

/-- `init_map` of an empty map -/
def make : RetainedTopicMap V := ⟨[rootEntry], 0, rootNodeId + 1⟩

/-- `find` of the index for direct access -/
def directFind (m : RetainedTopicMap V) (parentId : Nat) (name : Buffer) :
    Option (RetainedEntry V) :=
  m.map.find? fun e => e.parentId = parentId ∧ e.name = name

/-- The range of the index for wildcards that belongs to a parent. -/
def children (m : RetainedTopicMap V) (parentId : Nat) : List (RetainedEntry V) :=
  m.map.filter fun e => e.parentId = parentId

/-- What an iterator points to is changed. -/
def modify (id : Nat) (f : RetainedEntry V → RetainedEntry V) (m : RetainedTopicMap V) :
    RetainedTopicMap V :=
  { m with map := m.map.map fun e => if e.id = id then f e else e }

/-- `increase_count` -/
def increaseCount (e : RetainedEntry V) : Except RetainedTopicMapError (RetainedEntry V) :=
  if e.count = sizeMax then .error .maxStoredTopics else .ok { e with count := e.count + 1 }

/-- The callback of `create_topic`. -/
def createLevels (parent : Nat) :
    List Buffer → RetainedTopicMap V → Except RetainedTopicMapError (Nat × RetainedTopicMap V)
  | [], m => .ok (parent, m)
  | t :: ts, m =>
    if t = plusLevel ∨ t = hashLevel then .error .noWildcardsAllowed
    else
      match m.directFind parent t with
      | none =>
        let id := m.nextNodeId
        let m := { m with map := m.map ++ [⟨parent, t, id, none, 1⟩], nextNodeId := id + 1 }
        if m.nextNodeId = sizeMax then .error .maxStoredTopics else createLevels id ts m
      | some entry => do
        let entry ← increaseCount entry
        createLevels entry.id ts (m.modify entry.id fun _ => entry)

/-- `create_topic` -/
def createTopic (topic : Buffer) (m : RetainedTopicMap V) :
    Except RetainedTopicMapError (Nat × RetainedTopicMap V) :=
  createLevels rootNodeId (topicFilterTokens topic) m

/-- The callback of `find_topic`. There is no path if a level has no node. -/
def findLevels (m : RetainedTopicMap V) (parent : Nat) :
    List Buffer → Option (List (RetainedEntry V))
  | [] => some []
  | t :: ts =>
    match m.directFind parent t with
    | none => none
    | some entry => (m.findLevels entry.id ts).map (entry :: ·)

/-- `find_topic` -/
def findTopic (topic : Buffer) (m : RetainedTopicMap V) : List (RetainedEntry V) :=
  (m.findLevels rootNodeId (topicFilterTokens topic)).getD []

/-- The children that `match_hash_entries` finds below some entries. -/
def hashChildren (m : RetainedTopicMap V) (ignoreSystem : Bool) (entries : List Nat) :
    List (RetainedEntry V) :=
  entries.flatMap fun root =>
    (m.children root).filter fun i => ! ignoreSystem || ! isSystemLevel i.name

/-- The loop of `match_hash_entries`. There are not more levels than entries, and so the fuel
    suffices. -/
def matchHashLevels (m : RetainedTopicMap V) : Nat → Bool → List Nat → List V
  | 0, _, _ => []
  | fuel + 1, ignoreSystem, entries =>
    if entries.isEmpty then []
    else
      let newEntries := m.hashChildren ignoreSystem entries
      newEntries.filterMap RetainedEntry.value ++
        m.matchHashLevels fuel false (newEntries.map RetainedEntry.id)

/-- `match_hash_entries`, with what is called back one after another -/
def matchHashEntries (m : RetainedTopicMap V) (parent : Nat) (ignoreSystem : Bool) : List V :=
  m.matchHashLevels (m.map.length + 1) ignoreSystem [parent]

/-- What one entry adds to the new entries in `find_match` for the level `+`. At the root, the loop
    ends at a level of the server. -/
def plusChildren (m : RetainedTopicMap V) (entry : RetainedEntry V) : List (RetainedEntry V) :=
  (m.children entry.id).takeWhile fun i => entry.id ≠ rootNodeId || ! isSystemLevel i.name

/-- The callback of `find_match`, and the loop after it. At `#` the callback returns from inside its
    loop, and the entries are those of the level before. -/
def matchLevels (m : RetainedTopicMap V) : List Buffer → List (RetainedEntry V) → List V
  | [], entries => entries.filterMap RetainedEntry.value
  | t :: ts, entries =>
    if t = hashLevel then
      (match entries.head? with
        | none => []
        | some entry => m.matchHashEntries entry.id (entry.id = rootNodeId)) ++
        entries.filterMap RetainedEntry.value
    else
      let newEntries :=
        if t = plusLevel then entries.flatMap m.plusChildren
        else entries.flatMap fun entry => (m.directFind entry.id t).toList
      if newEntries.isEmpty then [] else m.matchLevels ts newEntries

/-- `find_match`, with what is called back one after another -/
def findMatch (topicFilter : Buffer) (m : RetainedTopicMap V) : List V :=
  m.matchLevels (topicFilterTokens topicFilter) (m.directFind rootParentId []).toList

/-- The loop of `erase_topic` -/
def eraseLevels : List Nat → RetainedTopicMap V → RetainedTopicMap V
  | [], m => m
  | id :: ids, m =>
    let m := m.modify id fun e => { e with count := e.count - 1 }
    if (m.map.find? (·.id = id)).any (·.count = 0) then
      eraseLevels ids { m with map := m.map.filter (·.id ≠ id) }
    else eraseLevels ids m

/-- `erase_topic` -/
def eraseTopic (topic : Buffer) (m : RetainedTopicMap V) : Nat × RetainedTopicMap V :=
  let path := m.findTopic topic
  match path.getLast? with
  | none => (0, m)
  | some back =>
    if back.value.isSome then
      (1, eraseLevels (path.map RetainedEntry.id) (m.modify back.id ({ · with value := none })))
    else (0, m)

/-- `increase_topics` -/
def increaseTopics :
    List (RetainedEntry V) → RetainedTopicMap V → Except RetainedTopicMapError (RetainedTopicMap V)
  | [], m => .ok m
  | i :: path, m => do
    let entry ← increaseCount i
    increaseTopics path (m.modify i.id fun _ => entry)

/-- `increase_map_size` -/
def increaseMapSize (m : RetainedTopicMap V) :
    Except RetainedTopicMapError (RetainedTopicMap V) :=
  if m.mapSize = sizeMax then .error .maxStoredTopics
  else .ok { m with mapSize := m.mapSize + 1 }

/-- `insert_or_assign`: the number of topics that are new -/
def insertOrAssign (topic : Buffer) (value : V) (m : RetainedTopicMap V) :
    Except RetainedTopicMapError (Nat × RetainedTopicMap V) := do
  let path := m.findTopic topic
  match path.getLast? with
  | none => do
    let (newTopic, m) ← m.createTopic topic
    let m ← (m.modify newTopic ({ · with value := some value })).increaseMapSize
    .ok (1, m)
  | some back =>
    if back.value.isNone then do
      let m ← m.increaseTopics path
      let m ← (m.modify back.id ({ · with value := some value })).increaseMapSize
      .ok (1, m)
    else .ok (0, m.modify back.id ({ · with value := some value }))

/-- `find`, with what is called back one after another -/
def find (topicFilter : Buffer) (m : RetainedTopicMap V) : List V := m.findMatch topicFilter

/-- `erase`: the number of topics that are removed -/
def erase (topic : Buffer) (m : RetainedTopicMap V) : Nat × RetainedTopicMap V :=
  let (result, m) := m.eraseTopic topic
  (result, { m with mapSize := m.mapSize - result })

/-- `size` -/
def size (m : RetainedTopicMap V) : Nat := m.mapSize

/-- `internal_size` -/
def internalSize (m : RetainedTopicMap V) : Nat := m.map.length

/-- `clear` -/
def clear (_ : RetainedTopicMap V) : RetainedTopicMap V := make

/-! ### What is left when a call throws

The functions that can throw once more, with the map that they leave in any case. -/

/-- `direct_index.modify` with `increase_count`. The container erases the entry if that throws. -/
def increaseCountAt (m : RetainedTopicMap V) (entry : RetainedEntry V) :
    Except RetainedTopicMapError (RetainedEntry V) × RetainedTopicMap V :=
  match increaseCount entry with
  | .error e => (.error e, { m with map := m.map.filter (·.id ≠ entry.id) })
  | .ok entry => (.ok entry, m.modify entry.id fun _ => entry)

/-- The callback of `create_topic` -/
def createLevelsState (parent : Nat) :
    List Buffer → RetainedTopicMap V → Except RetainedTopicMapError Nat × RetainedTopicMap V
  | [], m => (.ok parent, m)
  | t :: ts, m =>
    if t = plusLevel ∨ t = hashLevel then (.error .noWildcardsAllowed, m)
    else
      match m.directFind parent t with
      | none =>
        let id := m.nextNodeId
        let m := { m with map := m.map ++ [⟨parent, t, id, none, 1⟩], nextNodeId := id + 1 }
        if m.nextNodeId = sizeMax then (.error .maxStoredTopics, m) else createLevelsState id ts m
      | some entry =>
        match m.increaseCountAt entry with
        | (.error e, m) => (.error e, m)
        | (.ok entry, m) => createLevelsState entry.id ts m

/-- `increase_topics` -/
def increaseTopicsState :
    List (RetainedEntry V) → RetainedTopicMap V →
      Except RetainedTopicMapError Unit × RetainedTopicMap V
  | [], m => (.ok (), m)
  | i :: path, m =>
    match m.increaseCountAt i with
    | (.error e, m) => (.error e, m)
    | (.ok _, m) => increaseTopicsState path m

/-- `insert_or_assign` from the assignment of a new value on -/
def storeNew (id : Nat) (value : V) (m : RetainedTopicMap V) :
    Except RetainedTopicMapError Nat × RetainedTopicMap V :=
  let m := m.modify id ({ · with value := some value })
  match m.increaseMapSize with
  | .error e => (.error e, m)
  | .ok m => (.ok 1, m)

/-- `insert_or_assign` -/
def insertOrAssignState (topic : Buffer) (value : V) (m : RetainedTopicMap V) :
    Except RetainedTopicMapError Nat × RetainedTopicMap V :=
  let path := m.findTopic topic
  match path.getLast? with
  | none =>
    match createLevelsState rootNodeId (topicFilterTokens topic) m with
    | (.error e, m) => (.error e, m)
    | (.ok newTopic, m) => m.storeNew newTopic value
  | some back =>
    if back.value.isNone then
      match increaseTopicsState path m with
      | (.error e, m) => (.error e, m)
      | (.ok (), m) => m.storeNew back.id value
    else (.ok 0, m.modify back.id ({ · with value := some value }))

end RetainedTopicMap

end AsyncMqtt
