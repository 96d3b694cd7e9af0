import AsyncMqtt.Native.Types
import AsyncMqtt.Native.ValueAllocator

/-!
# Topic aliases

`topic_alias_send.hpp` and `topic_alias_recv.hpp`: what the sender and the
receiver of PUBLISH packets remember about topic aliases.
-/

namespace AsyncMqtt

/-- An entry of `topic_alias_send`. -/
structure TopicAliasEntry where
  topic : Buffer
  topicAlias : Nat
  /-- when the entry was last used -/
  tp : Nat
  deriving DecidableEq, Repr

/-- `topic_alias_send`. The entries stand in the order of the index over `tp`; the
    other two indices say that no alias and no topic occurs twice. -/
structure TopicAliasSend where
  max : Nat
  entries : List TopicAliasEntry
  va : ValueAllocator .two
  deriving DecidableEq

namespace TopicAliasSend

/-- `topic_alias_send(max)` -/
def make (max : Nat) (h : 1 ≤ max) : TopicAliasSend := ⟨max, [], .make .two 1 max h⟩

/-- Insertion into the index over `tp`. -/
def link (e : TopicAliasEntry) (es : List TopicAliasEntry) : List TopicAliasEntry :=
  es.takeWhile (·.tp ≤ e.tp) ++ e :: es.dropWhile (·.tp ≤ e.tp)

/-- `modify`: an entry whose time still fits stays where it is. If its topic
    collides with that of another entry, the indices are not rearranged, but the
    entry keeps its new value. -/
def modify (pre : List TopicAliasEntry) (e : TopicAliasEntry) (post : List TopicAliasEntry) :
    List TopicAliasEntry :=
  if (pre ++ post).any (·.topic = e.topic) then pre ++ e :: post
  else if pre.getLast?.all (·.tp ≤ e.tp) && post.head?.all (e.tp ≤ ·.tp) then pre ++ e :: post
  else link e (pre ++ post)

/-- `aliases_.get<tag_alias>().find(alias)`, with the entries before and after it. -/
def split (ta : Nat) : List TopicAliasEntry →
    Option (List TopicAliasEntry × TopicAliasEntry × List TopicAliasEntry)
  | [] => none
  | e :: es =>
    if e.topicAlias = ta then some ([], e, es)
    else (split ta es).map fun (pre, e', post) => (e :: pre, e', post)

/-- `insert_or_update`. A new alias for a topic that has one is not recorded. -/
def insertOrUpdate (t : TopicAliasSend) (topic : Buffer) (ta now : Nat) : TopicAliasSend :=
  let va := (t.va.use ta).2
  match split ta t.entries with
  | none =>
    if t.entries.any (·.topic = topic) then { t with va := va }
    else { t with entries := link ⟨topic, ta, now⟩ t.entries, va := va }
  | some (pre, _, post) => { t with entries := modify pre ⟨topic, ta, now⟩ post, va := va }

/-- The modification in `insert_or_update` calls its failure callback: the topic is that of
    another entry. -/
def modifyFails (t : TopicAliasSend) (topic : Buffer) (ta : Nat) : Bool :=
  match split ta t.entries with
  | none => false
  | some (pre, _, post) => (pre ++ post).any (·.topic = topic)

/-- `find(alias)`, which marks the entry as used; the topic is empty if there is none -/
def findTopic (t : TopicAliasSend) (ta now : Nat) : Buffer × TopicAliasSend :=
  if 1 ≤ ta ∧ ta ≤ t.max then
    match split ta t.entries with
    | none => ([], t)
    | some (pre, e, post) => (e.topic, { t with entries := modify pre { e with tp := now } post })
  else ([], t)

/-- `find_without_touch` -/
def findWithoutTouch (t : TopicAliasSend) (ta : Nat) : Buffer :=
  if 1 ≤ ta ∧ ta ≤ t.max then
    match split ta t.entries with
    | none => []
    | some (_, e, _) => e.topic
  else []

/-- `find(topic)` -/
def findAlias (t : TopicAliasSend) (topic : Buffer) : Option Nat :=
  (t.entries.find? (·.topic = topic)).map (·.topicAlias)

/-- `get_lru_alias`. If no alias is vacant then there is an entry. -/
def getLruAlias (t : TopicAliasSend) : Nat :=
  match t.va.firstVacant with
  | some ta => ta
  | none => (t.entries.head?.map (·.topicAlias)).getD 0

end TopicAliasSend

/-- `topic_alias_recv`: the topic of each alias -/
structure TopicAliasRecv where
  max : Nat
  aliases : List (Nat × Buffer)
  deriving DecidableEq, Repr

namespace TopicAliasRecv

/-- `topic_alias_recv(max)` -/
def make (max : Nat) : TopicAliasRecv := ⟨max, []⟩

/-- `insert_or_update` -/
def insertOrUpdate (t : TopicAliasRecv) (topic : Buffer) (ta : Nat) : TopicAliasRecv :=
  { t with aliases := (ta, topic) :: t.aliases.filter (·.1 ≠ ta) }

/-- `find`; the topic is empty if there is none -/
def find (t : TopicAliasRecv) (ta : Nat) : Buffer :=
  if 1 ≤ ta ∧ ta ≤ t.max then
    ((t.aliases.find? (·.1 = ta)).map Prod.snd).getD []
  else []

end TopicAliasRecv

end AsyncMqtt
