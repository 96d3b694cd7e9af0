import AsyncMqtt.Native.PacketV311
import AsyncMqtt.Native.SubscriptionMap

/-!
# Shared targets

`subscription.hpp`, `shared_target.hpp`, and what `subscribe`, `unsubscribe` and `do_publish` of the
broker do with `subs_map_` and `shared_targets_`. The subscription map has one entry for a filter and
a client. The shared targets have one entry for a client and a share name, with the filters under it.

A session is the pair by which `session_states` knows it. The readings of the steady clock are
parameters. The allocation of nodes in the subscription map can fail, and then `subscribe` throws.
-/

namespace AsyncMqtt

/-- `sub::opts::get_rap` -/
def SubOpts.getRap (opts : UInt8) : UInt8 := opts &&& 0b00001000

/-- `session_state_ref`: the user name and the client identifier of the session -/
structure SessionRef where
  username : Buffer
  clientId : Buffer
  deriving DecidableEq

/-- `subscription` -/
structure Subscription where
  ss : SessionRef
  sharename : Buffer
  topic : Buffer
  opts : UInt8
  sid : Option Nat
  deriving DecidableEq

namespace SharedTarget

/-- `shared_target::entry` -/
structure Entry where
  shareName : Buffer
  ss : SessionRef
  tp : Nat
  tfSubs : AList fun _ : Buffer => Subscription

namespace Entry

/-- The key of the index `tag_cid_sn`, which is unique -/
def key (e : Entry) : Buffer × Buffer := (e.ss.clientId, e.shareName)

/-- The entry has the share name and the filter. -/
def hasFilter (shareName topicFilter : Buffer) (e : Entry) : Bool :=
  e.shareName = shareName && (e.tfSubs.lookup topicFilter).isSome

end Entry

end SharedTarget

/-- `shared_target`. The entries of one share name stand in the order of the index `tag_sn_tp`. -/
abbrev SharedTarget := List SharedTarget.Entry

namespace SharedTarget

/-- Insertion into the index `tag_sn_tp`: behind the entries of the share name that are not later -/
def insertByTp (e : Entry) (t : SharedTarget) : SharedTarget :=
  let notLater := fun other : Entry => ! (other.shareName = e.shareName && e.tp < other.tp)
  t.takeWhile notLater ++ e :: t.dropWhile notLater

/-- `emplace` of `tf_subs`, which does not overwrite -/
def emplaceSub (topicFilter : Buffer) (sub : Subscription) (e : Entry) : Entry :=
  { e with tfSubs :=
      if (e.tfSubs.lookup topicFilter).isSome then e.tfSubs else e.tfSubs.insert topicFilter sub }

/-- `shared_target::insert` -/
def insert (now : Nat) (shareName topicFilter : Buffer) (sub : Subscription) (ss : SessionRef)
    (t : SharedTarget) : SharedTarget :=
  if t.any fun e => e.key = (ss.clientId, shareName) then
    t.map fun e => if e.key = (ss.clientId, shareName) then emplaceSub topicFilter sub e else e
  else insertByTp ⟨shareName, ss, now, (∅ : AList _).insert topicFilter sub⟩ t

/-- `shared_target::erase` with a share name and a filter -/
def erase (shareName topicFilter : Buffer) (ss : SessionRef) (t : SharedTarget) : SharedTarget :=
  let t := t.map fun e =>
    if e.key = (ss.clientId, shareName) then { e with tfSubs := e.tfSubs.erase topicFilter } else e
  t.filter fun e => ! (e.key = (ss.clientId, shareName) && e.tfSubs.entries.isEmpty)

/-- `shared_target::erase` with a session only -/
def eraseSession (ss : SessionRef) (t : SharedTarget) : SharedTarget :=
  t.filter fun e => ! (e.ss.clientId = ss.clientId)

/-- `modify` of the index `tag_sn_tp`: the entry stays between its neighbours if the new time point
    allows it, and else it is inserted anew. -/
def modifyTp (now : Nat) (before : SharedTarget) (elem : Entry) (after : SharedTarget) :
    SharedTarget :=
  let group := fun e : Entry => decide (e.shareName = elem.shareName)
  let stays := ((before.filter group).getLast?.all fun e => decide (e.tp ≤ now)) &&
    ((after.filter group).head?.all fun e => decide (now ≤ e.tp))
  if stays then before ++ { elem with tp := now } :: after
  else insertByTp { elem with tp := now } (before ++ after)

/-- `shared_target::get_target`: the entry of the share name that has the filter and was used the
    longest time ago -/
def getTarget (now : Nat) (shareName topicFilter : Buffer) (t : SharedTarget) :
    Option (SessionRef × Subscription) × SharedTarget :=
  let skipped := fun e : Entry => ! e.hasFilter shareName topicFilter
  match t.dropWhile skipped with
  | [] => (none, t)
  | elem :: after =>
    ((elem.tfSubs.lookup topicFilter).map fun sub => (elem.ss, sub),
      modifyTp now (t.takeWhile skipped) elem after)

end SharedTarget

/-- `subs_map_` and `shared_targets_` of the broker -/
structure Subscriptions where
  subsMap : MultipleSubscriptionMap Buffer Subscription
  sharedTargets : SharedTarget

namespace Subscriptions

/-- What a new broker has. -/
def make : Subscriptions := ⟨SubscriptionMapBase.make, []⟩

/-- `session_state::subscribe`, and whether the retained messages are asked for. -/
def subscribe (now : Nat) (ss : SessionRef) (shareName topicFilter : Buffer) (subopts : UInt8)
    (sid : Option Nat) (s : Subscriptions) :
    Except SubscriptionMapError (Bool × Subscriptions) := do
  let sub : Subscription := ⟨ss, shareName, topicFilter, subopts, sid⟩
  let sharedTargets :=
    if shareName = [] then s.sharedTargets
    else s.sharedTargets.insert now shareName topicFilter sub ss
  let ((_, inserted), subsMap) ← s.subsMap.insertOrAssign topicFilter ss.clientId sub
  let rh := SubOpts.getRetainHandling subopts
  let h := if inserted then rh = 0b00000000 || rh = 0b00010000 else rh = 0b00000000
  .ok (h, ⟨subsMap, sharedTargets⟩)

/-- `session_state::unsubscribe` -/
def unsubscribe (ss : SessionRef) (shareName topicFilter : Buffer) (s : Subscriptions) :
    Except SubscriptionMapError Subscriptions := do
  let sharedTargets :=
    if shareName = [] then s.sharedTargets
    else s.sharedTargets.erase shareName topicFilter ss
  match s.subsMap.lookup topicFilter with
  | none => .ok { s with sharedTargets }
  | some handle => do
    let (_, subsMap) ← s.subsMap.eraseHandle handle ss.clientId
    .ok ⟨subsMap, sharedTargets⟩

/-- A call of `deliver` in `do_publish`: the session, the share name and the filter for which it was
    selected, and the subscription whose options are used. -/
structure Selected where
  ss : SessionRef
  sharename : Buffer
  topicFilter : Buffer
  sub : Subscription
  deriving DecidableEq

/-- What the callback of `do_publish` reads and writes. -/
structure PublishState where
  sent : List (Buffer × Buffer)
  sharedTargets : SharedTarget
  selected : List Selected

/-- The callback that `do_publish` gives to `subs_map_.modify`, at a reading of the clock -/
def publishSub (sourceClientId : Buffer) (now : Nat) (st : PublishState) (sub : Subscription) :
    PublishState :=
  if sub.sharename = [] then
    if SubOpts.getNl sub.opts = 0b00000100 ∧ sub.ss.clientId = sourceClientId then st
    else { st with selected := st.selected ++ [⟨sub.ss, [], sub.topic, sub⟩] }
  else if (sub.sharename, sub.topic) ∈ st.sent then st
  else
    let (target, sharedTargets) := st.sharedTargets.getTarget now sub.sharename sub.topic
    ⟨(sub.sharename, sub.topic) :: st.sent, sharedTargets,
      st.selected ++ target.toList.map fun i => ⟨i.1, sub.sharename, sub.topic, i.2⟩⟩

/-- The part of `do_publish` that selects the subscribers. The clock is read at each callback. -/
def publishSubs (sourceClientId topic : Buffer) (clock : Nat → Nat) (s : Subscriptions) :
    PublishState :=
  (s.subsMap.find topic).zipIdx.foldl
    (fun st i => publishSub sourceClientId (clock i.2) st i.1.2) ⟨[], s.sharedTargets, []⟩

end Subscriptions

end AsyncMqtt
