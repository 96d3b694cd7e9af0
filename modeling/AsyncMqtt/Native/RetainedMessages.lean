import AsyncMqtt.Native.PacketV311
import AsyncMqtt.Native.RetainedTopicMap

/-!
# Retained messages

What `do_publish` of the broker does with `retains_`, and what the two callers give to it:
`publish_handler` for a PUBLISH of a client that may publish to the topic, and `send_will_impl` of
`session_state` for a will.

The timer of a retained message is known by the number of the call of `do_publish` that made it. Its
closure holds a weak pointer; shared ones are held by the stored message, and by the call until it
returns. `mtx_retains_` is taken for each change of `retains_`, and not for `wp.lock()`, and so a call
and a handler go step by step beside the others. The time itself is left out: an interval may elapse
at any moment.
-/

namespace AsyncMqtt

/-- `retain_type` -/
structure RetainType where
  topic : Buffer
  payload : List Buffer
  props : Properties
  qosValue : UInt8
  timMessageExpiry : Option Nat

/-- The parameters of `do_publish`. Of the session only `get_protocol_version` is used here, which is
    the version of the connection that created the session. -/
structure PublishParams where
  sourceVersion : ProtocolVersion
  topic : Buffer
  payload : List Buffer
  opts : UInt8
  props : Properties

/-- `opts.get_qos() | opts.get_retain()` -/
def qosAndRetain (opts : UInt8) : UInt8 := opts &&& 0b00000111

/-- `forward_props` of `publish_handler` -/
def forwardPublishProps (props : Properties) : Properties :=
  props.filter fun p => p.id ≠ .topicAlias ∧ p.id ≠ .subscriptionIdentifier

/-- `forward_props` of `send_will_impl`. The first Message Expiry Interval is replaced by what is left
    of it, if there is a timer. -/
def forwardWillProps (d : Option Nat) (props : Properties) : Properties :=
  let forwardProps := props.filter fun p => p.id ≠ .willDelayInterval
  match d with
  | none => forwardProps
  | some d =>
    let before := forwardProps.takeWhile fun p => p.id ≠ .messageExpiryInterval
    match forwardProps.dropWhile fun p => p.id ≠ .messageExpiryInterval with
    | [] => forwardProps
    | _ :: after => before ++ .messageExpiryInterval d :: after

/-- What `publish_handler` gives to `do_publish`. The decoders of PUBLISH make the payload. -/
def clientParams (sourceVersion : ProtocolVersion) (topic payload : Buffer) (opts : UInt8)
    (props : Properties) : PublishParams :=
  ⟨sourceVersion, topic, payloadsOf payload, qosAndRetain opts, forwardPublishProps props⟩

/-- What `send_will_impl` gives to `do_publish` through `will_sender_` -/
def willParams (sourceVersion : ProtocolVersion) (w : Will) (d : Option Nat) : PublishParams :=
  ⟨sourceVersion, w.topic, [w.message], qosAndRetain w.pubopts, forwardWillProps d w.props⟩

/-- How far the handler of a timer has got. A timer that expires posts its handler, and what
    `wp.lock()` gives is known once the handler runs. -/
inductive ExpiryStage where
  | waiting
  | posted
  | running (locked : Bool)
  deriving DecidableEq

/-- `retains_`, and what the threads of the broker are about to do with it. A call of `do_publish` that
    stores a message stands in `storing` until it takes `mtx_retains_`, and in `returning` while its
    local pointer still keeps the timer. The closure of a timer captures the topic. -/
structure RetainedMessages where
  retains : RetainedTopicMap RetainType
  calls : Nat
  storing : AList fun _ : Nat => PublishParams
  returning : List Nat
  timers : AList fun _ : Nat => Buffer × ExpiryStage

/-- There is a Message Expiry Interval. -/
def hasExpiry (props : Properties) : Bool := props.any fun p => p.id = .messageExpiryInterval

/-- `message_expiry_interval` of `do_publish` has a value. The interval is read for version 5 only. -/
def PublishParams.messageExpiryInterval (p : PublishParams) : Bool :=
  p.sourceVersion = .v5 && hasExpiry p.props

namespace RetainedMessages

/-- What a new broker has. -/
def make : RetainedMessages := ⟨RetainedTopicMap.make, 0, ∅, [], ∅⟩

/-- The part of `do_publish` that follows the delivery, up to `insert_or_assign`: the topic is erased,
    or the timer is made and waits. -/
def doPublish (p : PublishParams) (s : RetainedMessages) : RetainedMessages :=
  let calls := s.calls + 1
  if Pub.getRetain p.opts then
    if p.payload.isEmpty then { s with retains := (s.retains.erase p.topic).2, calls }
    else
      let storing := s.storing.insert s.calls p
      let timers :=
        if p.messageExpiryInterval then s.timers.insert s.calls (p.topic, .waiting) else s.timers
      { s with calls, storing, timers }
  else { s with calls }

/-- The message that the call `n` stores -/
def storedMessage (n : Nat) (p : PublishParams) : RetainType :=
  ⟨p.topic, p.payload, p.props, Pub.getQos p.opts, if p.messageExpiryInterval then some n else none⟩

/-- `insert_or_assign` of `do_publish`. If it throws, the local pointer goes. -/
def store (n : Nat) (s : RetainedMessages) : Option RetainedMessages :=
  (s.storing.lookup n).map fun p =>
    let storing := s.storing.erase n
    match s.retains.insertOrAssignState p.topic (storedMessage n p) with
    | (.error _, retains) => { s with retains, storing }
    | (.ok _, retains) => { s with retains, storing, returning := n :: s.returning }

/-- All of `do_publish` that follows the delivery, when nothing happens in between -/
def publishAtOnce (p : PublishParams) (s : RetainedMessages) :
    Except RetainedTopicMapError RetainedMessages :=
  let begun := s.doPublish p
  if (begun.storing.lookup s.calls).isSome then do
    let (_, retains) ← begun.retains.insertOrAssign p.topic (storedMessage s.calls p)
    .ok { begun with retains, storing := begun.storing.erase s.calls }
  else .ok begun

/-- The call `n` returns, and the local pointer goes. -/
def publishReturns (n : Nat) (s : RetainedMessages) : Option RetainedMessages :=
  if n ∈ s.returning then some { s with returning := s.returning.erase n } else none

/-- `wp.lock()` gives the timer of the call `n`: the call has not returned, or a stored message has
    the timer. -/
def isHeld (n : Nat) (s : RetainedMessages) : Bool :=
  (s.storing.lookup n).isSome || s.returning.contains n ||
    s.retains.map.any fun e => e.value.any fun r => r.timMessageExpiry = some n

/-- The Message Expiry Interval of the call `n` has elapsed. There may be no timer. A timer that has
    been destroyed posts its handler too, which then does nothing. -/
def elapse (n : Nat) (s : RetainedMessages) : Option RetainedMessages :=
  if n < s.calls then
    some (match s.timers.lookup n with
      | some (topic, .waiting) => { s with timers := s.timers.insert n (topic, .posted) }
      | _ => s)
  else none

/-- The handler of a timer begins, with `wp.lock()`. -/
def expiryBegins (n : Nat) (s : RetainedMessages) : Option RetainedMessages :=
  match s.timers.lookup n with
  | some (topic, .posted) => some { s with timers := s.timers.insert n (topic, .running (s.isHeld n)) }
  | _ => none

/-- The handler of a timer takes `mtx_retains_` if it has the timer, and ends. -/
def expiryEnds (n : Nat) (s : RetainedMessages) : Option RetainedMessages :=
  match s.timers.lookup n with
  | some (topic, .running locked) => some { s with
      retains := if locked then (s.retains.erase topic).2 else s.retains
      timers := s.timers.erase n }
  | _ => none

end RetainedMessages

end AsyncMqtt
