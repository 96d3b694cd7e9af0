import AsyncMqtt.Native.OfflineMessages
import AsyncMqtt.Native.RetainedMessages
import AsyncMqtt.Native.Security
import AsyncMqtt.Native.SharedTarget

/-!
# The handlers of the broker

`publish_handler`, `do_publish`, `subscribe_handler` and `unsubscribe_handler` of the broker, with the
functions of `session_state` that they call, and `clean` as far as it ends subscriptions.

What a session does with a message that it is given stands in `OfflineSession`, and so `deliver` and
`publish` of `session_state` are recorded here. A handler does nothing if the connection has no
session. A session that was extracted from `sessions_` counts until it is destroyed.
-/

namespace AsyncMqtt

namespace TopicSharename

/-- `topic()` -/
def topic (t : TopicSharename) : Buffer :=
  if t.allTopic.take sharedPrefix.length = sharedPrefix then
    let name := t.allTopic.drop sharedPrefix.length
    match name.idxOf? 0x2f with
    | none | some 0 => []
    | some idx => name.drop (idx + 1)
  else t.allTopic

/-- `operator bool` -/
def isValid (t : TopicSharename) : Bool := t.topic ≠ []

end TopicSharename

namespace TopicSubopts

def topic (e : TopicSubopts) : Buffer := e.topicSharename.topic
def isValid (e : TopicSubopts) : Bool := e.topicSharename.isValid

end TopicSubopts

/-- What the handlers throw. -/
inductive BrokerError where
  | subscription (e : SubscriptionMapError)
  | retained (e : RetainedTopicMapError)
  | packet (e : Exception)
  deriving DecidableEq

/-- What the handlers do for others: they give messages to `deliver` and `publish` of the sessions,
    and packets to `async_send` of the connection whose packet is handled. -/
inductive BrokerOutput where
  | deliver (ss : SessionRef) (m : OfflineMessage)
  | publish (ss : SessionRef) (m : OfflineMessage)
  | send (pv : PacketVariant .two)

/-- The members of `session_state` that are used here: `version_` and `handles_` -/
structure BrokerSession where
  version : ProtocolVersion
  handles : List PathEntryKey

/-- The properties that are added to the answers, which only tests set -/
structure AnswerProps where
  puback : Properties
  pubrec : Properties
  suback : Properties
  unsuback : Properties

/-- `broker`, with the sessions that are not destroyed -/
structure Broker where
  security : Security
  sessions : AList fun _ : SessionRef => BrokerSession
  subscriptions : Subscriptions
  retained : RetainedMessages
  answerProps : AnswerProps

namespace Broker

/-- A new broker -/
def make (security : Security) (answerProps : AnswerProps) : Broker :=
  ⟨security, ∅, .make, .make, answerProps⟩

/-! ### The sessions -/

/-- `handles_` of a session is changed. -/
def modifyHandles (ss : SessionRef) (f : List PathEntryKey → List PathEntryKey) (b : Broker) :
    Broker :=
  match b.sessions.lookup ss with
  | none => b
  | some s => { b with sessions := b.sessions.insert ss { s with handles := f s.handles } }

/-- `session_state::create` -/
def create (ss : SessionRef) (version : ProtocolVersion) (b : Broker) : Broker :=
  { b with sessions := b.sessions.insert ss ⟨version, []⟩ }

/-- `session_state::subscribe`, and whether the retained messages are asked for -/
def subscribe (now : Nat) (ss : SessionRef) (shareName topicFilter : Buffer) (subopts : UInt8)
    (sid : Option Nat) (b : Broker) : Except BrokerError (Bool × Broker) := do
  let sub : Subscription := ⟨ss, shareName, topicFilter, subopts, sid⟩
  let sharedTargets :=
    if shareName = [] then b.subscriptions.sharedTargets
    else b.subscriptions.sharedTargets.insert now shareName topicFilter sub ss
  let ((handle, inserted), subsMap) ←
    (b.subscriptions.subsMap.insertOrAssign topicFilter ss.clientId sub).mapError .subscription
  let b := { b with subscriptions := ⟨subsMap, sharedTargets⟩ }
  let rh := SubOpts.getRetainHandling subopts
  if inserted then
    .ok (rh = 0b00000000 || rh = 0b00010000, b.modifyHandles ss (·.insert handle))
  else .ok (rh = 0b00000000, b)

/-- `session_state::unsubscribe` -/
def unsubscribe (ss : SessionRef) (shareName topicFilter : Buffer) (b : Broker) :
    Except BrokerError Broker := do
  let sharedTargets :=
    if shareName = [] then b.subscriptions.sharedTargets
    else b.subscriptions.sharedTargets.erase shareName topicFilter ss
  match b.subscriptions.subsMap.lookup topicFilter with
  | none => .ok { b with subscriptions := ⟨b.subscriptions.subsMap, sharedTargets⟩ }
  | some handle => do
    let b := b.modifyHandles ss (·.erase handle)
    let (_, subsMap) ←
      (b.subscriptions.subsMap.eraseHandle handle ss.clientId).mapError .subscription
    .ok { b with subscriptions := ⟨subsMap, sharedTargets⟩ }

/-- The loop of `unsubscribe_all` -/
def eraseHandles (clientId : Buffer) :
    List PathEntryKey → MultipleSubscriptionMap Buffer Subscription →
    Except SubscriptionMapError (MultipleSubscriptionMap Buffer Subscription)
  | [], m => .ok m
  | h :: handles, m => do
    let (_, m) ← m.eraseHandle h clientId
    eraseHandles clientId handles m

/-- `session_state::clean`: `unsubscribe_all` and `shared_targets_.erase` -/
def clean (ss : SessionRef) (b : Broker) : Except BrokerError Broker := do
  let handles := ((b.sessions.lookup ss).map BrokerSession.handles).getD []
  let subsMap ← (eraseHandles ss.clientId handles b.subscriptions.subsMap).mapError .subscription
  let b := b.modifyHandles ss fun _ => []
  .ok { b with subscriptions := ⟨subsMap, b.subscriptions.sharedTargets.eraseSession ss⟩ }

/-- `~session_state`, without the will -/
def destroy (ss : SessionRef) (b : Broker) : Except BrokerError Broker := do
  let b ← b.clean ss
  .ok { b with sessions := b.sessions.erase ss }

/-! ### PUBLISH -/

/-- The options of a message for a subscriber -/
def deliverOpts (pubopts subopts : UInt8) : UInt8 :=
  min (Pub.getQos pubopts) (SubOpts.getQos subopts) <<< 1 |||
    if SubOpts.getRap subopts = 0b00001000 ∧ Pub.getRetain pubopts then 1 else 0

/-- `property::subscription_identifier` of a subscription. The identifier is not 0. -/
def sidProps (sid : Option Nat) : Properties :=
  sid.toList.map fun n => .variableLen .subscriptionIdentifier (valToVariableBytes n)

/-- The message for a subscriber -/
def deliverMessage (p : PublishParams) (sub : Subscription) : OfflineMessage :=
  ⟨p.topic, p.payload, deliverOpts p.opts sub.opts, p.props ++ sidProps sub.sid⟩

/-- `deliver` of `do_publish`: the message that the session is given, if it may subscribe the topic -/
def deliver (security : Security) (p : PublishParams) (i : Subscriptions.Selected) :
    Option (SessionRef × OfflineMessage) :=
  if security.authSubUser (security.authSub p.topic) i.ss.username = .allow then
    some (i.ss, deliverMessage p i.sub)
  else none

/-- What `do_publish` gives to the sessions. -/
def deliveries (source : SessionRef) (clock : Nat → Nat) (p : PublishParams) (b : Broker) :
    List (SessionRef × OfflineMessage) :=
  (b.subscriptions.publishSubs source.clientId p.topic clock).selected.filterMap
    (deliver b.security p)

/-- `do_publish`: what is given to the sessions, of which something was matched if there is
    anything -/
def doPublish (source : SessionRef) (clock : Nat → Nat) (p : PublishParams) (b : Broker) :
    Except BrokerError (List (SessionRef × OfflineMessage) × Broker) := do
  let st := b.subscriptions.publishSubs source.clientId p.topic clock
  let retained ← (b.retained.publishAtOnce p).mapError .retained
  .ok (b.deliveries source clock p,
    { b with subscriptions.sharedTargets := st.sharedTargets, retained })

/-- The reason code of `send_pubres`: `success`, `no_matching_subscribers` or `not_authorized` -/
def pubresCode (authorized isMatched : Bool) : UInt8 :=
  if authorized then if isMatched then 0x00 else 0x10 else 0x87

/-- A PUBACK or a PUBREC of `send_pubres` for version 5, made by its constructor. The reason code is
    left out for `success` if there are no properties. -/
def pubresV5
    (packet : Nat → Option UInt8 → Properties → Except Exception (V5.PubResponsePacket .two))
    (packetId : Nat) (code : UInt8) (props : Properties) :
    Except Exception (V5.PubResponsePacket .two) :=
  if props = [] then packet packetId (if code = 0x00 then none else some code) []
  else packet packetId (some code) props

/-- `send_pubres`, which sends nothing for QoS 0 -/
def sendPubres (ver : ProtocolVersion) (packetId : Nat) (opts : UInt8) (authorized isMatched : Bool)
    (b : Broker) : Except Exception (List BrokerOutput) := do
  let code := pubresCode authorized isMatched
  if Pub.getQos opts = 1 then
    match ver with
    | .v311 => .ok [.send (.v311Puback (V311.pubackPacket .two packetId))]
    | .v5 => .ok [.send (.v5Puback (← pubresV5 (V5.pubackPacket .two) packetId code
        b.answerProps.puback))]
    | .undetermined => .ok []
  else if Pub.getQos opts = 2 then
    match ver with
    | .v311 => .ok [.send (.v311Pubrec (V311.pubrecPacket .two packetId))]
    | .v5 => .ok [.send (.v5Pubrec (← pubresV5 (V5.pubrecPacket .two) packetId code
        b.answerProps.pubrec))]
    | .undetermined => .ok []
  else .ok []

/-- `publish_handler`. `ver` is the version of the connection, the session has its own. -/
def publishHandler (ss : SessionRef) (ver : ProtocolVersion) (packetId : Nat) (opts : UInt8)
    (topic payload : Buffer) (props : Properties) (clock : Nat → Nat) (b : Broker) :
    Except BrokerError (List BrokerOutput × Broker) := do
  match b.sessions.lookup ss with
  | none => .ok ([], b)
  | some s =>
    if b.security.authPub topic ss.username ≠ .allow then
      .ok (← (b.sendPubres ver packetId opts false false).mapError .packet, b)
    else do
      let (given, b) ← b.doPublish ss clock (clientParams s.version topic payload opts props)
      let answer ← (b.sendPubres ver packetId opts true (! given.isEmpty)).mapError .packet
      .ok (given.map (fun i => .deliver i.1 i.2) ++ answer, b)

/-! ### SUBSCRIBE and UNSUBSCRIBE -/

/-- `publish_proc` of `subscribe_handler`: a retained message for a subscription. `left` is what is
    left of the time of a timer, in seconds. -/
def retainedMessage (left : Nat → Nat) (qosValue : UInt8) (sid : Option Nat) (r : RetainType) :
    OfflineMessage :=
  let props := r.props ++ sidProps sid
  let props := match r.timMessageExpiry with
    | none => props
    | some n => props.map fun prop =>
      if prop.id = .messageExpiryInterval then .messageExpiryInterval (left n) else prop
  ⟨r.topic, r.payload, min r.qosValue qosValue <<< 1 ||| 1, props⟩

/-- The subscription identifier of a SUBSCRIBE -/
def subscribeSid (props : Properties) : Option Nat :=
  props.findSome? fun prop => match prop with
    | .variableLen .subscriptionIdentifier value =>
      match variableBytesToVal value with
      | some (val, _) => if val ≠ 0 then some val else none
      | none => none
    | _ => none

/-- The entry is subscribed. A client of version 3.1.1 is not asked for a valid filter. -/
def grants (ver : ProtocolVersion) (ss : SessionRef) (e : TopicSubopts) (b : Broker) : Bool :=
  match ver with
  | .v5 => e.isValid && b.security.isSubscribeAuthorized ss.username e.topic
  | _ => ! e.isValid || b.security.isSubscribeAuthorized ss.username e.topic

/-- The code for an entry in the SUBACK -/
def subackCode (ver : ProtocolVersion) (ss : SessionRef) (e : TopicSubopts) (b : Broker) : UInt8 :=
  if b.grants ver ss e then SubOpts.getQos e.opts
  else
    match ver with
    | .v5 => if e.isValid then 0x87 else 0x8f
    | _ => 0x80

/-- The loop of `subscribe_handler`: the codes, and the retained messages with the QoS of the entries.
    The clock is read at each entry. -/
def subscribeEntries (ver : ProtocolVersion) (ss : SessionRef) (sid : Option Nat) :
    (Nat → Nat) → List TopicSubopts → Broker →
    Except BrokerError (List UInt8 × List (UInt8 × RetainType) × Broker)
  | _, [], b => .ok ([], [], b)
  | clock, e :: es, b => do
    let code := b.subackCode ver ss e
    if b.grants ver ss e then do
      let (h, b) ← b.subscribe (clock 0) ss e.sharename e.topic e.opts sid
      let found := if h then b.retained.retains.find e.topic else []
      let (codes, rs, b) ← subscribeEntries ver ss sid (fun n => clock (n + 1)) es b
      .ok (code :: codes, found.map (fun r => (SubOpts.getQos e.opts, r)) ++ rs, b)
    else do
      let (codes, rs, b) ← subscribeEntries ver ss sid (fun n => clock (n + 1)) es b
      .ok (code :: codes, rs, b)

/-- The SUBACK -/
def suback (ver : ProtocolVersion) (packetId : Nat) (codes : List UInt8) (b : Broker) :
    Except Exception (PacketVariant .two) :=
  match ver with
  | .v5 => .v5Suback <$> V5.subackPacket .two packetId codes b.answerProps.suback
  | _ => .v311Suback <$> V311.subackPacket .two packetId codes

/-- `subscribe_handler` -/
def subscribeHandler (ss : SessionRef) (ver : ProtocolVersion) (packetId : Nat)
    (entries : List TopicSubopts) (props : Properties) (clock left : Nat → Nat) (b : Broker) :
    Except BrokerError (List BrokerOutput × Broker) := do
  match b.sessions.lookup ss with
  | none => .ok ([], b)
  | some _ =>
    let sid := if ver = .v5 then subscribeSid props else none
    let (codes, rs, b) ← subscribeEntries ver ss sid clock entries b
    let answer ← (b.suback ver packetId codes).mapError .packet
    .ok (.send answer :: rs.map (fun i => .publish ss (retainedMessage left i.1 sid i.2)), b)

/-- The loop of `unsubscribe_handler` -/
def unsubscribeEntries (ss : SessionRef) : List TopicSharename → Broker → Except BrokerError Broker
  | [], b => .ok b
  | e :: es, b => do
    let b ← b.unsubscribe ss e.sharename e.topic
    unsubscribeEntries ss es b

/-- The UNSUBACK -/
def unsuback (ver : ProtocolVersion) (packetId n : Nat) (b : Broker) :
    Except Exception (PacketVariant .two) :=
  match ver with
  | .v5 =>
    .v5Unsuback <$> V5.unsubackPacket .two packetId (List.replicate n 0) b.answerProps.unsuback
  | _ => .ok (.v311Unsuback (V311.unsubackPacket .two packetId))

/-- `unsubscribe_handler` -/
def unsubscribeHandler (ss : SessionRef) (ver : ProtocolVersion) (packetId : Nat)
    (entries : List TopicSharename) (b : Broker) :
    Except BrokerError (List BrokerOutput × Broker) := do
  match b.sessions.lookup ss with
  | none => .ok ([], b)
  | some _ =>
    let b ← b.unsubscribeEntries ss entries
    let answer ← (b.unsuback ver packetId entries.length).mapError .packet
    .ok ([.send answer], b)

/-! ### Calls -/

/-- What happens to the broker -/
inductive Call where
  /-- A CONNECT for which there is no session -/
  | create (ss : SessionRef) (version : ProtocolVersion)
  /-- `renew` of a session that is offline, for a CONNECT with clean start -/
  | renew (ss : SessionRef)
  | destroy (ss : SessionRef)
  | subscribe (ss : SessionRef) (ver : ProtocolVersion) (packetId : Nat)
      (entries : List TopicSubopts) (props : Properties) (clock left : Nat → Nat)
  | unsubscribe (ss : SessionRef) (ver : ProtocolVersion) (packetId : Nat)
      (entries : List TopicSharename)
  | publish (ss : SessionRef) (ver : ProtocolVersion) (packetId : Nat) (opts : UInt8)
      (topic payload : Buffer) (props : Properties) (clock : Nat → Nat)
  /-- `will_sender_` of a session is called. -/
  | will (ss : SessionRef) (p : PublishParams) (clock : Nat → Nat)
  /-- The Message Expiry Interval of a retained message has elapsed. -/
  | elapse (n : Nat)
  /-- The handler of the timer of a retained message begins. -/
  | expiryBegins (n : Nat)
  /-- The handler of the timer of a retained message goes on to its end. -/
  | expiryEnds (n : Nat)
  /-- The rules are changed, by `set_security` or for a response topic. -/
  | setSecurity (security : Security)

/-- The call is made. -/
def perform (b : Broker) : Call → Except BrokerError (List BrokerOutput × Broker)
  | .create ss version => .ok ([], b.create ss version)
  | .renew ss => do .ok ([], ← b.clean ss)
  | .destroy ss => do .ok ([], ← b.destroy ss)
  | .subscribe ss ver packetId entries props clock left =>
    b.subscribeHandler ss ver packetId entries props clock left
  | .unsubscribe ss ver packetId entries => b.unsubscribeHandler ss ver packetId entries
  | .publish ss ver packetId opts topic payload props clock =>
    b.publishHandler ss ver packetId opts topic payload props clock
  | .will ss p clock => do
    let (given, b) ← b.doPublish ss clock p
    .ok (given.map fun i => .deliver i.1 i.2, b)
  | .elapse n => .ok ([], { b with retained := (b.retained.elapse n).getD b.retained })
  | .expiryBegins n => .ok ([], { b with retained := (b.retained.expiryBegins n).getD b.retained })
  | .expiryEnds n => .ok ([], { b with retained := (b.retained.expiryEnds n).getD b.retained })
  | .setSecurity security => .ok ([], { b with security })

end Broker

end AsyncMqtt
