import AsyncMqtt.Native.ConnectionSend

/-!
# Offline messages

`offline_message.hpp` with `publish`, `deliver`, `send_all_offline_messages` and
`send_offline_messages_by_packet_id_release` of `session_state`, and what they use of the endpoints:
the packet identifiers and the strand.

What is dispatched to a strand from inside of it is executed at once, and what comes from another
thread is executed after everything that was dispatched before. `async_send` of the PUBLISH that is
made of an identifier and a message is recorded with these two.
-/

namespace AsyncMqtt

/-- `offline_message`, and the parameters of `publish` and `deliver` -/
structure OfflineMessage where
  topic : Buffer
  payload : List Buffer
  pubopts : UInt8
  props : Properties
  deriving DecidableEq

/-- What `offline_messages` and `session_state` dispatch to the strand of an endpoint -/
inductive StrandTask where
  /-- `async_acquire_unique_packet_id` of `publish`, with its handler -/
  | acquire (m : OfflineMessage)
  /-- The lambda of `send_until_fail` -/
  | sendUntilFail
  deriving DecidableEq

/-- An endpoint. `sent` is what was given to `async_send`, with 0 for a message without an
    identifier. -/
structure OfflineEndpoint where
  pidMan : PacketIdManager .two
  strand : List StrandTask
  sent : List (Nat × OfflineMessage)
  deriving DecidableEq

namespace OfflineEndpoint

def make : OfflineEndpoint := ⟨.make .two, [], []⟩

def asyncSend (packetId : Nat) (m : OfflineMessage) (e : OfflineEndpoint) : OfflineEndpoint :=
  { e with sent := e.sent ++ [(packetId, m)] }

/-- The handler of `async_acquire_unique_packet_id`. Nothing is done if there is an error. -/
def acquire (m : OfflineMessage) (e : OfflineEndpoint) : OfflineEndpoint :=
  match e.pidMan.acquireUniqueId with
  | (some packetId, pidMan) => { e with pidMan }.asyncSend packetId m
  | (none, pidMan) => { e with pidMan }

/-- `offline_message::send`: the endpoint after it, if it returns true -/
def send (m : OfflineMessage) (e : OfflineEndpoint) : Option OfflineEndpoint :=
  if Connection.isQos12 m.pubopts then
    match e.pidMan.acquireUniqueId with
    | (some packetId, pidMan) => some ({ e with pidMan }.asyncSend packetId m)
    | (none, _) => none
  else some (e.asyncSend 0 m)

/-- The loop of `send_until_fail`: the messages that are left, and the endpoint -/
def sendUntilFail : List OfflineMessage → OfflineEndpoint → List OfflineMessage × OfflineEndpoint
  | [], e => ([], e)
  | m :: ms, e =>
    match e.send m with
    | some e => sendUntilFail ms e
    | none => (m :: ms, e)

/-- A task is executed, with the offline messages. -/
def execute (messages : List OfflineMessage) (t : StrandTask) (e : OfflineEndpoint) :
    List OfflineMessage × OfflineEndpoint :=
  match t with
  | .acquire m => (messages, e.acquire m)
  | .sendUntilFail => sendUntilFail messages e

/-- `as::dispatch`, from inside of the strand or from another thread -/
def dispatch (inside : Bool) (messages : List OfflineMessage) (t : StrandTask)
    (e : OfflineEndpoint) : List OfflineMessage × OfflineEndpoint :=
  if inside then e.execute messages t else (messages, { e with strand := e.strand ++ [t] })

end OfflineEndpoint

/-- The members of `session_state` that concern the offline messages. `former` are the endpoints that
    the session had before, as tasks may be left in their strands. -/
structure OfflineSession where
  messages : List OfflineMessage
  epsp : Option OfflineEndpoint
  former : List OfflineEndpoint
  deriving DecidableEq

namespace OfflineSession

/-- `session_state::create` -/
def create : OfflineSession := ⟨[], some .make, []⟩

/-- The outcome of what was dispatched to the endpoint of the session -/
def after (r : List OfflineMessage × OfflineEndpoint) (s : OfflineSession) : OfflineSession :=
  { s with messages := r.1, epsp := some r.2 }

/-- `offline_messages::push_back` -/
def pushBack (m : OfflineMessage) (s : OfflineSession) : OfflineSession :=
  { s with messages := s.messages ++ [m] }

/-- `session_state::publish` -/
def publish (inside : Bool) (m : OfflineMessage) (e : OfflineEndpoint) (s : OfflineSession) :
    OfflineSession :=
  if s.messages = [] then
    if Connection.isQos12 m.pubopts then s.after (e.dispatch inside s.messages (.acquire m))
    else { s with epsp := some (e.asyncSend 0 m) }
  else s.pushBack m

/-- `session_state::deliver` -/
def deliver (inside : Bool) (m : OfflineMessage) (s : OfflineSession) : OfflineSession :=
  match s.epsp with
  | some e => s.publish inside m e
  | none => s.pushBack m

/-- `send_all_offline_messages` and `send_offline_messages_by_packet_id_release` -/
def sendAllOfflineMessages (inside : Bool) (s : OfflineSession) : OfflineSession :=
  match s.epsp with
  | some e => s.after (e.dispatch inside s.messages .sendUntilFail)
  | none => s

/-- `session_state::inherit`, with a new endpoint -/
def inherit (s : OfflineSession) : OfflineSession :=
  { s with epsp := some .make, former := s.former ++ s.epsp.toList }

/-- What happens to a session -/
inductive Event where
  /-- A message is delivered, from inside of the strand of the endpoint or from another thread. -/
  | deliver (inside : Bool) (m : OfflineMessage)
  /-- A retained message is published through the endpoint. -/
  | publish (inside : Bool) (m : OfflineMessage)
  /-- The CONNACK of a resumed session was sent, or an acknowledgement was received. -/
  | sendAllOfflineMessages (inside : Bool)
  /-- The strand of the endpoint executes a task. -/
  | execute
  /-- The strand of a former endpoint executes a task. -/
  | executeFormer (i : Nat)
  /-- The endpoint uses its identifiers for something else. -/
  | acquireUniquePacketId
  | registerPacketId (packetId : Nat)
  | releasePacketId (packetId : Nat)
  | clearPacketIds
  | inherit
  /-- The endpoint is destroyed. Until then `lock` succeeds, and its tasks keep it alive. -/
  | expire

/-- The packet identifiers of the endpoint -/
def withPidMan (f : PacketIdManager .two → PacketIdManager .two) (s : OfflineSession) :
    Option OfflineSession :=
  s.epsp.map fun e => { s with epsp := some { e with pidMan := f e.pidMan } }

/-- The event happens, if it can. -/
def perform (s : OfflineSession) : Event → Option OfflineSession
  | .deliver inside m => some (s.deliver inside m)
  | .publish inside m => s.epsp.map fun e => s.publish inside m e
  | .sendAllOfflineMessages inside => some (s.sendAllOfflineMessages inside)
  | .execute =>
    match s.epsp with
    | some e =>
      match e.strand with
      | t :: ts => some (s.after ({ e with strand := ts }.execute s.messages t))
      | [] => none
    | none => none
  | .executeFormer i =>
    match s.former[i]? with
    | some e =>
      match e.strand with
      | t :: ts =>
        let (messages, e) := { e with strand := ts }.execute s.messages t
        some { s with messages, former := s.former.set i e }
      | [] => none
    | none => none
  | .acquireUniquePacketId => s.withPidMan fun m => m.acquireUniqueId.2
  | .registerPacketId packetId => s.withPidMan fun m => (m.registerId packetId).2
  | .releasePacketId packetId => s.withPidMan fun m => m.releaseId packetId
  | .clearPacketIds => s.withPidMan fun m => m.clear
  | .inherit => some s.inherit
  | .expire =>
    match s.epsp with
    | some e => if e.strand = [] then some { s with epsp := none } else none
    | none => none

end OfflineSession

end AsyncMqtt
