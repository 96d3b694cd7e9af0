import AsyncMqtt.ForStd.Keyed
import AsyncMqtt.Native.ConnectionRecv

/-!
# Inflight messages

`inflight_message.hpp` with the functions of `session_state` and the handlers of the broker that use
it, and the connection of the endpoint that the session has.

The endpoints of the broker have packet identifiers of two bytes and no version before the CONNECT,
and the broker sends the responses itself. Of `async_send` there is the call of the connection with
which it begins, as that decides what is stored. A packet that the connection delivers is handled at
once.
-/

namespace AsyncMqtt

/-- `inflight_messages`, whose index of packet identifiers is unique -/
structure InflightMessages where
  elems : List (StorePacketVariant .two)
  unique : (elems.map StorePacketVariant.packetId).Nodup

namespace InflightMessages

def make : InflightMessages := ⟨[], List.nodup_nil⟩

/-- `insert`. The `emplace_back` does nothing if the identifier is taken. -/
def insert (m : InflightMessages) (e : StorePacketVariant .two) : InflightMessages :=
  ⟨Keyed.insertBack StorePacketVariant.packetId m.elems e, Keyed.nodup_insertBack m.unique⟩

/-- `get<tag_pid>().erase(packet_id)` -/
def erase (packetId : Nat) (m : InflightMessages) : InflightMessages :=
  ⟨m.elems.filter fun e => e.packetId ≠ packetId, m.unique.sublist (List.filter_sublist.map _)⟩

/-- `inflight_message::send`. Whether the identifier could be registered is not looked at. -/
def send (e : StorePacketVariant .two) (c : Connection .server .two) : Step .server .two :=
  (c.registerPacketId e.packetId).2.send e.packet.toPacketVariant

/-- `send_all_messages`: the connection after it, and what was given to `async_send` -/
def sendAll : List (StorePacketVariant .two) → Connection .server .two →
    Connection .server .two × List (StorePacketVariant .two)
  | [], c => (c, [])
  | e :: es, c => ((sendAll es (send e c).conn).1, e :: (sendAll es (send e c).conn).2)

end InflightMessages

/-- The members of `session_state` that hold the inflight messages and the endpoint, of which there is
    the connection. `resuming` says that the CONNACK of a resumed session is being sent. -/
structure InflightSession where
  messages : InflightMessages
  epsp : Option (Connection .server .two)
  resuming : Bool

namespace InflightSession

/-- The connection of an endpoint that has received a CONNECT and sent the CONNACK -/
def accept (connect connack : PacketVariant .two) : Connection .server .two :=
  (((Connection.make .server .two .undetermined).processRecvDecoded connect).conn.send connack).conn

/-- `session_state::create` -/
def create (connect connack : PacketVariant .two) : InflightSession :=
  ⟨.make, some (accept connect connack), false⟩

/-- `session_state::become_offline`, with the packets that the endpoint has stored -/
def becomeOffline (stored : List (StorePacketVariant .two)) (s : InflightSession) :
    InflightSession :=
  ⟨stored.foldl InflightMessages.insert s.messages, none, false⟩

/-- `session_state::send_inflight_messages` in the completion handler of the CONNACK: the session
    after it, and what was given to `async_send` -/
def sendInflightMessages (c : Connection .server .two) (s : InflightSession) :
    InflightSession × List (StorePacketVariant .two) :=
  let (c, sent) := InflightMessages.sendAll s.messages.elems c
  ({ s with epsp := some c, resuming := false }, sent)

/-- What the broker publishes with QoS 1 or 2: it has a topic, and its topic alias was taken out. -/
def isForwarded : PacketVariant .two → Bool
  | .v311Publish p => Connection.isQos12 p.opts
  | .v5Publish p =>
    Connection.isQos12 p.opts && p.topic ≠ [] && (Connection.getTopicAlias p.props).isNone
  | _ => false

/-- The connection has sent a PUBLISH or a PUBREL. -/
def wasSent (r : Step .server .two) : Bool :=
  r.events.any fun e => match e with
    | .send pv _ => pv.type = .publish || pv.type = .pubrel
    | _ => false

/-- The PUBREL that `pubrec_handler` makes; the reason code is `success` or
    `packet_identifier_not_found` -/
def pubrelAnswer (pubrelProps : Properties) (packetId : Nat) (c : Connection .server .two) :
    Except Exception (PacketVariant .two) :=
  if c.protocolVersion = .v5 then
    if pubrelProps = [] then
      let rc : Option UInt8 := if c.isPublishProcessing packetId then none else some 0x92
      return .v5Pubrel (← V5.pubrelPacket .two packetId rc [])
    else
      let rc : UInt8 := if c.isPublishProcessing packetId then 0x00 else 0x92
      return .v5Pubrel (← V5.pubrelPacket .two packetId (some rc) pubrelProps)
  else return .v311Pubrel (V311.pubrelPacket .two packetId)

/-- `puback_handler` and `pubcomp_handler`, as far as the inflight messages are concerned -/
def pubackHandler (packetId : Nat) (s : InflightSession) : InflightSession :=
  { s with messages := s.messages.erase packetId }

/-- `pubrec_handler`. Nothing is erased for an error. -/
def pubrecHandler (pubrelProps : Properties) (packetId : Nat) (code : UInt8)
    (c : Connection .server .two) (s : InflightSession) : InflightSession :=
  if reasonCodeFailed code then s
  else
    let messages := s.messages.erase packetId
    match pubrelAnswer pubrelProps packetId c with
    | .ok pv => { s with messages, epsp := some (c.send pv).conn }
    | .error _ => { s with messages }

/-- The broker handles a packet that the connection has delivered. -/
def handle (pubrelProps : Properties) (pv : PacketVariant .two) (c : Connection .server .two)
    (s : InflightSession) : InflightSession :=
  match pv.type with
  | .puback | .pubcomp => s.pubackHandler pv.packetId
  | .pubrec => s.pubrecHandler pubrelProps pv.packetId pv.view.code c
  | _ => s

/-- What happens to a session -/
inductive Event where
  /-- A CONNECT without clean start resumes the session. -/
  | inherit (connect connack : PacketVariant .two)
  /-- The CONNACK of `inherit` has been written. -/
  | connackSent
  /-- The CONNACK of `inherit` could not be written. The broker drops the endpoint then. -/
  | connackFailed
  /-- An identifier is acquired, and a PUBLISH with it is given to `async_send`. -/
  | publish (pv : PacketVariant .two)
  /-- Another packet is given to `async_send`. -/
  | send (pv : PacketVariant .two)
  /-- A packet is received, with `pubrel_props_`. -/
  | recv (pubrelProps : Properties) (pv : PacketVariant .two)
  /-- The connection has been closed. -/
  | close

/-- The packets that belong neither to an exchange nor to the connection itself: a PUBLISH has QoS 0
    then, and no identifier. -/
def isOther (pv : PacketVariant .two) : Bool :=
  pv.type ∉ [.connect, .connack, .pubrel, .subscribe, .unsubscribe] &&
    (pv.type ≠ .publish || ! Connection.isQos12 pv.view.opts && pv.packetId = 0)

/-- The event happens, if it can. The broker reads packets after the resumed session has sent its
    inflight messages. An endpoint that is not connected neither sends nor delivers, and has only to be
    closed. -/
def perform (s : InflightSession) (e : Event) : Option InflightSession :=
  match s.epsp, e with
  | none, .inherit connect connack =>
    if connack.type = .connack then
      some { s with epsp := some (accept connect connack), resuming := true }
    else none
  | some c, .connackSent => if s.resuming then some (s.sendInflightMessages c).1 else none
  | some _, .connackFailed =>
    if s.resuming then some { s with epsp := none, resuming := false } else none
  | some c, .publish pv =>
    let (packetId, c') := c.acquireUniquePacketId
    if c.status = .connected ∧ packetId = some pv.packetId ∧ isForwarded pv then
      some { s with epsp := some (c'.send pv).conn }
    else none
  | some c, .send pv =>
    if c.status = .connected ∧ isOther pv then
      some { s with epsp := some (c.send pv).conn }
    else none
  | some c, .recv pubrelProps pv =>
    if c.status = .connected ∧ s.resuming = false ∧ pv.version = c.protocolVersion then
      let r := c.processRecvDecoded pv
      let s := { s with epsp := some r.conn }
      some (if .receive pv ∈ r.events then s.handle pubrelProps pv r.conn else s)
    else none
  | some c, .close => some (s.becomeOffline c.store.elems)
  | _, _ => none

end InflightSession

end AsyncMqtt
