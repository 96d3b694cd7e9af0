import AsyncMqtt.Native.ConnectionRecv

/-!
# The endpoint

`endpoint_impl.hpp`, `endpoint_misc.ipp`, `endpoint_close.ipp` and the operations of
`endpoint_send.hpp` and `endpoint_recv.ipp`: what an endpoint does with the calls that its
connection makes.

The executor runs one handler at a time. `as::dispatch` to it from one of its handlers goes on at
once, so an operation is left in the states only in which it waits: for the stream, for a timer, or
for what `as::post` leaves for later. The application starts no `async_recv` while another one is
under way, and opens the stream again only when it is closed.

Those who wait for a packet identifier are in `AcquireWaitUntil`, and the queue of the stream in
`Stream`.
-/

namespace AsyncMqtt

/-- `close_status` -/
inductive CloseStatus where
  | open
  | closing
  | closed
  deriving DecidableEq

/-- The errors with which the operations of an endpoint complete. -/
inductive EndpointError where
  /-- `as::error::operation_aborted` -/
  | operationAborted
  /-- another error of the layers below -/
  | system (value : Nat)
  /-- `mqtt_error::packet_enqueued` -/
  | packetEnqueued
  /-- what the connection reports -/
  | code (ec : ErrorCode)
  deriving DecidableEq

/-- What an endpoint does to its stream and to those who wait for its operations. -/
inductive EndpointOutput (pb : PacketIdBytes) where
  | asyncWritePacket (p : PacketVariant pb)
  | sendCompleted (p : PacketVariant pb) (ec : Option EndpointError)
  | recvCompleted (ec : Option EndpointError) (p : Option (PacketVariant pb))
  /-- a `BOOST_ASSERT` fails -/
  | assertFailed
  deriving DecidableEq

/-- The states in which a `send_op` waits, and the one in which it begins. -/
inductive SendState where
  | write
  /-- the stream writes a packet, whose identifier is released if that fails -/
  | sent (releasePid : Option Nat)
  | close
  | complete
  deriving DecidableEq

/-- `send_op`. `asVariant` says that `Packet` is `packet_variant`; otherwise it is the class of the
    packet. -/
structure SendOp (pb : PacketIdBytes) where
  packet : PacketVariant pb
  asVariant : Bool
  decidedError : Option EndpointError
  events : List (Event pb)
  state : SendState
  deriving DecidableEq

/-- The states in which a `recv_op` waits. In `resend` it is in the loop of
    `send_publish_from_queue`, with the vacancy that was read before. -/
inductive RecvState where
  | readIstream
  | read
  | sent
  | closed
  | complete
  | resend (vacancy : Option Nat)
  deriving DecidableEq

/-- `filter` with the packet types that it is about -/
inductive RecvFilter where
  | match (types : List ControlPacketType)
  | except (types : List ControlPacketType)
  deriving DecidableEq

/-- `recv_op` -/
structure RecvOp (pb : PacketIdBytes) where
  fil : Option RecvFilter
  decidedError : Option EndpointError
  recvPacket : Option (PacketVariant pb)
  tryResendFromQueue : Bool
  state : RecvState
  deriving DecidableEq

/-- `basic_endpoint_impl`. `armed` are the timers that are waited for, `expired` those whose handler
    is posted, and `disconnects` counts the DISCONNECTs of timers that are being written. `out` is
    what the endpoint has done so far. -/
structure Endpoint (role : Role) (pb : PacketIdBytes) where
  con : Connection role pb
  status : CloseStatus
  readBuf : List UInt8
  recvEvents : List (Event pb)
  publishQueue : List (V5.PublishPacket pb)
  armed : TimerKind → Bool
  expired : List TimerKind
  sendOps : List (SendOp pb)
  recvOp : Option (RecvOp pb)
  disconnects : Nat
  out : List (EndpointOutput pb)

namespace RecvFilter

/-- `recv_op` goes on with the next packet. -/
def drops (fil : RecvFilter) (type : ControlPacketType) : Bool :=
  match fil with
  | .match types => type ∉ types
  | .except types => type ∈ types

end RecvFilter

namespace Endpoint

variable {role : Role} {pb : PacketIdBytes}

/-- A new endpoint. -/
def make (role : Role) (pb : PacketIdBytes) (ver : ProtocolVersion) : Endpoint role pb :=
  ⟨.make role pb ver, .closed, [], [], [], fun _ => false, [], [], none, 0, []⟩

/-- Something that the endpoint does. -/
def emit (o : EndpointOutput pb) (ep : Endpoint role pb) : Endpoint role pb :=
  { ep with out := ep.out ++ [o] }

/-- `BOOST_ASSERT(cond)` -/
def assert (cond : Bool) (ep : Endpoint role pb) : Endpoint role pb :=
  if cond then ep else ep.emit .assertFailed

/-! ### Timers -/

/-- The roles for which a timer is armed at all. -/
def hasTimer (role : Role) : TimerKind → Bool
  | .pingreqRecv => Connection.canSendAsServer role
  | .pingreqSend | .pingrespRecv => Connection.canSendAsClient role

/-- `cancel_pingreq_send_timer` and its like -/
def cancelTimer (kind : TimerKind) (ep : Endpoint role pb) : Endpoint role pb :=
  { ep with armed := Function.update ep.armed kind false }

/-- `expires_after` and `async_wait` -/
def armTimer (kind : TimerKind) (ep : Endpoint role pb) : Endpoint role pb :=
  { ep with armed := Function.update ep.armed kind true }

/-- `reset_pingreq_send_timer` -/
def resetPingreqSendTimer (ms : Option Nat) (ep : Endpoint role pb) : Endpoint role pb :=
  let ep := ep.cancelTimer .pingreqSend
  if hasTimer role .pingreqSend ∧ ms.isSome then ep.armTimer .pingreqSend else ep

/-- `reset_pingreq_recv_timer` -/
def resetPingreqRecvTimer (ms : Option Nat) (ep : Endpoint role pb) : Endpoint role pb :=
  let ep := ep.cancelTimer .pingreqRecv
  if hasTimer role .pingreqRecv ∧ ms.isSome then ep.armTimer .pingreqRecv else ep

/-- `reset_pingresp_recv_timer`, which cancels the timer only if it sets it -/
def resetPingrespRecvTimer (ms : Option Nat) (ep : Endpoint role pb) : Endpoint role pb :=
  if hasTimer role .pingrespRecv ∧ ms.isSome then
    (ep.cancelTimer .pingrespRecv).armTimer .pingrespRecv
  else ep

/-! ### Closing -/

/-- `close_op` up to where it waits, and whether it completes at once -/
def asyncClose (ep : Endpoint role pb) : Endpoint role pb × Bool :=
  match ep.status with
  | .open => ({ ep with status := .closing }, false)
  | .closing => (ep, false)
  | .closed => (ep, true)

/-- `close_op` with one of the events of `notify_closed` -/
def closeEvent (ep : Endpoint role pb) : Event pb → Endpoint role pb
  | .timerOp op kind _ => (ep.assert (op = .cancel)).cancelTimer kind
  | .packetIdRelease _ => ep
  | _ => ep.assert false

/-- `close_op` when the stream is closed -/
def notifyClosed (ep : Endpoint role pb) : Endpoint role pb :=
  let s := ep.con.notifyClosed
  s.events.foldl closeEvent { ep with status := .closed, con := s.conn }

/-! ### Sending -/

/-- `enqueue_publish` -/
def enqueuePublish (p : V5.PublishPacket pb) (ep : Endpoint role pb) : Endpoint role pb :=
  if Connection.isQos12 p.opts ∧
      (ep.con.getReceiveMaximumVacancyForSend = some 0 ∨ ep.publishQueue ≠ []) then
    { ep with publishQueue := ep.publishQueue ++ [p] }
  else ep

/-- `send_op` with an error of the connection. A PUBLISH that exceeds the receive maximum is
    queued. -/
def sendError (ec : ErrorCode) (op : SendOp pb) (ep : Endpoint role pb) :
    SendOp pb × Endpoint role pb :=
  match op.packet, op.asVariant with
  | .v5Publish p, false =>
    if ec = .disconnect DisconnectReasonCode.receiveMaximumExceeded then
      match ep.con.registerPacketId p.packetId with
      | (true, con) =>
        ({ op with decidedError := some .packetEnqueued }, { ep with con }.enqueuePublish p)
      | (false, con) => (op, { ep with con }.assert false)
    else ({ op with decidedError := some (.code ec) }, ep)
  | _, _ => ({ op with decidedError := some (.code ec) }, ep)

/-- `send_op` with a timer event -/
def sendTimer (op : TimerOp) (kind : TimerKind) (ms : Option Nat) (ep : Endpoint role pb) :
    Endpoint role pb :=
  match kind, op with
  | .pingreqSend, .reset => ep.resetPingreqSendTimer ms
  | .pingreqSend, .cancel => ep.cancelTimer .pingreqSend
  | .pingreqRecv, .cancel => ep.cancelTimer .pingreqRecv
  | .pingrespRecv, .reset => ep.resetPingrespRecvTimer ms
  | .pingreqRecv, .reset | .pingrespRecv, .cancel => ep.assert false

/-- `send_op::process_one_event` until the operation waits or completes. After an exception of the
    connection it does neither. -/
def processSend : List (Event pb) → SendOp pb → Endpoint role pb → Endpoint role pb
  | [], op, ep => ep.emit (.sendCompleted op.packet op.decidedError)
  | .error ec :: es, op, ep => processSend es (ep.sendError ec op).1 (ep.sendError ec op).2
  | .timerOp o kind ms :: es, op, ep => processSend es op (ep.sendTimer o kind ms)
  | .packetIdRelease _ :: es, op, ep => processSend es op ep
  | .send p release :: es, op, ep =>
    { ep.emit (.asyncWritePacket p) with
      sendOps := ep.sendOps ++ [{ op with events := es, state := .sent release }] }
  | .close :: es, op, ep =>
    { ep with sendOps := ep.sendOps ++ [{ op with events := es, state := .close }] }
  | .receive _ :: es, op, ep => processSend es op (ep.assert false)
  | .threw _ :: _, _, ep | .outOfBounds :: _, _, ep => ep

/-- `async_send` -/
def asyncSend (p : PacketVariant pb) (asVariant : Bool) (ep : Endpoint role pb) :
    Endpoint role pb :=
  let s := ep.con.send p
  processSend s.events ⟨p, asVariant, none, [], .write⟩ { ep with con := s.conn }

/-- The write of a `send_op` has completed. -/
def sendWritten (op : SendOp pb) (releasePid : Option Nat) (ec : Option EndpointError)
    (ep : Endpoint role pb) : Endpoint role pb :=
  match ec with
  | none => processSend op.events op ep
  | some ec =>
    let con := match releasePid with
      | none => ep.con
      | some packetId => (ep.con.releasePacketId packetId).conn
    { ep with con }.emit (.sendCompleted op.packet (some ec))

/-- A `send_op` has waited and closes the endpoint. -/
def sendClose (op : SendOp pb) (ec : Option EndpointError) (ep : Endpoint role pb) :
    Endpoint role pb :=
  match ec with
  | some ec => ep.emit (.sendCompleted op.packet (some ec))
  | none =>
    match ep.asyncClose with
    | (ep, true) => ep.emit (.sendCompleted op.packet op.decidedError)
    | (ep, false) => { ep with sendOps := ep.sendOps ++ [{ op with state := .complete }] }

/-- The operations that close the endpoint complete. -/
def sendClosed (ep : Endpoint role pb) : Endpoint role pb :=
  { ep with
    sendOps := ep.sendOps.filter (·.state ≠ .complete)
    out := ep.out ++ (ep.sendOps.filter (·.state = .complete)).map fun op =>
      .sendCompleted op.packet op.decidedError }

/-! ### Receiving -/

/-- `recv_op` in the state `check_buf` -/
def checkBuf (op : RecvOp pb) (ep : Endpoint role pb) : Endpoint role pb :=
  { ep with recvOp := some { op with state := if ep.readBuf = [] then .read else .readIstream } }

/-- The completion of a `recv_op`. -/
def recvComplete (ec : Option EndpointError) (p : Option (PacketVariant pb))
    (ep : Endpoint role pb) : Endpoint role pb :=
  { ep with recvOp := none }.emit (.recvCompleted ec p)

/-- `recv_op` in the state `complete`, up to `send_publish_from_queue` -/
def recvFinish (op : RecvOp pb) (ep : Endpoint role pb) : Endpoint role pb :=
  match op.decidedError, op.recvPacket with
  | some ec, _ => ep.recvComplete (some ec) none
  | none, none => (ep.assert false).recvComplete none none
  | none, some p =>
    if op.fil.any (·.drops p.type) then ep.checkBuf { op with recvPacket := none }
    else if op.tryResendFromQueue ∧ ep.status = .open then
      { ep with
        recvOp := some { op with state := .resend ep.con.getReceiveMaximumVacancyForSend } }
    else ep.recvComplete none (some p)

/-- `recv_op` when all events have been processed -/
def recvProcessed (op : RecvOp pb) (ep : Endpoint role pb) : Endpoint role pb :=
  if op.decidedError.isNone ∧ op.recvPacket.isNone then ep.checkBuf op
  else (ep.assert (op.decidedError.isSome != op.recvPacket.isSome)).recvFinish op

/-- `recv_op` with a timer event -/
def recvTimer (op : TimerOp) (kind : TimerKind) (ms : Option Nat) (ep : Endpoint role pb) :
    Endpoint role pb :=
  match kind, op with
  | .pingreqSend, .reset => ep.resetPingreqSendTimer ms
  | .pingreqSend, .cancel => ep.cancelTimer .pingreqSend
  | .pingreqRecv, .reset => ep.resetPingreqRecvTimer ms
  | .pingreqRecv, .cancel => ep.cancelTimer .pingreqRecv
  | .pingrespRecv, .cancel => ep.resetPingrespRecvTimer ms
  | .pingrespRecv, .reset => ep.assert false

/-- `recv_op::process_one_event` until the operation waits or all events are processed. The
    argument is what `recv_events_` holds. -/
def processRecv : List (Event pb) → RecvOp pb → Endpoint role pb → Endpoint role pb
  | [], op, ep => { ep with recvEvents := [] }.recvProcessed op
  | .error ec :: es, op, ep => processRecv es { op with decidedError := some (.code ec) } ep
  | .send p release :: es, op, ep =>
    { (ep.assert release.isNone).emit (.asyncWritePacket p) with
      recvEvents := es
      recvOp := some { op with state := .sent } }
  | .packetIdRelease _ :: es, op, ep => processRecv es { op with tryResendFromQueue := true } ep
  | .receive p :: es, op, ep =>
    processRecv es { op with recvPacket := some p } (ep.assert op.recvPacket.isNone)
  | .timerOp o kind ms :: es, op, ep => processRecv es op (ep.recvTimer o kind ms)
  | .close :: es, op, ep =>
    match ep.asyncClose with
    | (ep, true) => processRecv es op ep
    | (ep, false) => { ep with recvEvents := es, recvOp := some { op with state := .closed } }
  | .threw _ :: es, _, ep | .outOfBounds :: es, _, ep =>
    { ep with recvEvents := es, recvOp := none }

/-- `recv_op` in the state `read_istream` -/
def readIstream (op : RecvOp pb) (ep : Endpoint role pb) : Endpoint role pb :=
  let (s, rest) := ep.con.recv ep.readBuf
  let ep := { ep with con := s.conn, readBuf := rest }
  match ep.recvEvents ++ s.events with
  | [] => { ep with recvOp := some { op with state := .read } }
  | es => processRecv es op ep

/-- `recv_op` with an error of the stream. Unless it was cancelled, it closes the endpoint. -/
def recvError (op : RecvOp pb) (ec : EndpointError) (ep : Endpoint role pb) : Endpoint role pb :=
  if ec = .operationAborted then ep.recvComplete (some ec) op.recvPacket
  else
    let op := { op with decidedError := some ec, state := .complete }
    match ep.asyncClose with
    | (ep, true) => ep.recvFinish op
    | (ep, false) => { ep with recvOp := some op }

/-- One turn of the loop of `send_publish_from_queue`. -/
def resend (op : RecvOp pb) (vacancy : Option Nat) (ep : Endpoint role pb) : Endpoint role pb :=
  match ep.publishQueue with
  | [] => ep.recvComplete none op.recvPacket
  | p :: _ =>
    if vacancy = some 0 then ep.recvComplete none op.recvPacket
    else
      let ep := ep.asyncSend (.v5Publish p) false
      { ep with publishQueue := ep.publishQueue.tail }

/-- The stream has been closed. -/
def streamClosed (ep : Endpoint role pb) : Endpoint role pb :=
  let ep := ep.notifyClosed.sendClosed
  match ep.recvOp with
  | none => ep
  | some op =>
    match op.state with
    | .closed => processRecv ep.recvEvents op ep
    | .complete => ep.recvFinish op
    | _ => ep

/-! ### The handlers of the timers -/

/-- The handler of `reset_pingreq_send_timer` -/
def pingreqSendHandler : List (Event pb) → Endpoint role pb → Endpoint role pb
  | [], ep => ep
  | .timerOp .reset .pingreqSend ms :: es, ep =>
    pingreqSendHandler es (ep.resetPingreqSendTimer ms)
  | .timerOp .cancel .pingreqSend _ :: es, ep =>
    pingreqSendHandler es (ep.cancelTimer .pingreqSend)
  | .timerOp .reset .pingrespRecv ms :: es, ep =>
    pingreqSendHandler es (ep.resetPingrespRecvTimer ms)
  | .send p release :: es, ep =>
    pingreqSendHandler es ((ep.assert release.isNone).emit (.asyncWritePacket p))
  | _ :: es, ep => pingreqSendHandler es (ep.assert false)

/-- A timer event in the handlers of `reset_pingreq_recv_timer` and `reset_pingresp_recv_timer` -/
def handlerTimer (own : TimerKind) (op : TimerOp) (kind : TimerKind) (ms : Option Nat)
    (ep : Endpoint role pb) : Endpoint role pb :=
  match own, kind, op with
  | .pingreqRecv, .pingreqRecv, .reset => ep.resetPingreqRecvTimer ms
  | .pingreqRecv, .pingreqRecv, .cancel => ep.cancelTimer .pingreqRecv
  | .pingrespRecv, .pingrespRecv, .reset => ep.resetPingrespRecvTimer ms
  | .pingrespRecv, .pingrespRecv, .cancel => ep.cancelTimer .pingrespRecv
  | .pingrespRecv, .pingreqSend, .cancel => ep.cancelTimer .pingreqSend
  | _, _, _ => ep.assert false

/-- The DISCONNECT of a timer, after which the endpoint is closed. `last` says whether `close` is the
    only event after it. -/
def timerDisconnect (p : PacketVariant pb) (last : Bool) (ep : Endpoint role pb) :
    Endpoint role pb :=
  let ep := (ep.assert (p.version = .v5 ∧ p.type = .disconnect)).assert last
  { ep.emit (.asyncWritePacket p) with disconnects := ep.disconnects + 1 }

/-- The handlers of `reset_pingreq_recv_timer` and `reset_pingresp_recv_timer`. A DISCONNECT takes
    the event after it along. -/
def recvTimerHandler (own : TimerKind) : List (Event pb) → Endpoint role pb → Endpoint role pb
  | [], ep => ep
  | .timerOp op kind ms :: es, ep => recvTimerHandler own es (ep.handlerTimer own op kind ms)
  | [.send p _], ep => ep.timerDisconnect p false
  | .send p _ :: e :: es, ep =>
    recvTimerHandler own es (ep.timerDisconnect p (e = .close ∧ es = []))
  | .close :: es, ep => recvTimerHandler own es ep.asyncClose.1
  | _ :: es, ep => recvTimerHandler own es (ep.assert false)

/-- A timer fires. -/
def timerFired (kind : TimerKind) (ep : Endpoint role pb) : Endpoint role pb :=
  let s := ep.con.notifyTimerFired kind
  let ep := { ep with con := s.conn }
  match kind with
  | .pingreqSend => pingreqSendHandler s.events ep
  | .pingreqRecv => recvTimerHandler .pingreqRecv s.events ep
  | .pingrespRecv => recvTimerHandler .pingrespRecv s.events ep

/-- `set_pingreq_send_interval` with one of the events -/
def intervalEvent (ep : Endpoint role pb) : Event pb → Endpoint role pb
  | .timerOp .reset .pingreqSend ms => ep.resetPingreqSendTimer ms
  | .timerOp .cancel .pingreqSend _ => ep.cancelTimer .pingreqSend
  | _ => ep.assert false

/-- `set_pingreq_send_interval` -/
def setPingreqSendInterval (duration : Nat) (ep : Endpoint role pb) : Endpoint role pb :=
  let s := ep.con.setPingreqSendInterval duration
  s.events.foldl intervalEvent { ep with con := s.conn }

end Endpoint

/-! ### What happens to an endpoint -/

namespace Connection

/-- A call that the endpoint passes on, without any event to handle. -/
def Op.passedOn {pb : PacketIdBytes} : Op pb → Bool
  | .send _ | .recv _ | .notifyTimerFired _ | .notifyClosed | .setPingreqSendInterval _ => false
  | _ => true

end Connection

namespace Endpoint

variable {role : Role} {pb : PacketIdBytes}

/-- What happens to an endpoint. The numbers are places in the list of operations. -/
inductive Input (pb : PacketIdBytes) where
  | asyncSend (p : PacketVariant pb) (asVariant : Bool)
  /-- the write of an operation completes -/
  | sendWritten (i : Nat) (ec : Option EndpointError)
  /-- an operation has waited before it closes -/
  | sendWaited (i : Nat) (ec : Option EndpointError)
  | asyncRecv (fil : Option RecvFilter)
  /-- the `as::post` of `check_buf` -/
  | readIstream
  /-- `async_read_some` completes -/
  | read (data : List UInt8)
  | readError (ec : EndpointError)
  /-- the write of `recv_op` completes -/
  | recvWritten (ec : Option EndpointError)
  /-- one turn of the loop of `send_publish_from_queue` -/
  | resend
  /-- `async_close` by the application -/
  | asyncClose
  /-- `async_close` of the stream completes -/
  | streamClosed
  /-- `async_underlying_handshake` or `underlying_accepted` -/
  | opened
  /-- a timer expires, and its handler is posted -/
  | expire (kind : TimerKind)
  /-- the first of these handlers runs -/
  | timerHandler
  /-- the write of a DISCONNECT of a timer completes -/
  | disconnectWritten
  | setPingreqSendInterval (duration : Nat)
  | passOn (op : Connection.Op pb)

/-- The operation at this place goes on. -/
def resumeSend (i : Nat) (f : SendOp pb → Endpoint role pb → Endpoint role pb)
    (ep : Endpoint role pb) : Endpoint role pb :=
  match ep.sendOps[i]? with
  | none => ep
  | some op => f op { ep with sendOps := ep.sendOps.eraseIdx i }

/-- `recv_op` goes on from this state. -/
def resumeRecv (state : RecvState) (f : RecvOp pb → Endpoint role pb → Endpoint role pb)
    (ep : Endpoint role pb) : Endpoint role pb :=
  match ep.recvOp with
  | none => ep
  | some op => if op.state = state then f op ep else ep

/-- The effect of an input, when no handler is running. -/
def react (ep : Endpoint role pb) : Input pb → Endpoint role pb
  | .asyncSend p asVariant => ep.asyncSend p asVariant
  | .sendWritten i ec => ep.resumeSend i fun op ep' =>
    match op.state with
    | .sent releasePid => ep'.sendWritten op releasePid ec
    | _ => ep
  | .sendWaited i ec => ep.resumeSend i fun op ep' =>
    if op.state = .close then ep'.sendClose op ec else ep
  | .asyncRecv fil =>
    if ep.recvOp.isNone then ep.checkBuf ⟨fil, none, none, false, .read⟩ else ep
  | .readIstream => ep.resumeRecv .readIstream fun op ep => ep.readIstream op
  | .read data => ep.resumeRecv .read fun op ep =>
    { ep with readBuf := ep.readBuf ++ data }.readIstream op
  | .readError ec => ep.resumeRecv .read fun op ep => ep.recvError op ec
  | .recvWritten none => ep.resumeRecv .sent fun op ep => processRecv ep.recvEvents op ep
  | .recvWritten (some ec) => ep.resumeRecv .sent fun op ep => ep.recvError op ec
  | .resend => ep
  | .asyncClose => ep.asyncClose.1
  | .streamClosed => if ep.status = .closing then ep.streamClosed else ep
  | .opened => if ep.status = .closed then { ep with status := .open } else ep
  | .expire kind =>
    if ep.armed kind then
      { ep with armed := Function.update ep.armed kind false, expired := ep.expired ++ [kind] }
    else ep
  | .timerHandler =>
    match ep.expired with
    | [] => ep
    | kind :: kinds => { ep with expired := kinds }.timerFired kind
  | .disconnectWritten =>
    if 0 < ep.disconnects then { ep with disconnects := ep.disconnects - 1 }.asyncClose.1 else ep
  | .setPingreqSendInterval duration => ep.setPingreqSendInterval duration
  | .passOn op => if op.passedOn then { ep with con := (ep.con.call op).conn } else ep

/-- The effect of an input. Nothing else happens while `recv_op` is in its loop. -/
def step (ep : Endpoint role pb) (i : Input pb) : Endpoint role pb :=
  match ep.recvOp with
  | none => ep.react i
  | some op =>
    match op.state, i with
    | .resend vacancy, .resend => ep.resend op vacancy
    | .resend _, _ => ep
    | _, i => ep.react i

end Endpoint

end AsyncMqtt
