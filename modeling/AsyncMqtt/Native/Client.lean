import AsyncMqtt.Native.ConnectionSend

/-!
# Requests and responses of a client

`client_start.ipp`, `client_subscribe.ipp`, `client_unsubscribe.ipp`, `client_publish.ipp`, the
`recv_loop` of `client_misc.ipp`, and the table `pid_tim_pv_res_col` of `client_impl.hpp` in
which requests and responses meet.

An operation sends its request, makes an entry in the table when `async_send` has completed, and
waits for a timer that never expires. `recv_loop` puts a response into the entry with its packet
identifier and cancels the timer, which posts the handler of `async_wait`. The executor runs the
posted handlers in their order.

Of the connection the model has what decides about a response: it hands over an acknowledgement
only if it awaits one of this type with this identifier, and CONNACK only after a CONNECT.
-/

namespace AsyncMqtt

/-- The errors with which an operation completes. -/
inductive ClientError where
  /-- `as::error::operation_aborted` -/
  | operationAborted
  /-- `disconnect_reason_code::protocol_error` -/
  | protocolError
  | allErrorDetected
  | partialErrorDetected
  /-- the return code or reason code of a response -/
  | code (v : UInt8)
  /-- what `async_send` reports -/
  | send (value : Nat)
  deriving DecidableEq

/-- `start_op`, `subscribe_op`, `unsubscribe_op` or `publish_op`, by the packet it sends, with a
    number of its own. It also stands for the timer that it waits for. -/
structure ClientOp (pb : PacketIdBytes) where
  number : Nat
  packet : PacketVariant pb
  deriving DecidableEq

instance : LawfulBEq (ClientOp pb) := inferInstance

/-- `pubres_type` -/
structure PubRes (pb : PacketIdBytes) where
  puback : Option (PacketVariant pb)
  pubrec : Option (PacketVariant pb)
  pubcomp : Option (PacketVariant pb)
  deriving DecidableEq

/-- `elem_type` -/
structure PidTimPvRes (pb : PacketIdBytes) where
  pid : Nat
  tim : ClientOp pb
  pv : Option (PacketVariant pb)
  res : PubRes pb
  deriving DecidableEq

/-- How an operation completes. -/
inductive ClientResult (pb : PacketIdBytes) where
  | complete (ec : Option ClientError) (pv : Option (PacketVariant pb)) (res : PubRes pb)
  /-- the optional response is read although it has no value; what follows is undefined -/
  | absentResponse
  deriving DecidableEq

/-- A response that the connection awaits, and the operation whose request it belongs to. -/
structure Awaited (pb : PacketIdBytes) where
  type : ControlPacketType
  op : ClientOp pb
  deriving DecidableEq

namespace PubRes

variable {pb : PacketIdBytes}

/-- `pubres_type{}` -/
def empty : PubRes pb := ⟨none, none, none⟩

end PubRes

/-! ### Responses -/

namespace PacketVariant

variable {pb : PacketIdBytes}

/-- `entries()` of a SUBACK or UNSUBACK -/
def entries : PacketVariant pb → List UInt8
  | v311Suback p => p.entries
  | v5Suback p | v5Unsuback p => p.entries
  | _ => []

/-- `code()` of a response -/
def code : PacketVariant pb → UInt8
  | v311Connack p => p.code
  | v5Connack p => p.code
  | v5Puback p | v5Pubrec p | v5Pubrel p | v5Pubcomp p => p.code
  | _ => 0

/-- The type of the first response to a request. -/
def response? (p : PacketVariant pb) : Option ControlPacketType :=
  match p.type with
  | .connect => some .connack
  | .subscribe => some .suback
  | .unsubscribe => some .unsuback
  | .publish =>
    if p.packetId = 0 then none
    else if Pub.getQos p.view.opts = Qos.atLeastOnce then some .puback
    else if Pub.getQos p.view.opts = Qos.exactlyOnce then some .pubrec
    else none
  | _ => none

end PacketVariant

namespace Client

variable {pb : PacketIdBytes}

/-- `make_error_code` of a return code or a reason code. All values but the return codes of a
    v3.1.1 CONNACK are errors from 0x80 on. -/
def makeErrorCode (v : UInt8) : Option ClientError := if 0x80 ≤ v then some (.code v) else none

/-- `make_error_code(p->code())` of a CONNACK -/
def connackErrorCode (p : PacketVariant pb) : Option ClientError :=
  match p.version with
  | .v5 => makeErrorCode p.code
  | _ => if p.code = 0 then none else some (.code p.code)

/-- The error code of the entries of a SUBACK, or of a v5.0 UNSUBACK. -/
def entriesErrorCode (codes : List UInt8) : Option ClientError :=
  match codes with
  | [] => some .protocolError
  | [code] => makeErrorCode code
  | _ =>
    if codes.all fun code => (makeErrorCode code).isSome then some .allErrorDetected
    else if codes.any fun code => (makeErrorCode code).isSome then some .partialErrorDetected
    else none

/-- A response that cancels the timer: all but a PUBREC that is no error. -/
def endsExchange (version : ProtocolVersion) (pv : PacketVariant pb) : Bool :=
  pv.type ≠ .pubrec || version = .v5 && (makeErrorCode pv.code).isSome

/-- The error code of a PUBLISH. -/
def publishErrorCode (version : ProtocolVersion) (res : PubRes pb) : Option ClientError :=
  match version with
  | .v5 =>
    match res.puback, res.pubrec, res.pubcomp with
    | some p, _, _ => makeErrorCode p.code
    | none, none, _ => some .protocolError
    | none, some p, pubcomp =>
      match makeErrorCode p.code, pubcomp with
      | some ec, _ => some ec
      | none, some q => makeErrorCode q.code
      | none, none => some .protocolError
  | _ => none

end Client

/-! ### The client -/

/-- `client_impl`: the table, and the operations that are being sent, that wait for their timer
    and whose handler is posted. `loops` counts the calls of `recv_loop` that go on. -/
structure Client (pb : PacketIdBytes) where
  version : ProtocolVersion
  elems : List (PidTimPvRes pb)
  sending : List (ClientOp pb)
  waiting : List (ClientOp pb)
  handlers : List (ClientOp pb)
  awaited : List (Awaited pb)
  loops : Nat
  started : Nat
  deriving DecidableEq

namespace Client

variable {pb : PacketIdBytes}

/-- A new client. -/
def make (pb : PacketIdBytes) (version : ProtocolVersion) : Client pb :=
  ⟨version, [], [], [], [], [], 0, 0⟩

/-- The completions of operations. -/
abbrev Completions (pb : PacketIdBytes) := List (ClientOp pb × ClientResult pb)

/-- Completion with an error and without a response. -/
def fail (ec : ClientError) : ClientResult pb := .complete (some ec) none .empty

/-- `emplace`, which does nothing if there is an entry with this identifier. The table is ordered
    by the identifiers. -/
def emplace (elems : List (PidTimPvRes pb)) (op : ClientOp pb) : List (PidTimPvRes pb) :=
  if elems.any (·.pid = op.packet.packetId) then elems
  else elems.takeWhile (·.pid < op.packet.packetId) ++
    ⟨op.packet.packetId, op, none, .empty⟩ :: elems.dropWhile (·.pid < op.packet.packetId)

/-- The operations that wait for a response: not a PUBLISH without an identifier. -/
def waits (packet : PacketVariant pb) : Bool :=
  match packet.type with
  | .connect | .subscribe | .unsubscribe => true
  | .publish => packet.packetId ≠ 0
  | _ => false

/-- `cancel` of a timer, which posts the handler if `async_wait` is under way. -/
def cancelTimer (cl : Client pb) (tim : ClientOp pb) : Client pb :=
  if tim ∈ cl.waiting then
    { cl with waiting := cl.waiting.erase tim, handlers := cl.handlers ++ [tim] }
  else cl

/-- `pid_tim_pv_res_col::clear` -/
def clear (cl : Client pb) : Client pb :=
  { cl.elems.foldl (fun cl e => cl.cancelTimer e.tim) cl with elems := [] }

/-- An operation begins: `con_.send` records the response that it awaits, or refuses the packet
    with an error. -/
def called (cl : Client pb) (packet : PacketVariant pb) (refused : Option Nat) :
    Client pb × Completions pb :=
  let op : ClientOp pb := ⟨cl.started, packet⟩
  let cl := { cl with started := cl.started + 1 }
  match refused with
  | some ec => (cl, [(op, fail (.send ec))])
  | none =>
    match packet.response? with
    | none => ({ cl with sending := cl.sending ++ [op] }, [])
    | some type =>
      ({ cl with sending := cl.sending ++ [op], awaited := cl.awaited ++ [⟨type, op⟩] }, [])

/-- `async_send` completes: the second `operator()`. The other operations of the client are over
    with that. -/
def sent (cl : Client pb) (op : ClientOp pb) (ec : Option Nat) : Client pb × Completions pb :=
  let cl := { cl with sending := cl.sending.erase op }
  match ec with
  | some ec => (cl, [(op, fail (.send ec))])
  | none =>
    if waits op.packet then
      ({ cl with
          elems := emplace cl.elems op
          loops := if op.packet.type = .connect then cl.loops + 1 else cl.loops
          waiting := cl.waiting ++ [op] }, [])
    else (cl, [(op, .complete none none .empty)])

/-- A response is put into the entry. -/
def answer (e : PidTimPvRes pb) (pv : PacketVariant pb) : PidTimPvRes pb :=
  match pv.type with
  | .puback => { e with res := { e.res with puback := some pv } }
  | .pubrec => { e with res := { e.res with pubrec := some pv } }
  | .pubcomp => { e with res := { e.res with pubcomp := some pv } }
  | _ => { e with pv := some pv }

/-- `recv_loop` with one of the responses -/
def respond (cl : Client pb) (pv : PacketVariant pb) : Client pb :=
  match cl.elems.find? (·.pid = pv.packetId) with
  | none => cl
  | some e =>
    let cl' := { cl with elems := cl.elems.map fun e' => if e'.pid = e.pid then answer e pv else e' }
    if endsExchange cl.version pv then cl'.cancelTimer e.tim else cl'

/-- The response that the connection awaits and that this packet is. -/
def matching (cl : Client pb) (pv : PacketVariant pb) : Option (Awaited pb) :=
  cl.awaited.find? fun a => a.type = pv.type ∧ a.op.packet.packetId = pv.packetId

/-- A response is received. The connection no longer awaits it; after a PUBREC that is no error
    it sends PUBREL and awaits PUBCOMP. -/
def received (cl : Client pb) (pv : PacketVariant pb) : Client pb :=
  match cl.matching pv with
  | none => cl
  | some a =>
    let rest := cl.awaited.erase a
    let cl' : Client pb :=
      { cl with
        awaited := if pv.type = .pubrec ∧ ¬ endsExchange cl.version pv
          then rest ++ [⟨.pubcomp, a.op⟩] else rest }
    cl'.respond pv

/-- `recv_loop` with an error. The connection has been closed; it keeps what it awaits for a
    PUBLISH if the session is kept. -/
def receivedError (cl : Client pb) (needStore : Bool) : Client pb :=
  let cl' : Client pb :=
    { cl with
      loops := cl.loops - 1
      awaited := cl.awaited.filter fun a => needStore ∧ a.op.packet.type = .publish }
  cl'.clear

/-- The result that an operation reads from its entry. -/
def result (version : ProtocolVersion) (e : PidTimPvRes pb) : ClientResult pb :=
  let read (type : ControlPacketType) (ec : PacketVariant pb → Option ClientError) :=
    match e.pv with
    | none => .absentResponse
    | some pv => if pv.type = type then .complete (ec pv) (some pv) .empty else fail .protocolError
  match e.tim.packet.type with
  | .publish => .complete (publishErrorCode version e.res) none e.res
  | .connect => read .connack connackErrorCode
  | .subscribe => read .suback fun pv => entriesErrorCode pv.entries
  | _ => read .unsuback fun pv => if version = .v5 then entriesErrorCode pv.entries else none

/-- The handler of `async_wait`: the third `operator()`. -/
def timerCancelled (cl : Client pb) (tim : ClientOp pb) : Client pb × Completions pb :=
  match cl.elems.find? (·.tim = tim) with
  | none => (cl, [(tim, fail .operationAborted)])
  | some e =>
    ({ cl with elems := cl.elems.eraseP (·.tim = tim) }, [(tim, result cl.version e)])

/-- What happens to a client. -/
inductive Input (pb : PacketIdBytes) where
  /-- an operation begins with this packet, and `con_.send` may refuse it -/
  | called (packet : PacketVariant pb) (refused : Option Nat)
  /-- `async_send` of an operation completes -/
  | sent (op : ClientOp pb) (ec : Option Nat)
  /-- `recv_loop` gets a packet -/
  | received (pv : PacketVariant pb)
  /-- `recv_loop` gets an error -/
  | receivedError (needStore : Bool)
  /-- the application cancels an operation -/
  | cancel (op : ClientOp pb)
  /-- the first of the posted handlers runs -/
  | handler

/-- The effect of an input. -/
def call (cl : Client pb) : Input pb → Client pb × Completions pb
  | .called packet refused => cl.called packet refused
  | .sent op ec => if op ∈ cl.sending then cl.sent op ec else (cl, [])
  | .received pv => (if 0 < cl.loops then cl.received pv else cl, [])
  | .receivedError needStore => (if 0 < cl.loops then cl.receivedError needStore else cl, [])
  | .cancel op => (cl.cancelTimer op, [])
  | .handler =>
    match cl.handlers with
    | [] => (cl, [])
    | tim :: handlers => { cl with handlers }.timerCancelled tim

end Client

end AsyncMqtt
