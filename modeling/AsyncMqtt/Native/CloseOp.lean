import AsyncMqtt.Native.Endpoint
import AsyncMqtt.Native.IocQueue

/-!
# Closing an endpoint

`close_op` of `endpoint_close.ipp` with the queue in which later operations wait, and the ends of
`underlying_handshake_op` and `underlying_accepted`, the only ones that open an endpoint.

An operation that was dispatched, by its start or by the queue that hands it out, runs at any
later time: at once, as from a handler of the same executor, or after other handlers. So does the
loop of `poll`, one turn at a time, and the close of the stream that an operation waits for.
-/

namespace AsyncMqtt

/-- The states of `close_op` -/
inductive CloseOpState where
  | dispatch
  | close
  | complete
  deriving DecidableEq

/-- `close_op`, with a number of its own -/
structure CloseOp where
  number : Nat
  state : CloseOpState
  deriving DecidableEq

/-- What the operations do, in order. -/
inductive CloseOutput where
  /-- `stream_.async_close` -/
  | streamClose (op : CloseOp)
  /-- `con_.notify_closed` -/
  | notifyClosed
  /-- `self.complete` -/
  | complete (op : CloseOp)
  deriving DecidableEq

/-- An endpoint with its operations that close it: the ones that were dispatched, the ones that
    wait for the close of the stream, and the ones that run `close_queue_.poll()`. -/
structure Closer (role : Role) (pb : PacketIdBytes) where
  ep : Endpoint role pb
  closeQueue : IocQueue CloseOp
  dispatched : List CloseOp
  streamClosing : List CloseOp
  polling : List CloseOp
  started : Nat

namespace Closer

variable {role : Role} {pb : PacketIdBytes}

/-- A new endpoint. -/
def make (role : Role) (pb : PacketIdBytes) (ver : ProtocolVersion) : Closer role pb :=
  ⟨.make role pb ver, .make, [], [], [], 0⟩

/-- `close_op::operator()` -/
def closeOp (op : CloseOp) (c : Closer role pb) : Closer role pb × List CloseOutput :=
  match op.state with
  | .dispatch => ({ c with dispatched := c.dispatched ++ [{ op with state := .close }] }, [])
  | .close =>
    match c.ep.status with
    | .open =>
      let op := { op with state := .complete }
      ({ c with
          ep := { c.ep with status := .closing }
          streamClosing := c.streamClosing ++ [op] }, [.streamClose op])
    | .closing => ({ c with closeQueue := c.closeQueue.post op }, [])
    | .closed => (c, [.complete op])
  | .complete =>
    -- `status_` is closed before the queue is polled
    ({ c with ep := c.ep.notifyClosed, polling := c.polling ++ [op] }, [.notifyClosed])

/-- One turn of the loop of `close_queue_.poll()`. The operation that polls completes after the
    last one. -/
def pollTurn (op : CloseOp) (polling : List CloseOp) (c : Closer role pb) :
    Closer role pb × List CloseOutput :=
  match c.closeQueue.pollOne with
  | (some next, q) => ({ c with closeQueue := q, dispatched := c.dispatched ++ [next] }, [])
  | (none, q) => ({ c with closeQueue := q, polling }, [.complete op])

/-- What happens to an endpoint. -/
inductive Input where
  /-- `async_close` -/
  | asyncClose
  /-- an operation that was dispatched runs -/
  | run (k : Nat)
  /-- `async_close` of the stream completes -/
  | streamClosed (k : Nat)
  /-- a turn of `close_queue_.poll()` -/
  | poll
  /-- `underlying_handshake_op` completes -/
  | handshake (ok : Bool)
  /-- `underlying_accepted` -/
  | underlyingAccepted
  deriving DecidableEq

/-- The effect of an input. -/
def call (c : Closer role pb) : Input → Closer role pb × List CloseOutput
  | .asyncClose => { c with started := c.started + 1 }.closeOp ⟨c.started, .dispatch⟩
  | .run k =>
    match c.dispatched[k]? with
    | none => (c, [])
    | some op => { c with dispatched := c.dispatched.eraseIdx k }.closeOp op
  | .streamClosed k =>
    match c.streamClosing[k]? with
    | none => (c, [])
    | some op => { c with streamClosing := c.streamClosing.eraseIdx k }.closeOp op
  | .poll =>
    match c.polling with
    | [] => (c, [])
    | op :: polling => c.pollTurn op polling
  | .handshake ok => (if ok then { c with ep := { c.ep with status := .open } } else c, [])
  | .underlyingAccepted => ({ c with ep := { c.ep with status := .open } }, [])

end Closer

end AsyncMqtt
