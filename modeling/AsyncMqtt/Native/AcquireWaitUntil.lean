import AsyncMqtt.Native.ValueAllocator

/-!
# Waiting for a packet identifier

`endpoint_acquire_unique_packet_id_wait_until.ipp`, `endpoint_add_retry.ipp`,
`endpoint_release_packet_id.ipp` and the functions of `endpoint_misc.ipp` that they call: the
operations that wait until an identifier is released.

An operation waits for a timer that never expires. Cancelling the timer posts the handler of
its `async_wait`, and the executor runs the posted handlers in their order. What releases an
identifier and what its events do (`async_release_packet_id`, an acknowledgement, a failed send,
a close) is one step, as no handler runs in between.
-/

namespace AsyncMqtt

/-- `std::shared_ptr<as::steady_timer>`: a timer, and the operation that waits for it -/
structure RetryTimer where
  number : Nat
  op : Nat
  deriving DecidableEq

/-- `tim_cancelled` -/
structure TimCancelled where
  tim : RetryTimer
  cancelled : Bool
  deriving DecidableEq

/-- What `basic_endpoint_impl` keeps for those who wait. `waiting` are the timers whose
    `async_wait` is under way, `handlers` the ones whose handler is posted. Operations and timers
    have numbers, in the order in which they begin. -/
structure AcquireWait (pb : PacketIdBytes) where
  pidMan : PacketIdManager pb
  packetIdReleased : Bool
  timRetryAcqPidQueue : List TimCancelled
  waiting : List RetryTimer
  handlers : List RetryTimer
  ops : Nat
  timers : Nat
  deriving DecidableEq

/-- The completion of an operation: the identifier, or `operation_aborted`. -/
structure AcquireCompletion where
  op : Nat
  packetId : Option Nat
  deriving DecidableEq

namespace AcquireWait

variable {pb : PacketIdBytes}

/-- A new endpoint. -/
def make (pb : PacketIdBytes) : AcquireWait pb := ⟨.make pb, false, [], [], [], 0, 0⟩

/-- `cancel` of a timer, which posts the handler if `async_wait` is under way. -/
def cancelTimer (w : AcquireWait pb) (tim : RetryTimer) : AcquireWait pb :=
  if tim ∈ w.waiting then
    { w with waiting := w.waiting.erase tim, handlers := w.handlers ++ [tim] }
  else w

/-- The loop of `notify_retry_one`: the first timer that is not cancelled, which is now. -/
def markOne : List TimCancelled → Option RetryTimer × List TimCancelled
  | [] => (none, [])
  | e :: es =>
    if e.cancelled then ((markOne es).1, e :: (markOne es).2)
    else (some e.tim, { e with cancelled := true } :: es)

/-- `notify_retry_one` -/
def notifyRetryOne (w : AcquireWait pb) : AcquireWait pb :=
  let w' := { w with timRetryAcqPidQueue := (markOne w.timRetryAcqPidQueue).2 }
  match (markOne w.timRetryAcqPidQueue).1 with
  | none => w'
  | some tim => w'.cancelTimer tim

/-- `complete_retry_one` -/
def completeRetryOne (w : AcquireWait pb) : AcquireWait pb :=
  { w with timRetryAcqPidQueue := w.timRetryAcqPidQueue.tail }

/-- `has_retry` -/
def hasRetry (w : AcquireWait pb) : Bool := ! w.timRetryAcqPidQueue.isEmpty

/-- `notify_release_pid` -/
def notifyReleasePid (w : AcquireWait pb) : AcquireWait pb :=
  { w with packetIdReleased := true }.notifyRetryOne

/-- `add_retry_op` up to its `async_wait` -/
def addRetry (w : AcquireWait pb) (op : Nat) : AcquireWait pb :=
  let tim := ⟨w.timers, op⟩
  { w with
    timers := w.timers + 1
    waiting := w.waiting ++ [tim]
    timRetryAcqPidQueue := w.timRetryAcqPidQueue ++ [⟨tim, false⟩] }

/-- `acq_proc` -/
def acqProc (w : AcquireWait pb) (op : Nat) : AcquireWait pb × List AcquireCompletion :=
  match w.pidMan.acquireUniqueId with
  | (some packetId, pidMan) => ({ w with pidMan }, [⟨op, some packetId⟩])
  | (none, pidMan) => ({ w with pidMan, packetIdReleased := false }.addRetry op, [])

/-- `async_acquire_unique_packet_id_wait_until` -/
def acquireUniquePacketIdWaitUntil (w : AcquireWait pb) :
    AcquireWait pb × List AcquireCompletion :=
  let w' := { w with ops := w.ops + 1 }
  if w.hasRetry then (w'.addRetry w.ops, []) else w'.acqProc w.ops

/-- What `add_retry_op` does with `operation_aborted`: the timer leaves the queue if it was
    cancelled on purpose. -/
def retryCancelled (w : AcquireWait pb) (tim : RetryTimer) : AcquireWait pb :=
  if w.packetIdReleased then w
  else { w with timRetryAcqPidQueue := w.timRetryAcqPidQueue.eraseP (·.tim = tim) }

/-- `add_retry_op` and `acquire_unique_packet_id_wait_until_op` with `operation_aborted` -/
def retry (w : AcquireWait pb) (tim : RetryTimer) : AcquireWait pb × List AcquireCompletion :=
  let w := w.retryCancelled tim
  if w.packetIdReleased then w.completeRetryOne.acqProc tim.op else (w, [⟨tim.op, none⟩])

/-- `con_.release_packet_id` -/
def releaseId (w : AcquireWait pb) (packetId : Nat) : AcquireWait pb :=
  { w with pidMan := w.pidMan.releaseId packetId }

/-- What happens to an endpoint and its connection. -/
inductive Input (pb : PacketIdBytes) where
  | acquireUniquePacketIdWaitUntil
  /-- the application cancels an operation -/
  | cancel (op : Nat)
  /-- an identifier is released, and `packet_id_released` is handled -/
  | packetIdReleased (packetId : Fin pb.limit)
  /-- an identifier is released by `release_packet_id`, or because a write has failed: both
      drop the events of the connection. Or it is released by `send_stored`, whose events are
      handled after the stored packets were written -/
  | releasePacketId (packetId : Fin pb.limit)
  /-- a `packet_id_released` of an identifier that was released before is handled -/
  | notifyReleasePid
  | acquireUniquePacketId
  | registerPacketId (packetId : Fin pb.limit)
  /-- the session is cleared -/
  | clear
  /-- the first of the posted handlers runs -/
  | handler

/-- The effect of an input. -/
def call (w : AcquireWait pb) : Input pb → AcquireWait pb × List AcquireCompletion
  | .acquireUniquePacketIdWaitUntil => w.acquireUniquePacketIdWaitUntil
  | .cancel op =>
    match w.waiting.find? (·.op = op) with
    | none => (w, [])
    | some tim => (w.cancelTimer tim, [])
  | .packetIdReleased packetId =>
    if w.pidMan.isUsedId packetId then ((w.releaseId packetId).notifyReleasePid, []) else (w, [])
  | .releasePacketId packetId =>
    if w.pidMan.isUsedId packetId then (w.releaseId packetId, []) else (w, [])
  | .notifyReleasePid => (w.notifyReleasePid, [])
  | .acquireUniquePacketId => ({ w with pidMan := w.pidMan.acquireUniqueId.2 }, [])
  | .registerPacketId packetId => ({ w with pidMan := (w.pidMan.registerId packetId).2 }, [])
  | .clear => ({ w with pidMan := w.pidMan.clear }, [])
  | .handler =>
    match w.handlers with
    | [] => (w, [])
    | tim :: handlers => { w with handlers }.retry tim

end AcquireWait

end AsyncMqtt
