import AsyncMqtt.Native.IocQueue
import AsyncMqtt.Native.PacketVariant

/-!
# Writing packets to a stream

`stream_write_packet.hpp` and what it uses of `stream_impl.hpp` and `stream_close.hpp`: the
operations that write a packet, one at a time, and in bulk if `bulk_write_` is set.

The executor runs one handler at a time. `as::dispatch` to it from one of its handlers goes on
at once, and what `as::post` leaves for later is a step of its own. A buffer of a packet points
into the packet of an operation, so it is given as the number of the operation and the bytes.
-/

namespace AsyncMqtt

/-- The error codes of the layers below. -/
inductive Errc where
  | connectionReset
  | other (value : Nat)
  deriving DecidableEq

/-- `as::const_buffer`: some bytes of the packet of an operation -/
structure ConstBuffer where
  op : Nat
  data : Buffer
  deriving DecidableEq

/-- The state in which an operation waits in the queue. -/
inductive WriteState where
  | write
  | bulkWrite
  deriving DecidableEq

/-- `stream_write_packet_op`, with a number of its own -/
structure StreamWritePacketOp (pb : PacketIdBytes) where
  number : Nat
  packet : PacketVariant pb
  state : WriteState
  deriving DecidableEq

/-- `stream_impl`. `isOpen` is what `lowest_layer().is_open()` returns, `writing` the operation
    whose `async_write` is under way with the buffers it writes, and `posted` the number of
    handlers that will call `poll_one`. -/
structure Stream (pb : PacketIdBytes) where
  writeQueue : IocQueue (StreamWritePacketOp pb)
  storingCbs : List ConstBuffer
  sendingCbs : List ConstBuffer
  bulkWrite : Bool
  isOpen : Bool
  writing : Option (StreamWritePacketOp pb × List ConstBuffer)
  posted : Nat
  started : Nat
  deriving DecidableEq

/-- What a stream does to the layer below and to those who write. -/
inductive StreamEvent (pb : PacketIdBytes) where
  /-- `async_write` of the next layer -/
  | asyncWrite (cbs : List ConstBuffer)
  /-- the completion of an operation -/
  | complete (op : StreamWritePacketOp pb) (ec : Option Errc) (size : Nat)
  deriving DecidableEq

namespace StreamWritePacketOp

variable {pb : PacketIdBytes}

/-- `packet->const_buffer_sequence()` -/
def cbs (op : StreamWritePacketOp pb) : List ConstBuffer :=
  op.packet.constBufferSequence.map (ConstBuffer.mk op.number)

end StreamWritePacketOp

namespace Stream

variable {pb : PacketIdBytes}

/-- A stream that nothing was written to. -/
def make : Stream pb := ⟨.make, [], [], false, false, none, 0, 0⟩

/-- The end of an operation: the second `operator()`. -/
def complete (strm : Stream pb) (op : StreamWritePacketOp pb) (ec : Option Errc)
    (bytesTransferred : Nat) : Stream pb × List (StreamEvent pb) :=
  let strm := { strm with writeQueue := strm.writeQueue.stopWork, posted := strm.posted + 1 }
  match ec with
  | some ec => (strm, [.complete op (some ec) bytesTransferred])
  | none => ({ strm with sendingCbs := [] }, [.complete op none op.packet.size])

/-- The cases `write` and `bulk_write` of the first `operator()`. -/
def execute (strm : Stream pb) (op : StreamWritePacketOp pb) :
    Stream pb × List (StreamEvent pb) :=
  let strm := { strm with writeQueue := strm.writeQueue.startWork }
  if strm.isOpen then
    match op.state with
    | .write => ({ strm with writing := some (op, op.cbs) }, [.asyncWrite op.cbs])
    | .bulkWrite =>
      if strm.storingCbs = [] then strm.complete op none op.packet.size
      else
        ({ strm with
            sendingCbs := strm.storingCbs, storingCbs := []
            writing := some (op, strm.storingCbs) },
          [.asyncWrite strm.storingCbs])
  else strm.complete op (some .connectionReset) 0

/-- Goes on with the handler that the queue hands out. -/
def resume (strm : Stream pb)
    (next : Option (StreamWritePacketOp pb) × IocQueue (StreamWritePacketOp pb)) :
    Stream pb × List (StreamEvent pb) :=
  match next with
  | (none, q) => ({ strm with writeQueue := q }, [])
  | (some op, q) => { strm with writeQueue := q }.execute op

/-- The operation that `async_write_packet` starts. -/
def newOp (strm : Stream pb) (packet : PacketVariant pb) : StreamWritePacketOp pb :=
  ⟨strm.started, packet,
    if ! strm.bulkWrite || strm.writeQueue.immediateExecutable then .write else .bulkWrite⟩

/-- `async_write_packet`: the case `post`. -/
def asyncWritePacket (strm : Stream pb) (packet : PacketVariant pb) :
    Stream pb × List (StreamEvent pb) :=
  let op := strm.newOp packet
  let storingCbs := match op.state with
    | .write => strm.storingCbs
    | .bulkWrite => strm.storingCbs ++ op.cbs
  { strm with started := strm.started + 1, storingCbs }.resume (strm.writeQueue.post op).tryExecute

/-- What happens to a stream. -/
inductive Input (pb : PacketIdBytes) where
  | asyncWritePacket (packet : PacketVariant pb)
  | setBulkWrite (val : Bool)
  /-- the lowest layer is opened or closed -/
  | setOpen (val : Bool)
  /-- the `async_write` of the next layer completes -/
  | written (ec : Option Errc) (bytesTransferred : Nat)
  /-- the handler that was posted at the end of an operation runs -/
  | poll
  /-- `stream_close_op` completes -/
  | closed

/-- The effect of an input. -/
def call (strm : Stream pb) : Input pb → Stream pb × List (StreamEvent pb)
  | .asyncWritePacket packet => strm.asyncWritePacket packet
  | .setBulkWrite val => ({ strm with bulkWrite := val }, [])
  | .setOpen val => ({ strm with isOpen := val }, [])
  | .written ec bytesTransferred =>
    match strm.writing with
    | none => (strm, [])
    | some (op, _) => { strm with writing := none }.complete op ec bytesTransferred
  | .poll =>
    match strm.posted with
    | 0 => (strm, [])
    | posted + 1 => { strm with posted }.resume strm.writeQueue.pollOne
  | .closed => ({ strm with storingCbs := [], sendingCbs := [] }, [])

end Stream

end AsyncMqtt
