import AsyncMqtt.Native.Types

/-!
# Cutting the received bytes into packets

`basic_connection_impl::recv_packet_builder`. A call of `recv` takes bytes from
the stream until a packet is complete or the stream is empty.
-/

namespace AsyncMqtt

/-- `error_packet`: what the builder hands over -/
inductive ErrorPacket where
  | ec (ec : ErrorCode)
  | packet (packet : Buffer)
  deriving DecidableEq, Repr

/-- `read_state` -/
inductive ReadState where
  | fixedHeader
  | remainingLength
  | payload
  deriving DecidableEq, Repr

/-- `recv_packet_builder`. `rawBuf` is the part of `raw_buf_` before `raw_buf_ptr_`. -/
structure RecvPacketBuilder where
  readState : ReadState
  remainingLength : Nat
  multiplier : Nat
  headerRemainingLengthBuf : Buffer
  rawBuf : Buffer
  deriving DecidableEq, Repr

namespace RecvPacketBuilder

/-- `initialize` -/
def initialized : RecvPacketBuilder := ⟨.fixedHeader, 0, 1, [], []⟩

/-- `recv`: the builder after it, `read_packet_` and what is left of the stream. -/
def recv (rpb : RecvPacketBuilder) :
    List UInt8 → RecvPacketBuilder × Option ErrorPacket × List UInt8
  | [] => (rpb, none, [])
  | byte :: is =>
    match rpb.readState with
    | .fixedHeader =>
      recv { rpb with
        headerRemainingLengthBuf := rpb.headerRemainingLengthBuf ++ [byte]
        readState := .remainingLength } is
    | .remainingLength =>
      let header := rpb.headerRemainingLengthBuf ++ [byte]
      let remainingLength := rpb.remainingLength + (byte &&& 0b01111111).toNat * rpb.multiplier
      let multiplier := rpb.multiplier * 128
      if byte &&& 0b10000000 = 0 then
        if remainingLength = 0 then (initialized, some (.packet header), is)
        else recv ⟨.payload, remainingLength, multiplier, header, header⟩ is
      else if multiplier = 128 * 128 * 128 * 128 then
        (initialized, some (.ec (.disconnect DisconnectReasonCode.packetTooLarge)), is)
      else recv ⟨.remainingLength, remainingLength, multiplier, header, rpb.rawBuf⟩ is
    | .payload =>
      let copied := (byte :: is).take rpb.remainingLength
      let rawBuf := rpb.rawBuf ++ copied
      if copied.length = rpb.remainingLength then
        (initialized, some (.packet rawBuf), (byte :: is).drop rpb.remainingLength)
      else
        ({ rpb with
            rawBuf := rawBuf
            remainingLength := rpb.remainingLength - copied.length }, none, [])

end RecvPacketBuilder

end AsyncMqtt
