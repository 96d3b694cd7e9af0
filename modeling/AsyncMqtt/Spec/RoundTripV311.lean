import AsyncMqtt.Spec.ConstructCorrect

/-!
# v3.1.1: decoding what was encoded

Every v3.1.1 packet that a public constructor builds, encoded by
`const_buffer_sequence` and decoded by `buffer_to_basic_packet_variant`. The
decoders are stricter than the constructors on a few arguments; those are the
exceptions in `V311.Call.RoundTrips`.

## Key results

- `V311.decode_connect`, ..., `V311.decode_unsubscribe`: one round trip for each class
- `V311.build_round_trip_iff`: the constructor calls whose packet comes back
-/

namespace AsyncMqtt

open ByteReader

namespace V311

/-! ### Constructor calls -/

/-- A call of a public constructor of a v3.1.1 packet. -/
inductive Call (pb : PacketIdBytes) where
  | connect (cleanSession : Bool) (keepAliveSec : UInt16) (clientId : Buffer) (w : Option Will)
      (userName password : Option Buffer)
  | connack (sessionPresent : Bool) (returnCode : UInt8)
  | publish (packetId : Fin pb.limit) (topicName : Buffer) (payloads : List Buffer)
      (pubopts : UInt8)
  | puback (packetId : Fin pb.limit)
  | pubrec (packetId : Fin pb.limit)
  | pubrel (packetId : Fin pb.limit)
  | pubcomp (packetId : Fin pb.limit)
  | subscribe (packetId : Fin pb.limit) (params : List TopicSubopts)
  | suback (packetId : Fin pb.limit) (params : List UInt8)
  | unsubscribe (packetId : Fin pb.limit) (params : List TopicSharename)
  | unsuback (packetId : Fin pb.limit)
  | pingreq
  | pingresp
  | disconnect

variable {pb : PacketIdBytes}

/-- The packet that the call builds, or what it throws. -/
def Call.build : Call pb → Except Exception (PacketVariant pb)
  | connect cleanSession keepAliveSec clientId w userName password =>
    .v311Connect <$> connectPacket cleanSession keepAliveSec clientId w userName password
  | connack sessionPresent returnCode => .ok (.v311Connack (connackPacket sessionPresent returnCode))
  | publish packetId topicName payloads pubopts =>
    .v311Publish <$> publishPacket pb packetId topicName payloads pubopts
  | puback packetId => .ok (.v311Puback (pubackPacket pb packetId))
  | pubrec packetId => .ok (.v311Pubrec (pubrecPacket pb packetId))
  | pubrel packetId => .ok (.v311Pubrel (pubrelPacket pb packetId))
  | pubcomp packetId => .ok (.v311Pubcomp (pubcompPacket pb packetId))
  | subscribe packetId params => .v311Subscribe <$> subscribePacket pb packetId params
  | suback packetId params => .v311Suback <$> subackPacket pb packetId params
  | unsubscribe packetId params => .v311Unsubscribe <$> unsubscribePacket pb packetId params
  | unsuback packetId => .ok (.v311Unsuback (unsubackPacket pb packetId))
  | pingreq => .ok (.v311Pingreq (TwoBytePacket.make .pingreq))
  | pingresp => .ok (.v311Pingresp (TwoBytePacket.make .pingresp))
  | disconnect => .ok (.v311Disconnect (TwoBytePacket.make .disconnect))

end V311

namespace PacketVariant

variable {pb : PacketIdBytes}

/-- The remaining length of the packet. -/
def remainingLength : PacketVariant pb → Nat
  | v311Connect p => p.remainingLength
  | v311Connack p => p.all.length - 2
  | v311Publish p => p.remainingLength
  | v311Puback p | v311Pubrec p | v311Pubrel p | v311Pubcomp p | v311Unsuback p => p.all.length - 2
  | v311Subscribe p => p.remainingLength
  | v311Suback p => p.remainingLength
  | v311Unsubscribe p => p.remainingLength
  | v311Pingreq p | v311Pingresp p | v311Disconnect p | v5Pingreq p | v5Pingresp p =>
    p.all.length - 2
  | v5Connect p => p.remainingLength
  | v5Connack p => p.remainingLength
  | v5Publish p => p.remainingLength
  | v5Puback p | v5Pubrec p | v5Pubrel p | v5Pubcomp p => p.remainingLength
  | v5Subscribe p => p.remainingLength
  | v5Suback p | v5Unsuback p => p.remainingLength
  | v5Unsubscribe p => p.remainingLength
  | v5Disconnect p | v5Auth p => p.remainingLength

/-- SUBSCRIBE, SUBACK, UNSUBSCRIBE and the v5.0 UNSUBACK have at least one entry. -/
def HasEntries : PacketVariant pb → Prop
  | v311Subscribe p => p.entries ≠ []
  | v311Suback p => p.entries ≠ []
  | v311Unsubscribe p => p.entries ≠ []
  | v5Subscribe p => p.entries ≠ []
  | v5Suback p | v5Unsuback p => p.entries ≠ []
  | v5Unsubscribe p => p.entries ≠ []
  | _ => True

/-- The number of bytes that the constructor wrote at `packet_id_.data()`. -/
def packetIdBytesWritten : PacketVariant pb → Nat
  | v311Publish p => p.packetIdBuf.length
  | v311Subscribe p => p.packetIdBuf.length
  | v311Suback p => p.packetIdBuf.length
  | v311Unsubscribe p => p.packetIdBuf.length
  | v5Publish p => p.packetIdBuf.length
  | v5Puback p | v5Pubrec p | v5Pubrel p | v5Pubcomp p => p.packetIdBuf.length
  | v5Subscribe p => p.packetIdBuf.length
  | v5Suback p | v5Unsuback p => p.packetIdBuf.length
  | v5Unsubscribe p => p.packetIdBuf.length
  | _ => 0

/-- The bytes of the packet are accepted and give a packet of the same class that
    is equal in every accessor. -/
def RoundTrips (ver : ProtocolVersion) (v : PacketVariant pb) : Prop :=
  ∃ q rest, (bufferToPacketVariant pb ver).run v.bytes = .ok (q, rest) ∧ q.view = v.view

/-- A round trip is one through the decoder of the packet's own type. -/
theorem RoundTrips.run_decoder {ver : ProtocolVersion} {v : PacketVariant pb}
    {decode : ControlPacketType → Decoder (PacketVariant pb)} (h : v.RoundTrips ver)
    (hdispatch : ∀ b rest cpt, rest ≠ [] → getControlPacketType b = some cpt →
      (bufferToPacketVariant pb ver).run (b :: rest) = (decode cpt).run (b :: rest))
    (hdecode : ∀ cpt buf q mid, (decode cpt).run buf = .ok (q, mid) → q.type = cpt) :
    ∃ b rest q mid, v.bytes = b :: rest ∧ getControlPacketType b = some v.type ∧
      (decode v.type).run v.bytes = .ok (q, mid) ∧ q.view = v.view := by
  obtain ⟨q, mid, hrun, hview⟩ := h
  have htype : q.type = v.type := by rw [← q.view_type, hview, v.view_type]
  -- the first byte tells the type, and the dispatch goes by it
  cases hbytes : v.bytes with
  | nil =>
    rw [hbytes] at hrun
    exact nomatch hrun
  | cons b rest =>
    rw [hbytes] at hrun
    have hrest : rest ≠ [] := by
      rintro rfl
      exact nomatch hrun
    cases hb : getControlPacketType b with
    | none =>
      rw [run_bufferToPacketVariant _ _ _ hrest, hb] at hrun
      exact nomatch hrun
    | some cpt =>
      rw [hdispatch b rest cpt hrest hb] at hrun
      obtain rfl : cpt = v.type := (hdecode cpt _ q mid hrun).symm.trans htype
      exact ⟨b, rest, q, mid, rfl, hb, hrun, hview⟩

end PacketVariant

namespace V311

variable {pb : PacketIdBytes}

/-- The calls whose packet is decoded to itself and for which the constructor stays
    inside `packet_id_`: PUBLISH options must not reach into the packet type, a QoS 0
    PUBLISH needs four-byte packet identifiers, the will must not have QoS 3, and
    return codes must be enumerators. -/
def Call.RoundTrips : Call pb → Prop
  | connect _ _ _ (some w) _ _ => Pub.getQos w.pubopts ≠ 3
  | connack _ returnCode => returnCode ≤ 5
  | publish _ _ _ pubopts =>
    pubopts &&& 0b11000000 = 0 ∧ (Pub.getQos pubopts = 0 → pb = .four)
  | suback _ params => ∀ code ∈ params, code ∈ SubackPacket.returnCodes
  | _ => True

/-! ### CONNECT -/

/-- The will is read back. -/
theorem run_readWill {flags : UInt8} {cleanSession : Bool} {w : Option Will}
    {userName password : Option Buffer} {tl t ml m : Buffer}
    (hspec : ConnectFlags.Spec flags cleanSession w userName password)
    (h : encodeWill w = .ok ((tl, t), (ml, m)))
    (hqos : ∀ w', w = some w' → Pub.getQos w'.pubopts ≠ 3) (rest : List UInt8) :
    (ConnectPacket.readWill flags).run
        ((if ConnectFlags.hasWillFlag flags then [tl, t, ml, m] else []).flatten ++ rest) =
      .ok (((tl, t), (ml, m)), rest) := by
  rw [encodeWill_eq_ok] at h
  -- without a Will nothing is read, with one its topic and message
  cases w with
  | none =>
    obtain ⟨rfl, rfl, rfl, rfl⟩ := h
    simp only [ConnectPacket.readWill, hspec.will, Option.isSome_none, Bool.false_eq_true, if_false,
      List.flatten_nil, List.nil_append]
    rw [run_bind_of_ok (run_checkNoWill (hspec.noWillRetain rfl) hspec.willQos _), run_pure]
  | some w =>
    obtain ⟨hutf8, htopic, hmessage, rfl, rfl, rfl, rfl⟩ := h
    have hq : ConnectFlags.willQos flags ≠ 3 := by
      rw [hspec.willQos]
      exact hqos w rfl
    simp only [ConnectPacket.readWill, hspec.will, Option.isSome_some, if_true, List.flatten_cons,
      List.flatten_nil, List.append_nil, List.append_assoc]
    rw [run_bind_of_ok (run_checkWillQos hq _),
      run_bind_of_ok (run_readLengthPrefixed_append htopic hutf8 _),
      run_bind_of_ok (run_readLengthPrefixed_append hmessage rfl _), run_pure]

/-- The length of the will -/
theorem length_will {flags : UInt8} {w : Option Will} {tl t ml m : Buffer}
    (hflag : ConnectFlags.hasWillFlag flags = w.isSome)
    (h : encodeWill w = .ok ((tl, t), (ml, m))) :
    (if ConnectFlags.hasWillFlag flags then [tl, t, ml, m] else []).flatten.length = willSize w := by
  rw [encodeWill_eq_ok] at h
  rw [hflag]
  cases w with
  | none => rfl
  | some w =>
    obtain ⟨-, -, -, rfl, rfl, rfl, rfl⟩ := h
    simp [willSize]
    omega

/-- A CONNECT is read back. -/
theorem decode_connect {cleanSession : Bool} {keepAliveSec : UInt16} {clientId : Buffer}
    {w : Option Will} {userName password : Option Buffer} {p : ConnectPacket}
    (h : connectPacket cleanSession keepAliveSec clientId w userName password = .ok p)
    (hlen : p.remainingLength ≤ 0xfffffff)
    (hqos : ∀ w', w = some w' → Pub.getQos w'.pubopts ≠ 3) :
    ConnectPacket.decode.run p.constBufferSequence.flatten = .ok (p, []) := by
  simp only [connectPacket, Except.bind_eq_ok, throwIf_eq_ok, numericCast16_eq_ok,
    numericCast32_eq_ok, Except.pure_eq_ok] at h
  obtain ⟨_, ⟨hclient, rfl⟩, _, hutf8, ⟨unl, un⟩, hun, ⟨pwl, pw⟩, hpw, ⟨⟨tl, t⟩, ml, m⟩, hwill,
    _, ⟨-, rfl⟩, rfl⟩ := h
  have hspec := ConnectFlags.make_spec cleanSession w userName password
  have hutf8' : utf8StringCheck clientId = true := by simpa using hutf8
  -- the name and the level are a fixed part of seven bytes
  have hnameLength : protocolNameAndLevel.length = 7 := rfl
  simp only at hlen
  simp only [ConnectPacket.constBufferSequence, List.flatten_append, List.flatten_cons,
    List.append_assoc, List.cons_append, List.nil_append]
  rw [ConnectPacket.decode, run_bind_of_ok (run_readFixedHeaderWithCheck rfl _ _),
    run_bind_of_ok (run_readRemainingLength_append hlen _ _)]
  simp only
  rw [run_bind_of_ok (run_checkRemainingLength ?hsize _),
    run_bind_of_ok (run_readBytes_append hnameLength _),
    run_bind_of_ok (run_failIf_of_not (by simp) _ _),
    run_bind_of_ok (run_readConnectFlags hspec.reserved _),
    run_bind_of_ok (run_readBytes_append (length_endianStore _ _) _),
    run_bind_of_ok (run_readLengthPrefixed_append hclient hutf8' _),
    run_bind_of_ok (run_readWill hspec hwill hqos _),
    run_bind_of_ok (run_readUserName hspec.userName hun _),
    run_bind_of_ok (run_readPassword hspec.password hpw), run_pure]
  case hsize =>
    simp only [List.length_append, List.length_cons, length_endianStore, hnameLength,
      length_will hspec.will hwill, length_optional hspec.userName hun,
      length_optional hspec.password hpw]
    omega

/-- The will of a CONNECT that is accepted does not have QoS 3. -/
theorem decode_connect_ok {buf rest : List UInt8} {p : ConnectPacket}
    (h : ConnectPacket.decode.run buf = .ok (p, rest))
    (hwill : ConnectFlags.hasWillFlag p.connectFlags = true) :
    ConnectFlags.willQos p.connectFlags ≠ 3 := by
  rw [ConnectPacket.decode] at h
  obtain ⟨_, _, -, h⟩ := run_bind_ok h
  obtain ⟨_, _, -, h⟩ := run_bind_ok h
  obtain ⟨_, _, -, h⟩ := run_bind_ok h
  obtain ⟨_, _, -, h⟩ := run_bind_ok h
  obtain ⟨_, _, -, h⟩ := run_bind_ok h
  obtain ⟨flags, _, -, h⟩ := run_bind_ok h
  obtain ⟨_, _, -, h⟩ := run_bind_ok h
  obtain ⟨_, _, -, h⟩ := run_bind_ok h
  obtain ⟨_, _, hread, h⟩ := run_bind_ok h
  obtain ⟨_, _, -, h⟩ := run_bind_ok h
  obtain ⟨_, _, -, h⟩ := run_bind_ok h
  cases h
  simp only at hwill
  rw [ConnectPacket.readWill, if_pos hwill] at hread
  -- the check of the QoS stands at the Will
  obtain ⟨_, _, hcheck, -⟩ := run_bind_ok hread
  exact willQos_ne_of_check hcheck

/-- The flags of a CONNECT are those of its arguments. -/
theorem connect_flags {cleanSession : Bool} {keepAliveSec : UInt16} {clientId : Buffer}
    {w : Option Will} {userName password : Option Buffer} {p : ConnectPacket}
    (h : connectPacket cleanSession keepAliveSec clientId w userName password = .ok p) :
    p.connectFlags = ConnectFlags.make cleanSession w userName password := by
  simp only [connectPacket, Except.bind_eq_ok, Except.pure_eq_ok] at h
  obtain ⟨_, -, _, -, ⟨unl, un⟩, -, ⟨pwl, pw⟩, -, ⟨⟨tl, t⟩, ml, m⟩, -, _, -, rfl⟩ := h
  rfl

/-- `get_will()` tells whether there is a will and which QoS it has. -/
theorem willQos_of_getWill {p q : ConnectPacket} (h : q.getWill = p.getWill)
    (hflag : ConnectFlags.hasWillFlag p.connectFlags = true) :
    ConnectFlags.hasWillFlag q.connectFlags = true ∧
      ConnectFlags.willQos q.connectFlags = ConnectFlags.willQos p.connectFlags := by
  rw [ConnectPacket.getWill, ConnectPacket.getWill, if_pos hflag] at h
  split at h
  · next hq =>
    have hopts : ConnectFlags.willOpts q.connectFlags = ConnectFlags.willOpts p.connectFlags :=
      congrArg Will.pubopts (Option.some.inj h)
    refine ⟨hq, ?_⟩
    rw [← ConnectFlags.getQos_willOpts, hopts, ConnectFlags.getQos_willOpts]
  · exact nomatch h

/-! ### CONNACK and the two-byte packets -/

/-- A CONNACK is read back, and its return code is left over. -/
theorem decode_connack {sessionPresent : Bool} {returnCode : UInt8} (h : returnCode ≤ 5) :
    ConnackPacket.decode.run (connackPacket sessionPresent returnCode).constBufferSequence.flatten =
      .ok (connackPacket sessionPresent returnCode, [returnCode]) := by
  have hflags : ¬ ((if sessionPresent then 1 else 0 : UInt8) &&& 0b11111110 ≠ 0) := by
    cases sessionPresent <;> decide
  have hcode : ¬ (5 < returnCode) := UInt8.not_lt.mpr h
  simp only [connackPacket, ConnackPacket.constBufferSequence, List.flatten_cons, List.flatten_nil,
    List.append_nil]
  rw [ConnackPacket.decode, run_bind_of_ok (run_readFixedHeaderWithCheck rfl _ _),
    run_bind_of_ok (run_readByte_cons _ _ _), run_bind_of_ok (run_failIf_of_not (by decide) _ _),
    run_bind_of_ok (run_remaining _), run_bind_of_ok (run_failIf_of_not (by simp) _ _),
    run_bind_of_ok (run_front_cons _ _), run_bind_of_ok (run_removePrefix_one_cons _ _),
    run_bind_of_ok (run_failIf_of_not hflags _ _), run_bind_of_ok (run_front_cons _ _),
    run_bind_of_ok (run_failIf_of_not hcode _ _), run_pure]

/-- The return code of a CONNACK that is accepted is an enumerator. -/
theorem decode_connack_ok {buf rest : List UInt8} {p : ConnackPacket}
    (h : ConnackPacket.decode.run buf = .ok (p, rest)) : p.code ≤ 5 := by
  rw [ConnackPacket.decode] at h
  obtain ⟨_, _, -, h⟩ := run_bind_ok h
  obtain ⟨_, _, -, h⟩ := run_bind_ok h
  obtain ⟨_, _, -, h⟩ := run_bind_ok h
  obtain ⟨_, _, -, h⟩ := run_bind_ok h
  obtain ⟨_, _, -, h⟩ := run_bind_ok h
  obtain ⟨_, _, -, h⟩ := run_bind_ok h
  obtain ⟨_, _, -, h⟩ := run_bind_ok h
  obtain ⟨_, _, -, h⟩ := run_bind_ok h
  obtain ⟨returnCode, _, -, h⟩ := run_bind_ok h
  obtain ⟨_, _, hcheck, h⟩ := run_bind_ok h
  cases h
  exact UInt8.not_lt.mp (run_failIf_ok hcheck).1

/-- A response to a PUBLISH or an UNSUBACK is read back. -/
theorem decode_ack (type : ControlPacketType) (flags : UInt8)
    (hheader : getControlPacketTypeWithCheck (makeFixedHeader type flags) = some type)
    (packetId : Nat) :
    (AckPacket.decode type pb).run (ackPacket type flags pb packetId).constBufferSequence.flatten =
      .ok (ackPacket type flags pb packetId, endianStore pb.bytes packetId) := by
  have hlength : (UInt8.ofNat pb.bytes).toNat = pb.bytes := by cases pb <;> rfl
  simp only [ackPacket, AckPacket.constBufferSequence, List.flatten_cons, List.flatten_nil,
    List.append_nil, List.cons_append, List.nil_append]
  rw [AckPacket.decode, run_bind_of_ok (run_readFixedHeaderWithCheck hheader _ _),
    run_bind_of_ok (run_readByte_cons _ _ _),
    run_bind_of_ok (run_failIf_of_not (by simp [hlength]) _ _), run_bind_of_ok (run_remaining _),
    run_bind_of_ok (run_failIf_of_not (by simp) _ _), run_pure]
  rfl

/-! ### PUBLISH -/

/-- The QoS decides what is stored as the packet identifier. -/
theorem storePublishPacketId_eq_ok {packetId : Nat} {pubopts : UInt8} {bs : Buffer} :
    storePublishPacketId pb packetId pubopts = .ok bs ↔
      (Pub.getQos pubopts = 0 ∧ packetId = 0 ∧ bs = endianStore sizeofInt 0) ∨
      ((Pub.getQos pubopts = 1 ∨ Pub.getQos pubopts = 2) ∧ packetId ≠ 0 ∧
        bs = endianStore pb.bytes packetId) := by
  unfold storePublishPacketId
  rcases getQos_cases pubopts with h | h | h | h <;> rw [h]
  · exact throwIf_pure_eq_ok.trans (by simp [eq_comm])
  · exact throwIf_pure_eq_ok.trans (by simp [eq_comm])
  · exact throwIf_pure_eq_ok.trans (by simp [eq_comm])
  · exact iff_of_false (fun hok => nomatch hok) (by simp)

/-- A PUBLISH as it is decoded: the payload is one buffer, or none if it is empty. -/
def PublishPacket.decoded (p : PublishPacket pb) : PublishPacket pb :=
  { p with
    packetIdBuf := endianStore pb.bytes p.packetId
    payloads := payloadsOf p.payload }

/-- A decoded PUBLISH shows what the original does. -/
theorem view_decoded (p : PublishPacket pb) :
    (PacketVariant.v311Publish p.decoded).view = (PacketVariant.v311Publish p).view := by
  have hid : p.decoded.packetId = p.packetId := endianLoad_endianStore (endianLoad_lt _ _)
  have hpayload : p.decoded.payload = p.payload := flatten_payloadsOf _
  simp only [PacketVariant.view, PacketVariant.packetId, hid, hpayload]
  rfl

/-- A PUBLISH is read back. -/
theorem decode_publish {packetId : Fin pb.limit} {topicName : Buffer} {payloads : List Buffer}
    {pubopts : UInt8} {p : PublishPacket pb}
    (h : publishPacket pb packetId topicName payloads pubopts = .ok p)
    (hlen : p.remainingLength ≤ 0xfffffff) (hopts : pubopts &&& 0b11000000 = 0) :
    (PublishPacket.decode pb).run p.constBufferSequence.flatten = .ok (p.decoded, []) := by
  simp only [publishPacket, Except.bind_eq_ok, throwIf_eq_ok, numericCast16_eq_ok,
    numericCast32_eq_ok, storePublishPacketId_eq_ok, Except.pure_eq_ok] at h
  obtain ⟨_, -, _, ⟨htopic, rfl⟩, _, hutf8, _, ⟨-, rfl⟩, idBuf, hid, rfl⟩ := h
  have hutf8' : utf8StringCheck topicName = true := by simpa using hutf8
  have hsum : (payloads.map List.length).sum = payloads.flatten.length := by
    rw [List.length_flatten]
  simp only at hlen
  rcases hid with ⟨hqos, hzero, rfl⟩ | ⟨hqos, hne, rfl⟩
  · -- QoS 0: there is no packet identifier
    have hload : endianLoad pb.bytes (endianStore sizeofInt 0) = 0 := by cases pb <;> rfl
    have hhead : Pub.getQos (makeFixedHeader .publish 0b0000 ||| pubopts) = 0 := by
      rw [getQos_publish_header, hqos]
    have hidSize : publishPacketIdSize pb pubopts = 0 := by
      simp [publishPacketIdSize, hqos, Qos.atLeastOnce, Qos.exactlyOnce]
    simp only [PublishPacket.constBufferSequence, PublishPacket.packetId, hload, ne_eq,
      not_true_eq_false, if_false, List.flatten_cons, List.append_nil, List.cons_append,
      List.nil_append]
    rw [PublishPacket.decode, run_bind_of_ok (run_readFixedHeaderWithCheck
      (publish_header_check hopts) _ _), run_bind_of_ok (run_readRemainingLength_append hlen _ _)]
    simp only
    rw [run_bind_of_ok (run_checkRemainingLength ?hsize _),
      run_bind_of_ok (run_readLengthPrefixed_append htopic hutf8' _),
      run_bind_of_ok (run_readPublishPacketId_qos0 hhead _),
      run_bind_of_ok (run_readPayloads _), run_pure]
    case hsize =>
      simp only [List.length_append, length_endianStore, hidSize, hsum]
      omega
    simp only [PublishPacket.decoded, PublishPacket.packetId, PublishPacket.payload, hload]
  -- QoS 1 and 2: the identifier comes back
  · have hload : endianLoad pb.bytes (endianStore pb.bytes packetId) = packetId.val :=
      endianLoad_endianStore packetId.isLt
    have hhead : Pub.getQos (makeFixedHeader .publish 0b0000 ||| pubopts) = 1 ∨
        Pub.getQos (makeFixedHeader .publish 0b0000 ||| pubopts) = 2 := by
      rwa [getQos_publish_header]
    have hidSize : publishPacketIdSize pb pubopts = pb.bytes := by
      rcases hqos with hq | hq <;> simp [publishPacketIdSize, hq, Qos.atLeastOnce, Qos.exactlyOnce]
    have htake : (endianStore pb.bytes packetId.val).take pb.bytes =
        endianStore pb.bytes packetId.val := List.take_of_length_le (by simp)
    simp only [PublishPacket.constBufferSequence, PublishPacket.packetId, hload, ne_eq, hne,
      not_false_eq_true, if_true, htake, List.flatten_cons, List.cons_append, List.nil_append]
    rw [PublishPacket.decode, run_bind_of_ok (run_readFixedHeaderWithCheck
      (publish_header_check hopts) _ _), run_bind_of_ok (run_readRemainingLength_append hlen _ _)]
    simp only
    rw [run_bind_of_ok (run_checkRemainingLength ?hsize _),
      run_bind_of_ok (run_readLengthPrefixed_append htopic hutf8' _),
      run_bind_of_ok (run_readPublishPacketId hhead (length_endianStore _ _) _),
      run_bind_of_ok (run_readPayloads _), run_pure]
    case hsize =>
      simp only [List.length_append, length_endianStore, hidSize, hsum]
      omega
    simp only [PublishPacket.decoded, PublishPacket.packetId, PublishPacket.payload, hload]

/-! ### SUBSCRIBE, SUBACK and UNSUBSCRIBE -/

/-- A topic filter with its QoS is read back. -/
theorem run_readEntry_subscribe {e : TopicSubopts} (hlen : e.allTopic.length < 2 ^ 16)
    (hutf8 : utf8StringCheck e.allTopic = true) (hopts : SubscribePacket.optsAccepted e.opts = true)
    (rest : List UInt8) :
    SubscribePacket.readEntry.run
        (endianStore 2 e.allTopic.length ++ (e.allTopic ++ ([[e.opts]].flatten ++ rest))) =
      .ok ((endianStore 2 e.allTopic.length, e), rest) := by
  rw [SubscribePacket.readEntry, run_bind_of_ok (run_readLengthPrefixed_append hlen hutf8 _)]
  simp only [List.flatten_cons, List.flatten_nil, List.append_nil, List.cons_append,
    List.nil_append]
  rw [run_bind_of_ok (run_remaining _), run_bind_of_ok (run_failIf_of_not (by simp) _ _),
    run_bind_of_ok (run_front_cons _ _), run_bind_of_ok (run_failIf_of_not (by simp [hopts]) _ _),
    run_bind_of_ok (run_removePrefix_one_cons _ _), run_pure]
  rfl

/-- A SUBSCRIBE is read back. -/
theorem decode_subscribe {packetId : Fin pb.limit} {params : List TopicSubopts}
    {p : SubscribePacket pb} (h : subscribePacket pb packetId params = .ok p)
    (hlen : p.remainingLength ≤ 0xfffffff) :
    (SubscribePacket.decode pb).run p.constBufferSequence.flatten = .ok (p, []) := by
  simp only [subscribePacket, Except.bind_eq_ok, throwIf_eq_ok, checkTopicSizes_eq_ok,
    forEach_eq_ok, numericCast32_eq_ok, Except.pure_eq_ok] at h
  obtain ⟨_, hsizes, _, hne, _, hentries, _, ⟨-, rfl⟩, rfl⟩ := h
  -- the entries are read back from what is left of the packet
  have hread := run_many_zip_entries TopicSubopts.allTopic (fun e => [[e.opts]])
    SubscribePacket.readEntry params fun e he rest => by
      obtain ⟨_, hopts, hutf8⟩ := hentries e he
      exact run_readEntry_subscribe (hsizes _ (List.mem_map_of_mem he)) (by simpa using hutf8)
        (by simpa using hopts) rest
  have hbytes := length_zip_entries TopicSubopts.allTopic (fun e => [[e.opts]]) 1 (fun _ => rfl)
    params
  simp only at hlen
  simp only [SubscribePacket.constBufferSequence, List.flatten_cons, List.cons_append,
    List.nil_append]
  rw [SubscribePacket.decode, run_bind_of_ok (run_readFixedHeaderWithCheck rfl _ _),
    run_bind_of_ok (run_readRemainingLength_append hlen _ _)]
  simp only
  rw [run_bind_of_ok (run_checkRemainingLength ?hsize _),
    run_bind_of_ok (run_readBytes_append (length_endianStore _ _) _),
    run_bind_of_ok (run_checkEntries
      (zip_entries_ne_nil TopicSubopts.allTopic (fun e => [[e.opts]]) hne)),
    run_bind_of_ok hread, run_pure]
  case hsize => rw [List.length_append, length_endianStore, hbytes]
  simp [topicLengthBufs, Function.comp_def]

/-- A SUBACK is read back, if its return codes are enumerated. -/
theorem decode_suback {packetId : Fin pb.limit} {params : List UInt8} {p : SubackPacket pb}
    (h : subackPacket pb packetId params = .ok p) (hlen : p.remainingLength ≤ 0xfffffff)
    (hne : params ≠ []) (hcodes : ∀ code ∈ params, code ∈ SubackPacket.returnCodes) :
    (SubackPacket.decode pb).run p.constBufferSequence.flatten = .ok (p, []) := by
  simp only [subackPacket, Except.bind_eq_ok, numericCast32_eq_ok, Except.pure_eq_ok] at h
  obtain ⟨_, ⟨-, rfl⟩, rfl⟩ := h
  simp only at hlen
  simp only [SubackPacket.constBufferSequence, List.flatten_cons, List.flatten_nil,
    List.append_nil, List.cons_append, List.nil_append]
  rw [SubackPacket.decode, run_bind_of_ok (run_readFixedHeaderWithCheck rfl _ _),
    run_bind_of_ok (run_readRemainingLength_append hlen _ _)]
  simp only
  rw [run_bind_of_ok (run_checkRemainingLength (by simp) _),
    run_bind_of_ok (run_readBytes_append (length_endianStore _ _) _),
    run_bind_of_ok (run_checkEntries hne), run_bind_of_ok (run_many_readCode hcodes), run_pure]

/-- The entries of a SUBACK are its arguments. -/
theorem suback_entries {packetId : Nat} {params : List UInt8} {p : SubackPacket pb}
    (h : subackPacket pb packetId params = .ok p) : p.entries = params := by
  simp only [subackPacket, Except.bind_eq_ok, Except.pure_eq_ok] at h
  obtain ⟨_, -, rfl⟩ := h
  rfl

/-- The return codes of a SUBACK that is accepted are enumerators. -/
theorem decode_suback_ok {buf rest : List UInt8} {p : SubackPacket pb}
    (h : (SubackPacket.decode pb).run buf = .ok (p, rest)) :
    ∀ code ∈ p.entries, code ∈ SubackPacket.returnCodes := by
  rw [SubackPacket.decode] at h
  obtain ⟨_, _, -, h⟩ := run_bind_ok h
  obtain ⟨_, _, -, h⟩ := run_bind_ok h
  obtain ⟨_, _, -, h⟩ := run_bind_ok h
  obtain ⟨_, _, -, h⟩ := run_bind_ok h
  obtain ⟨_, _, -, h⟩ := run_bind_ok h
  obtain ⟨_, _, hmany, h⟩ := run_bind_ok h
  cases h
  exact run_many_forall (fun _ _ _ => run_readCode_ok) hmany

/-- A topic filter is read back. -/
theorem run_readEntry_unsubscribe {e : TopicSharename} (hlen : e.allTopic.length < 2 ^ 16)
    (hutf8 : utf8StringCheck e.allTopic = true) (rest : List UInt8) :
    UnsubscribePacket.readEntry.run
        (endianStore 2 e.allTopic.length ++ (e.allTopic ++ (([] : List Buffer).flatten ++ rest))) =
      .ok ((endianStore 2 e.allTopic.length, e), rest) := by
  rw [UnsubscribePacket.readEntry, run_bind_of_ok (run_readLengthPrefixed_append hlen hutf8 _)]
  rfl

/-- The entries of an UNSUBSCRIBE are its arguments. -/
theorem unsubscribe_entries {packetId : Nat} {params : List TopicSharename}
    {p : UnsubscribePacket pb} (h : unsubscribePacket pb packetId params = .ok p) :
    p.entries = params := by
  simp only [unsubscribePacket, Except.bind_eq_ok, Except.pure_eq_ok] at h
  obtain ⟨_, -, _, -, _, -, rfl⟩ := h
  rfl

/-- An UNSUBSCRIBE is read back, if it has an entry. -/
theorem decode_unsubscribe {packetId : Fin pb.limit} {params : List TopicSharename}
    {p : UnsubscribePacket pb} (h : unsubscribePacket pb packetId params = .ok p)
    (hlen : p.remainingLength ≤ 0xfffffff) (hne : params ≠ []) :
    (UnsubscribePacket.decode pb).run p.constBufferSequence.flatten = .ok (p, []) := by
  simp only [unsubscribePacket, Except.bind_eq_ok, throwIf_eq_ok, checkTopicSizes_eq_ok,
    forEach_eq_ok, numericCast32_eq_ok, Except.pure_eq_ok] at h
  obtain ⟨_, hsizes, _, hentries, _, ⟨-, rfl⟩, rfl⟩ := h
  -- the entries are read back from what is left of the packet
  have hread := run_many_zip_entries TopicSharename.allTopic (fun _ => [])
    UnsubscribePacket.readEntry params fun e he rest =>
      run_readEntry_unsubscribe (hsizes _ (List.mem_map_of_mem he))
        (by simpa using hentries e he) rest
  have hbytes := length_zip_entries TopicSharename.allTopic (fun _ => []) 0 (fun _ => rfl) params
  simp only at hlen
  simp only [UnsubscribePacket.constBufferSequence, List.flatten_cons, List.cons_append,
    List.nil_append]
  rw [UnsubscribePacket.decode, run_bind_of_ok (run_readFixedHeaderWithCheck rfl _ _),
    run_bind_of_ok (run_readRemainingLength_append hlen _ _)]
  simp only
  rw [run_bind_of_ok (run_checkRemainingLength ?hsize _),
    run_bind_of_ok (run_readBytes_append (length_endianStore _ _) _),
    run_bind_of_ok (run_checkEntries
      (zip_entries_ne_nil TopicSharename.allTopic (fun _ => []) hne)),
    run_bind_of_ok hread, run_pure]
  case hsize => rw [List.length_append, length_endianStore, hbytes]; rfl
  simp [topicLengthBufs, Function.comp_def]

/-! ### All packets -/

/-- What the v3.1.1 decoder of a control packet type accepts begins with a header of
    that type, and is a packet of that type. -/
theorem decodeV311_ok {cpt : ControlPacketType} {buf mid : List UInt8} {q : PacketVariant pb}
    (h : (decodeV311 pb cpt).run buf = .ok (q, mid)) :
    q.type = cpt ∧ ∃ b rest, buf = b :: rest ∧ rest ≠ [] ∧
      getControlPacketTypeWithCheck b = some cpt := by
  -- every decoder reads the fixed header first
  cases cpt with
  | auth => exact nomatch h
  | connack | puback | pubrec | pubrel | pubcomp | unsuback =>
    obtain ⟨p, hp, rfl⟩ := run_map_ok h
    obtain ⟨b, rest, hb, htail⟩ := run_bind_ok hp
    obtain ⟨rfl, hcheck⟩ := run_readFixedHeaderWithCheck_ok hb
    obtain ⟨n, rest', hn, -⟩ := run_bind_ok htail
    exact ⟨rfl, b, rest, rfl, by rw [run_readByte_ok hn]; simp, hcheck⟩
  | pingreq | pingresp | disconnect =>
    obtain ⟨p, hp, rfl⟩ := run_map_ok h
    obtain ⟨b, rest, hb, htail⟩ := run_bind_ok hp
    obtain ⟨rfl, hcheck⟩ := run_readFixedHeaderWithCheck_ok hb
    obtain ⟨buf, rest', hrem, hcheckLen⟩ := run_bind_ok htail
    cases hrem
    obtain ⟨_, _, hne, -⟩ := run_bind_ok hcheckLen
    exact ⟨rfl, b, _, rfl, (run_failIf_ok hne).1, hcheck⟩
  | connect | publish | subscribe | suback | unsubscribe =>
    obtain ⟨p, hp, rfl⟩ := run_map_ok h
    obtain ⟨b, rest, hb, htail⟩ := run_bind_ok hp
    obtain ⟨rfl, hcheck⟩ := run_readFixedHeaderWithCheck_ok hb
    obtain ⟨rl, rest', hrl, -⟩ := run_bind_ok htail
    exact ⟨rfl, b, rest, rfl, ne_nil_of_run_readRemainingLength hrl, hcheck⟩

/-- A packet that round trips is decoded to one that shows the same. -/
theorem decodeV311_of_roundTrips {v : PacketVariant pb} (h : v.RoundTrips .v311) :
    ∃ b rest q mid, v.bytes = b :: rest ∧ getControlPacketType b = some v.type ∧
      (decodeV311 pb v.type).run v.bytes = .ok (q, mid) ∧ q.view = v.view := by
  apply h.run_decoder
  · intro b rest cpt hrest hb
    rw [run_bufferToPacketVariant _ _ _ hrest, hb]
  · exact fun cpt buf q mid hrun => (decodeV311_ok hrun).1

/-- A packet whose bytes decode to one that shows the same round trips. -/
theorem roundTrips_of_run {v q : PacketVariant pb} {mid : List UInt8}
    (hrun : (decodeV311 pb v.type).run v.bytes = .ok (q, mid)) (hview : q.view = v.view) :
    v.RoundTrips .v311 := by
  obtain ⟨-, b, rest, hbytes, hrest, hcheck⟩ := decodeV311_ok hrun
  refine ⟨q, mid, ?_, hview⟩
  rw [hbytes, run_bufferToPacketVariant _ _ _ hrest, getControlPacketType_of_check hcheck, ← hbytes]
  exact hrun

/-- Every call that meets the condition builds a packet that comes back. -/
theorem roundTrips_of_call {c : Call pb} {v : PacketVariant pb} (h : c.build = .ok v)
    (hlen : v.remainingLength ≤ 268435455) (hentries : v.HasEntries) (hc : c.RoundTrips) :
    v.RoundTrips .v311 := by
  -- one decoder for each constructor
  cases c with
  | connect cleanSession keepAliveSec clientId w userName password =>
    obtain ⟨p, hp, rfl⟩ := Except.map_eq_ok.mp h
    have hrun := decode_connect hp hlen (by rintro w' rfl; exact hc)
    exact roundTrips_of_run (run_map_of_ok hrun) rfl
  | connack sessionPresent returnCode =>
    cases h
    exact roundTrips_of_run (run_map_of_ok (decode_connack hc)) rfl
  | publish packetId topicName payloads pubopts =>
    obtain ⟨p, hp, rfl⟩ := Except.map_eq_ok.mp h
    exact roundTrips_of_run (run_map_of_ok (decode_publish hp hlen hc.1)) (view_decoded p)
  | puback packetId =>
    cases h
    exact roundTrips_of_run (run_map_of_ok (decode_ack .puback 0b0000 rfl packetId)) rfl
  | pubrec packetId =>
    cases h
    exact roundTrips_of_run (run_map_of_ok (decode_ack .pubrec 0b0000 rfl packetId)) rfl
  | pubrel packetId =>
    cases h
    exact roundTrips_of_run (run_map_of_ok (decode_ack .pubrel 0b0010 rfl packetId)) rfl
  | pubcomp packetId =>
    cases h
    exact roundTrips_of_run (run_map_of_ok (decode_ack .pubcomp 0b0000 rfl packetId)) rfl
  | subscribe packetId params =>
    obtain ⟨p, hp, rfl⟩ := Except.map_eq_ok.mp h
    exact roundTrips_of_run (run_map_of_ok (decode_subscribe hp hlen)) rfl
  | suback packetId params =>
    obtain ⟨p, hp, rfl⟩ := Except.map_eq_ok.mp h
    have hparams := suback_entries hp
    exact roundTrips_of_run (run_map_of_ok (decode_suback hp hlen (hparams ▸ hentries) hc)) rfl
  | unsubscribe packetId params =>
    obtain ⟨p, hp, rfl⟩ := Except.map_eq_ok.mp h
    have hparams := unsubscribe_entries hp
    exact roundTrips_of_run (run_map_of_ok (decode_unsubscribe hp hlen (hparams ▸ hentries))) rfl
  | unsuback packetId =>
    cases h
    exact roundTrips_of_run (run_map_of_ok (decode_ack .unsuback 0b0000 rfl packetId)) rfl
  | pingreq => cases h; exact ⟨_, _, rfl, rfl⟩
  | pingresp => cases h; exact ⟨_, _, rfl, rfl⟩
  | disconnect => cases h; exact ⟨_, _, rfl, rfl⟩

/-- The constructor stays inside `packet_id_` when the call meets the condition. -/
theorem packetIdBytesWritten_of_call {c : Call pb} {v : PacketVariant pb} (h : c.build = .ok v)
    (hc : c.RoundTrips) : v.packetIdBytesWritten ≤ pb.bytes := by
  cases c with
  | publish packetId topicName payloads pubopts =>
    obtain ⟨p, hp, rfl⟩ := Except.map_eq_ok.mp h
    simp only [publishPacket, Except.bind_eq_ok, storePublishPacketId_eq_ok,
      Except.pure_eq_ok] at hp
    obtain ⟨_, -, _, -, _, -, _, -, idBuf, hid, rfl⟩ := hp
    -- the constructor writes no identifier for QoS 0, so only 0 comes back
    rcases hid with ⟨hqos, -, rfl⟩ | ⟨-, -, rfl⟩
    · obtain rfl := hc.2 hqos
      exact Nat.le_refl _
    · exact Nat.le_of_eq (length_endianStore _ _)
  | subscribe packetId params =>
    obtain ⟨p, hp, rfl⟩ := Except.map_eq_ok.mp h
    simp only [subscribePacket, Except.bind_eq_ok, Except.pure_eq_ok] at hp
    obtain ⟨_, -, _, -, _, -, _, -, rfl⟩ := hp
    exact Nat.le_of_eq (length_endianStore _ _)
  | suback packetId params =>
    obtain ⟨p, hp, rfl⟩ := Except.map_eq_ok.mp h
    simp only [subackPacket, Except.bind_eq_ok, Except.pure_eq_ok] at hp
    obtain ⟨_, -, rfl⟩ := hp
    exact Nat.le_of_eq (length_endianStore _ _)
  | unsubscribe packetId params =>
    obtain ⟨p, hp, rfl⟩ := Except.map_eq_ok.mp h
    simp only [unsubscribePacket, Except.bind_eq_ok, Except.pure_eq_ok] at hp
    obtain ⟨_, -, _, -, _, -, rfl⟩ := hp
    exact Nat.le_of_eq (length_endianStore _ _)
  | connect _ _ _ w _ _ =>
    obtain ⟨p, -, rfl⟩ := Except.map_eq_ok.mp h
    exact Nat.zero_le _
  | connack | puback | pubrec | pubrel | pubcomp | unsuback | pingreq | pingresp | disconnect =>
    cases h
    exact Nat.zero_le _

/-- A packet that comes back, and whose constructor stayed inside `packet_id_`, is
    one that the condition allows. -/
theorem call_of_roundTrips {c : Call pb} {v : PacketVariant pb} (h : c.build = .ok v)
    (hv : v.RoundTrips .v311) (hwritten : v.packetIdBytesWritten ≤ pb.bytes) : c.RoundTrips := by
  obtain ⟨b, rest, q, mid, hbytes, hb, hrun, hview⟩ := decodeV311_of_roundTrips hv
  cases c with
  | connect cleanSession keepAliveSec clientId w userName password =>
    cases w with
    | none => trivial
    | some w =>
      obtain ⟨p, hp, rfl⟩ := Except.map_eq_ok.mp h
      obtain ⟨p', hdecode, rfl⟩ := run_map_ok hrun
      have hflags := connect_flags hp
      have hspec := ConnectFlags.make_spec cleanSession (some w) userName password
      have hwill : p'.getWill = p.getWill := congrArg PacketView.will hview
      -- the accessor shows the QoS of the will, so both packets have the same one
      have hqos := willQos_of_getWill hwill (by rw [hflags, hspec.will]; rfl)
      have hne := decode_connect_ok hdecode hqos.1
      rw [hqos.2, hflags, hspec.willQos] at hne
      exact hne
  | connack sessionPresent returnCode =>
    cases h
    obtain ⟨p', hdecode, rfl⟩ := run_map_ok hrun
    have hcode : p'.code = returnCode := congrArg PacketView.code hview
    exact hcode ▸ decode_connack_ok hdecode
  | publish packetId topicName payloads pubopts =>
    obtain ⟨p, hp, rfl⟩ := Except.map_eq_ok.mp h
    simp only [publishPacket, Except.bind_eq_ok, storePublishPacketId_eq_ok,
      Except.pure_eq_ok] at hp
    obtain ⟨_, -, _, -, _, -, _, -, idBuf, hid, rfl⟩ := hp
    obtain ⟨rfl, -⟩ := List.cons.inj hbytes
    refine ⟨(publish_header_iff pubopts).mp hb, fun hqos => ?_⟩
    rcases hid with ⟨-, -, rfl⟩ | ⟨hqos', -, -⟩
    · cases pb with
      | two => exact absurd hwritten (show ¬ sizeofInt ≤ 2 by decide)
      | four => rfl
    · rw [hqos] at hqos'
      exact absurd hqos' (by decide)
  | suback packetId params =>
    obtain ⟨p, hp, rfl⟩ := Except.map_eq_ok.mp h
    obtain ⟨p', hdecode, rfl⟩ := run_map_ok hrun
    have hentries : p'.entries = params :=
      (congrArg PacketView.codes hview).trans (suback_entries hp)
    exact hentries ▸ decode_suback_ok hdecode
  | _ => trivial

/-- A v3.1.1 packet that a public constructor built comes back from the wire as
    itself, and its constructor stayed inside `packet_id_`, exactly for the calls
    that `Call.RoundTrips` describes. -/
theorem build_round_trip_iff (pb : PacketIdBytes) (c : Call pb) (v : PacketVariant pb)
    (h : c.build = .ok v) (hlen : v.remainingLength ≤ 268435455) (hentries : v.HasEntries) :
    (v.RoundTrips .v311 ∧ v.packetIdBytesWritten ≤ pb.bytes) ↔ c.RoundTrips :=
  ⟨fun hv => call_of_roundTrips h hv.1 hv.2,
    fun hc => ⟨roundTrips_of_call h hlen hentries hc, packetIdBytesWritten_of_call h hc⟩⟩

/-- The condition can be met: a QoS 1 PUBLISH with payload. -/
theorem publish_qos1_round_trip :
    ∃ v : PacketVariant .two,
      Call.build (.publish ⟨1, by decide⟩ [97] [[1, 2], [3]] 0b00000010) = .ok v ∧
        v.RoundTrips .v311 ∧ v.packetIdBytesWritten ≤ 2 := by
  refine ⟨_, rfl, ?_⟩
  exact (build_round_trip_iff .two (.publish ⟨1, by decide⟩ [97] [[1, 2], [3]] 0b00000010) _ rfl
    (by decide) trivial).mpr ⟨by decide, by decide⟩

/-- `endian_store(0, packet_id_.data())` stores an `int`: a QoS 0 PUBLISH with
    two-byte packet identifiers writes four bytes. -/
theorem publish_qos0_overruns_packet_id :
    ¬ ∀ (pb : PacketIdBytes) (c : Call pb) (v : PacketVariant pb), c.build = .ok v →
      v.remainingLength ≤ 268435455 → v.HasEntries →
      v.RoundTrips .v311 ∧ v.packetIdBytesWritten ≤ pb.bytes := by
  intro h
  have hpacket := h .two (.publish ⟨0, by decide⟩ [97] [] 0b00000000) _ rfl (by decide) trivial
  exact absurd hpacket.2 (show ¬ sizeofInt ≤ 2 by decide)

end V311

end AsyncMqtt
