import AsyncMqtt.Spec.RoundTripV311

/-!
# v5.0: decoding what was encoded

Every v5.0 packet that a public constructor builds, encoded by
`const_buffer_sequence` and decoded by `buffer_to_basic_packet_variant`. The classes with a packet
identifier are handled for both widths of it; the decoders of PUBACK and its like have the
remaining length of a packet without properties built in, and it is the one for two bytes.

## Key results

- `V5.decode_connect`, ..., `V5.decode_unsubscribe`: one round trip for each class
- `V5.IdCall.roundTrips_iff`: the calls with a packet identifier whose packet comes back
- `V5.build_round_trip_iff_v5`: the constructor calls whose packet comes back
-/

namespace AsyncMqtt

open ByteReader

/-- `make_properties` maps the bytes of a property list back to it. -/
def Properties.RoundTrips (loc : PropertyLocation) (props : Properties) : Prop :=
  (makeProperties loc).run props.constBufferSequence.flatten = .ok (props, [])

/-- A property list without bytes is empty. -/
theorem Properties.RoundTrips.eq_nil {loc : PropertyLocation} {props : Properties}
    (h : props.RoundTrips loc) (hsize : props.size = 0) : props = [] := by
  have hbytes : props.constBufferSequence.flatten = [] := by
    rw [← List.length_eq_zero_iff, Properties.length_flatten_constBufferSequence, hsize]
  rw [Properties.RoundTrips, hbytes] at h
  cases h
  rfl

namespace PacketVariant

variable {pb : PacketIdBytes}

/-- The property lists of the packet, each with the place it stands at. -/
def propertyLists : PacketVariant pb → List (PropertyLocation × Properties)
  | v5Connect p => [(.connect, p.props), (.will, p.willProps)]
  | v5Connack p => [(.connack, p.props)]
  | v5Publish p => [(.publish, p.props)]
  | v5Puback p => [(.puback, p.props)]
  | v5Pubrec p => [(.pubrec, p.props)]
  | v5Pubrel p => [(.pubrel, p.props)]
  | v5Pubcomp p => [(.pubcomp, p.props)]
  | v5Subscribe p => [(.subscribe, p.props)]
  | v5Suback p => [(.suback, p.props)]
  | v5Unsubscribe p => [(.unsubscribe, p.props)]
  | v5Unsuback p => [(.unsuback, p.props)]
  | v5Disconnect p => [(.disconnect, p.props)]
  | v5Auth p => [(.auth, p.props)]
  | _ => []

/-- Every property list of the packet is one that `make_properties` maps back to itself. -/
def PropsRoundTrip (v : PacketVariant pb) : Prop :=
  ∀ x ∈ v.propertyLists, x.2.RoundTrips x.1

end PacketVariant

namespace V5

/-! ### Constructor calls -/

/-- The arguments after the packet identifier of PUBACK and its like: nothing, a
    reason code, or a reason code and properties. -/
inductive ReasonArgs where
  | none
  | code (reasonCode : UInt8)
  | codeProps (reasonCode : UInt8) (props : Properties)

namespace ReasonArgs

/-- The reason code, if one is given -/
def reasonCode : ReasonArgs → Option UInt8
  | none => .none
  | code c | codeProps c _ => some c

/-- The properties, none if they are not given -/
def props : ReasonArgs → Properties
  | none | code _ => []
  | codeProps _ ps => ps

/-- The reason code, if there is one, is an enumerator. -/
def Enumerated (reasonCodes : List UInt8) (args : ReasonArgs) : Prop :=
  ∀ c ∈ args.reasonCode, c ∈ reasonCodes

/-- There is a reason code, and no property after it. -/
def BareCode (args : ReasonArgs) : Prop := args.reasonCode ≠ .none ∧ args.props = []

end ReasonArgs

/-- A call of a public constructor of a v5.0 packet. -/
inductive Call where
  | connect (cleanStart : Bool) (keepAliveSec : UInt16) (clientId : Buffer) (w : Option Will)
      (userName password : Option Buffer) (props : Properties)
  | connack (sessionPresent : Bool) (reasonCode : UInt8) (props : Properties)
  | publish (packetId : Fin PacketIdBytes.two.limit) (topicName : Buffer) (payloads : List Buffer)
      (pubopts : UInt8) (props : Properties)
  | puback (packetId : Fin PacketIdBytes.two.limit) (args : ReasonArgs)
  | pubrec (packetId : Fin PacketIdBytes.two.limit) (args : ReasonArgs)
  | pubrel (packetId : Fin PacketIdBytes.two.limit) (args : ReasonArgs)
  | pubcomp (packetId : Fin PacketIdBytes.two.limit) (args : ReasonArgs)
  | subscribe (packetId : Fin PacketIdBytes.two.limit) (params : List TopicSubopts)
      (props : Properties)
  | suback (packetId : Fin PacketIdBytes.two.limit) (params : List UInt8) (props : Properties)
  | unsubscribe (packetId : Fin PacketIdBytes.two.limit) (params : List TopicSharename)
      (props : Properties)
  | unsuback (packetId : Fin PacketIdBytes.two.limit) (params : List UInt8) (props : Properties)
  | pingreq
  | pingresp
  | disconnect (args : ReasonArgs)
  | auth (args : ReasonArgs)

/-- The packet that the call builds, or what it throws. -/
def Call.build : Call → Except Exception (PacketVariant .two)
  | connect cleanStart keepAliveSec clientId w userName password props =>
    .v5Connect <$> connectPacket cleanStart keepAliveSec clientId w userName password props
  | connack sessionPresent reasonCode props =>
    .v5Connack <$> connackPacket sessionPresent reasonCode props
  | publish packetId topicName payloads pubopts props =>
    .v5Publish <$> publishPacket .two packetId topicName payloads pubopts props
  | puback packetId args => .v5Puback <$> pubackPacket .two packetId args.reasonCode args.props
  | pubrec packetId args => .v5Pubrec <$> pubrecPacket .two packetId args.reasonCode args.props
  | pubrel packetId args => .v5Pubrel <$> pubrelPacket .two packetId args.reasonCode args.props
  | pubcomp packetId args => .v5Pubcomp <$> pubcompPacket .two packetId args.reasonCode args.props
  | subscribe packetId params props => .v5Subscribe <$> subscribePacket .two packetId params props
  | suback packetId params props => .v5Suback <$> subackPacket .two packetId params props
  | unsubscribe packetId params props =>
    .v5Unsubscribe <$> unsubscribePacket .two packetId params props
  | unsuback packetId params props => .v5Unsuback <$> unsubackPacket .two packetId params props
  | pingreq => .ok (.v5Pingreq (TwoBytePacket.make .pingreq))
  | pingresp => .ok (.v5Pingresp (TwoBytePacket.make .pingresp))
  | disconnect args => .v5Disconnect <$> disconnectPacket args.reasonCode args.props
  | auth args => .v5Auth <$> authPacket args.reasonCode args.props

/-- The calls whose packet is decoded to itself: PUBLISH options must not reach into
    the packet type and must not have QoS 3, nor must the will, and reason codes must
    be enumerators. -/
def Call.RoundTrips : Call → Prop
  | connect _ _ _ (some w) _ _ _ => Pub.getQos w.pubopts ≠ 3
  | connack _ reasonCode _ => reasonCode ∈ ConnackPacket.reasonCodes
  | publish _ _ _ pubopts _ => pubopts &&& 0b11000000 = 0 ∧ Pub.getQos pubopts ≠ 3
  | puback _ args | pubrec _ args => args.Enumerated pubackReasonCodes
  | pubrel _ args | pubcomp _ args => args.Enumerated pubrelReasonCodes
  | suback _ params _ => ∀ code ∈ params, code ∈ subackReasonCodes
  | unsuback _ params _ => ∀ code ∈ params, code ∈ unsubackReasonCodes
  | disconnect args => args.Enumerated disconnectReasonCodes
  | auth args => args.Enumerated authReasonCodes
  | _ => True

variable {pb : PacketIdBytes}

/-- A call of a public constructor of a v5.0 packet with a packet identifier, of either width. -/
inductive IdCall (pb : PacketIdBytes) where
  | publish (packetId : Fin pb.limit) (topicName : Buffer) (payloads : List Buffer)
      (pubopts : UInt8) (props : Properties)
  | puback (packetId : Fin pb.limit) (args : ReasonArgs)
  | pubrec (packetId : Fin pb.limit) (args : ReasonArgs)
  | pubrel (packetId : Fin pb.limit) (args : ReasonArgs)
  | pubcomp (packetId : Fin pb.limit) (args : ReasonArgs)
  | subscribe (packetId : Fin pb.limit) (params : List TopicSubopts) (props : Properties)
  | suback (packetId : Fin pb.limit) (params : List UInt8) (props : Properties)
  | unsubscribe (packetId : Fin pb.limit) (params : List TopicSharename) (props : Properties)
  | unsuback (packetId : Fin pb.limit) (params : List UInt8) (props : Properties)

/-- The packet that the call builds, or what it throws. -/
def IdCall.build : IdCall pb → Except Exception (PacketVariant pb)
  | publish packetId topicName payloads pubopts props =>
    .v5Publish <$> publishPacket pb packetId topicName payloads pubopts props
  | puback packetId args => .v5Puback <$> pubackPacket pb packetId args.reasonCode args.props
  | pubrec packetId args => .v5Pubrec <$> pubrecPacket pb packetId args.reasonCode args.props
  | pubrel packetId args => .v5Pubrel <$> pubrelPacket pb packetId args.reasonCode args.props
  | pubcomp packetId args => .v5Pubcomp <$> pubcompPacket pb packetId args.reasonCode args.props
  | subscribe packetId params props => .v5Subscribe <$> subscribePacket pb packetId params props
  | suback packetId params props => .v5Suback <$> subackPacket pb packetId params props
  | unsubscribe packetId params props =>
    .v5Unsubscribe <$> unsubscribePacket pb packetId params props
  | unsuback packetId params props => .v5Unsuback <$> unsubackPacket pb packetId params props

/-- The calls whose packet is decoded to itself: as `Call.RoundTrips` says, and with four-byte
    packet identifiers a reason code must not stand alone. -/
def IdCall.RoundTrips : IdCall pb → Prop
  | publish _ _ _ pubopts _ => pubopts &&& 0b11000000 = 0 ∧ Pub.getQos pubopts ≠ 3
  | puback _ args | pubrec _ args =>
    args.Enumerated pubackReasonCodes ∧ (args.BareCode → pb = .two)
  | pubrel _ args | pubcomp _ args =>
    args.Enumerated pubrelReasonCodes ∧ (args.BareCode → pb = .two)
  | suback _ params _ => ∀ code ∈ params, code ∈ subackReasonCodes
  | unsuback _ params _ => ∀ code ∈ params, code ∈ unsubackReasonCodes
  | _ => True

/-- At the end of the packet nothing follows. -/
theorem run_checkEnd : checkEnd.run [] = .ok ((), []) := rfl

/-! ### CONNECT -/

/-- The properties of the will are those of the arguments, if they are allowed. -/
theorem encodeWillProps_eq_ok {w : Option Will} {n : Nat} {nbuf : Buffer} {props : Properties} :
    encodeWillProps w = .ok (n, nbuf, props) ↔
      match w with
      | none => n = 0 ∧ nbuf = [] ∧ props = []
      | some w => w.props.size < 2 ^ 32 ∧ (∀ p ∈ w.props, validateProperty .will p.id = true) ∧
          n = w.props.size ∧ nbuf = valToVariableBytes w.props.size ∧ props = w.props := by
  cases w with
  | none => simp [encodeWillProps, eq_comm]
  | some w =>
    simp only [encodeWillProps, Except.bind_eq_ok, numericCast32_eq_ok, validateProperties_eq_ok,
      Except.pure_eq_ok, Prod.mk.injEq]
    constructor
    · rintro ⟨_, ⟨hsize, rfl⟩, _, hvalid, rfl, rfl, rfl⟩
      exact ⟨hsize, hvalid, rfl, rfl, rfl⟩
    · rintro ⟨hsize, hvalid, rfl, rfl, rfl⟩
      exact ⟨_, ⟨hsize, rfl⟩, (), hvalid, rfl, rfl, rfl⟩

/-- The will is read back. -/
theorem run_readWill {flags : UInt8} {cleanStart : Bool} {w : Option Will}
    {userName password : Option Buffer} {tl t ml m : Buffer} {n : Nat} {nbuf : Buffer}
    {props : Properties} (hspec : ConnectFlags.Spec flags cleanStart w userName password)
    (h : encodeWill w = .ok ((tl, t), (ml, m))) (hp : encodeWillProps w = .ok (n, nbuf, props))
    (hsize : n ≤ 0xfffffff) (hprops : props.RoundTrips .will)
    (hqos : ∀ w', w = some w' → Pub.getQos w'.pubopts ≠ 3) (rest : List UInt8) :
    (ConnectPacket.readWill flags).run
        ((if ConnectFlags.hasWillFlag flags then
          nbuf :: (props.constBufferSequence ++ [tl, t, ml, m]) else []).flatten ++ rest) =
      .ok (((n, nbuf, props), (tl, t), (ml, m)), rest) := by
  rw [encodeWill_eq_ok] at h
  rw [encodeWillProps_eq_ok] at hp
  cases w with
  | none =>
    obtain ⟨rfl, rfl, rfl, rfl⟩ := h
    obtain ⟨rfl, rfl, rfl⟩ := hp
    simp only [ConnectPacket.readWill, hspec.will, Option.isSome_none, Bool.false_eq_true, if_false,
      List.flatten_nil, List.nil_append]
    rw [run_bind_of_ok (run_checkNoWill (hspec.noWillRetain rfl) hspec.willQos _), run_pure]
  -- the four fields of the Will are written one after another, and read in this order
  | some w =>
    obtain ⟨hutf8, htopic, hmessage, rfl, rfl, rfl, rfl⟩ := h
    obtain ⟨-, -, rfl, rfl, rfl⟩ := hp
    have hq : ConnectFlags.willQos flags ≠ 3 := by
      rw [hspec.willQos]
      exact hqos w rfl
    simp only [ConnectPacket.readWill, hspec.will, Option.isSome_some, if_true, List.flatten_cons,
      List.flatten_append, List.flatten_nil, List.append_nil, List.append_assoc]
    rw [run_bind_of_ok (run_checkWillQos hq _),
      run_bind_of_ok (run_readProperties_append hsize hprops _ _),
      run_bind_of_ok (run_readLengthPrefixed_append htopic hutf8 _),
      run_bind_of_ok (run_readLengthPrefixed_append hmessage rfl _), run_pure]

/-- The length of the will -/
theorem length_will {flags : UInt8} {w : Option Will} {tl t ml m : Buffer} {n : Nat}
    {nbuf : Buffer} {props : Properties} (hflag : ConnectFlags.hasWillFlag flags = w.isSome)
    (h : encodeWill w = .ok ((tl, t), (ml, m))) (hp : encodeWillProps w = .ok (n, nbuf, props)) :
    (if ConnectFlags.hasWillFlag flags then
      nbuf :: (props.constBufferSequence ++ [tl, t, ml, m]) else []).flatten.length =
      willSize w := by
  rw [encodeWill_eq_ok] at h
  rw [encodeWillProps_eq_ok] at hp
  rw [hflag]
  cases w with
  | none => rfl
  | some w =>
    obtain ⟨-, -, -, rfl, rfl, rfl, rfl⟩ := h
    obtain ⟨-, -, rfl, rfl, rfl⟩ := hp
    have hbytes := Properties.length_flatten_constBufferSequence w.props
    simp only [willSize, Option.isSome_some, if_true, List.flatten_append, List.flatten_cons,
      List.flatten_nil, List.append_nil, List.length_append, length_endianStore, hbytes]
    omega

/-- The properties of the will count in its length. -/
theorem willProps_size_le {w : Option Will} {n : Nat} {nbuf : Buffer} {props : Properties}
    (hp : encodeWillProps w = .ok (n, nbuf, props)) : n ≤ willSize w := by
  rw [encodeWillProps_eq_ok] at hp
  cases w with
  | none => obtain ⟨rfl, -⟩ := hp; exact Nat.zero_le _
  | some w => obtain ⟨-, -, rfl, -⟩ := hp; simp only [willSize]; omega

/-- A CONNECT is read back. -/
theorem decode_connect {cleanStart : Bool} {keepAliveSec : UInt16} {clientId : Buffer}
    {w : Option Will} {userName password : Option Buffer} {props : Properties} {p : ConnectPacket}
    (h : connectPacket cleanStart keepAliveSec clientId w userName password props = .ok p)
    (hlen : p.remainingLength ≤ 0xfffffff) (hprops : p.props.RoundTrips .connect)
    (hwillProps : p.willProps.RoundTrips .will)
    (hqos : ∀ w', w = some w' → Pub.getQos w'.pubopts ≠ 3) :
    ConnectPacket.decode.run p.constBufferSequence.flatten = .ok (p, []) := by
  simp only [connectPacket, Except.bind_eq_ok, throwIf_eq_ok, numericCast16_eq_ok,
    numericCast32_eq_ok, validateProperties_eq_ok, Except.pure_eq_ok] at h
  obtain ⟨_, ⟨-, rfl⟩, _, ⟨-, rfl⟩, _, ⟨hclient, rfl⟩, _, hutf8, ⟨unl, un⟩, hun, ⟨pwl, pw⟩, hpw, _,
    -, ⟨⟨tl, t⟩, ml, m⟩, hwill, ⟨n, nbuf, wps⟩, hwp, _, ⟨-, rfl⟩, rfl⟩ := h
  -- the flags say which of the optional fields follow
  have hspec := ConnectFlags.make_spec cleanStart w userName password
  have hutf8' : utf8StringCheck clientId = true := by simpa using hutf8
  have hnameLength : protocolNameAndLevel.length = 7 := rfl
  have hbytes := Properties.length_flatten_constBufferSequence props
  have hn := willProps_size_le hwp
  simp only at hlen hprops hwillProps
  simp only [ConnectPacket.constBufferSequence, List.flatten_append, List.flatten_cons,
    List.append_assoc, List.cons_append, List.nil_append]
  rw [ConnectPacket.decode, run_bind_of_ok (run_readFixedHeaderWithCheck rfl _ _),
    run_bind_of_ok (run_readRemainingLength_append hlen _ _)]
  simp only
  rw [run_bind_of_ok (run_checkRemainingLength ?hsize _),
    run_bind_of_ok (run_readBytes_append hnameLength _),
    run_bind_of_ok (run_failIf_of_not (by simp) _ _),
    run_bind_of_ok (run_readConnectFlags hspec.reserved _),
    run_bind_of_ok (run_readBytes_append (length_endianStore _ _) _),
    run_bind_of_ok (run_readProperties_append (by omega) hprops _ _),
    run_bind_of_ok (run_readLengthPrefixed_append hclient hutf8' _),
    run_bind_of_ok (run_readWill hspec hwill hwp (by omega) hwillProps hqos _),
    run_bind_of_ok (run_readUserName hspec.userName hun _),
    run_bind_of_ok (run_readPassword hspec.password hpw), run_pure]
  case hsize =>
    simp only [List.length_append, List.length_cons, length_endianStore, hnameLength, hbytes,
      length_will hspec.will hwill hwp, length_optional hspec.userName hun,
      length_optional hspec.password hpw]
    omega

/-- The will of a CONNECT that is accepted does not have QoS 3. -/
theorem decode_connect_ok {buf rest : List UInt8} {p : ConnectPacket}
    (h : ConnectPacket.decode.run buf = .ok (p, rest))
    (hwill : ConnectFlags.hasWillFlag p.connectFlags = true) :
    ConnectFlags.willQos p.connectFlags ≠ 3 := by
  rw [ConnectPacket.decode] at h
  obtain ⟨_, _, -, h⟩ := run_bind_ok h
  obtain ⟨_, _, -, h⟩ := run_bind_ok h
  obtain ⟨_, _, -, h⟩ := run_bind_ok h
  obtain ⟨_, _, -, h⟩ := run_bind_ok h
  obtain ⟨_, _, -, h⟩ := run_bind_ok h
  obtain ⟨flags, _, -, h⟩ := run_bind_ok h
  obtain ⟨_, _, -, h⟩ := run_bind_ok h
  obtain ⟨_, _, -, h⟩ := run_bind_ok h
  obtain ⟨_, _, -, h⟩ := run_bind_ok h
  obtain ⟨_, _, hread, h⟩ := run_bind_ok h
  obtain ⟨_, _, -, h⟩ := run_bind_ok h
  obtain ⟨_, _, -, h⟩ := run_bind_ok h
  cases h
  simp only at hwill
  rw [ConnectPacket.readWill, if_pos hwill] at hread
  -- the check of the QoS stands at the Will
  obtain ⟨_, _, hcheck, -⟩ := run_bind_ok hread
  exact willQos_ne_of_check hcheck

/-- The flags of a CONNECT are those of its arguments. -/
theorem connect_flags {cleanStart : Bool} {keepAliveSec : UInt16} {clientId : Buffer}
    {w : Option Will} {userName password : Option Buffer} {props : Properties} {p : ConnectPacket}
    (h : connectPacket cleanStart keepAliveSec clientId w userName password props = .ok p) :
    p.connectFlags = ConnectFlags.make cleanStart w userName password := by
  simp only [connectPacket, Except.bind_eq_ok, Except.pure_eq_ok] at h
  obtain ⟨_, -, _, -, _, -, _, -, ⟨unl, un⟩, -, ⟨pwl, pw⟩, -, _, -, ⟨⟨tl, t⟩, ml, m⟩, -,
    ⟨n, nbuf, wps⟩, -, _, -, rfl⟩ := h
  rfl

/-- `get_will()` tells whether there is a will and which QoS it has. -/
theorem willQos_of_getWill {p q : ConnectPacket} (h : q.getWill = p.getWill)
    (hflag : ConnectFlags.hasWillFlag p.connectFlags = true) :
    ConnectFlags.hasWillFlag q.connectFlags = true ∧
      ConnectFlags.willQos q.connectFlags = ConnectFlags.willQos p.connectFlags := by
  rw [ConnectPacket.getWill, ConnectPacket.getWill, if_pos hflag] at h
  split at h
  · next hq =>
    have hopts : ConnectFlags.willOpts q.connectFlags = ConnectFlags.willOpts p.connectFlags :=
      congrArg Will.pubopts (Option.some.inj h)
    refine ⟨hq, ?_⟩
    rw [← ConnectFlags.getQos_willOpts, hopts, ConnectFlags.getQos_willOpts]
  · exact nomatch h

/-! ### CONNACK -/

/-- A CONNACK is read back. -/
theorem decode_connack {sessionPresent : Bool} {reasonCode : UInt8} {props : Properties}
    {p : ConnackPacket} (h : connackPacket sessionPresent reasonCode props = .ok p)
    (hlen : p.remainingLength ≤ 0xfffffff) (hprops : p.props.RoundTrips .connack)
    (hcode : reasonCode ∈ ConnackPacket.reasonCodes) :
    ConnackPacket.decode.run p.constBufferSequence.flatten = .ok (p, []) := by
  simp only [connackPacket, Except.bind_eq_ok, numericCast32_eq_ok, validateProperties_eq_ok,
    Except.pure_eq_ok] at h
  obtain ⟨_, ⟨-, rfl⟩, _, -, _, ⟨-, rfl⟩, rfl⟩ := h
  have hflags : ¬ ((if sessionPresent then 1 else 0 : UInt8) &&& 0b11111110 ≠ 0) := by
    cases sessionPresent <;> decide
  have hbytes := Properties.length_flatten_constBufferSequence props
  simp only at hlen hprops
  have hread := run_readProperties_append (by omega) hprops malformedPacket []
  rw [List.append_nil] at hread
  simp only [ConnackPacket.constBufferSequence, List.flatten_cons, List.cons_append,
    List.nil_append]
  rw [ConnackPacket.decode, run_bind_of_ok (run_readFixedHeaderWithCheck rfl _ _),
    run_bind_of_ok (run_readRemainingLength_append hlen _ _)]
  simp only
  rw [run_bind_of_ok (run_checkRemainingLength ?hsize _), run_bind_of_ok (run_readByte_cons _ _ _),
    run_bind_of_ok (run_failIf_of_not hflags _ _), run_bind_of_ok (run_front_cons _ _),
    run_bind_of_ok (run_removePrefix_one_cons _ _),
    run_bind_of_ok (run_failIf_of_not (by simp [hcode]) _ _), run_bind_of_ok hread,
    run_bind_of_ok run_checkEnd, run_pure]
  case hsize =>
    simp only [List.length_append, List.length_cons, hbytes]
    omega

/-- The reason code of a CONNACK that is accepted is an enumerator. -/
theorem decode_connack_ok {buf rest : List UInt8} {p : ConnackPacket}
    (h : ConnackPacket.decode.run buf = .ok (p, rest)) : p.code ∈ ConnackPacket.reasonCodes := by
  rw [ConnackPacket.decode] at h
  obtain ⟨_, _, -, h⟩ := run_bind_ok h
  obtain ⟨_, _, -, h⟩ := run_bind_ok h
  obtain ⟨_, _, -, h⟩ := run_bind_ok h
  obtain ⟨_, _, -, h⟩ := run_bind_ok h
  obtain ⟨_, _, -, h⟩ := run_bind_ok h
  obtain ⟨reasonCode, _, -, h⟩ := run_bind_ok h
  obtain ⟨_, _, -, h⟩ := run_bind_ok h
  obtain ⟨_, _, hcheck, h⟩ := run_bind_ok h
  obtain ⟨_, _, -, h⟩ := run_bind_ok h
  obtain ⟨_, _, -, h⟩ := run_bind_ok h
  cases h
  exact not_not.mp (run_failIf_ok hcheck).1

/-- The reason code of a CONNACK is that of its arguments. -/
theorem connack_code {sessionPresent : Bool} {reasonCode : UInt8} {props : Properties}
    {p : ConnackPacket} (h : connackPacket sessionPresent reasonCode props = .ok p) :
    p.code = reasonCode := by
  simp only [connackPacket, Except.bind_eq_ok, Except.pure_eq_ok] at h
  obtain ⟨_, -, _, -, _, -, rfl⟩ := h
  rfl

/-! ### PUBLISH -/

/-- The QoS decides what is stored as the packet identifier. -/
theorem storePublishPacketId_eq_ok {packetId : Nat} {pubopts : UInt8} {bs : Buffer} :
    storePublishPacketId pb packetId pubopts = .ok bs ↔
      ((Pub.getQos pubopts = 0 ∨ Pub.getQos pubopts = 3) ∧ packetId = 0 ∧
        bs = endianStore pb.bytes 0) ∨
      ((Pub.getQos pubopts = 1 ∨ Pub.getQos pubopts = 2) ∧ packetId ≠ 0 ∧
        bs = endianStore pb.bytes packetId) := by
  unfold storePublishPacketId
  rcases getQos_cases pubopts with h | h | h | h <;> rw [h]
  · exact throwIf_pure_eq_ok.trans (by simp [eq_comm])
  · exact throwIf_pure_eq_ok.trans (by simp [eq_comm])
  · exact throwIf_pure_eq_ok.trans (by simp [eq_comm])
  · exact throwIf_pure_eq_ok.trans (by simp [eq_comm])

/-- A PUBLISH as it is decoded: the payload is one buffer, or none if it is empty. -/
def PublishPacket.decoded (p : PublishPacket pb) : PublishPacket pb :=
  { p with payloads := payloadsOf p.payload }

/-- A decoded PUBLISH shows what the original does. -/
theorem view_decoded (p : PublishPacket pb) :
    (PacketVariant.v5Publish p.decoded).view = (PacketVariant.v5Publish p).view := by
  have hpayload : p.decoded.payload = p.payload := flatten_payloadsOf _
  simp only [PacketVariant.view, hpayload]
  rfl

/-- A PUBLISH is read back, unless both bits of its QoS are set. -/
theorem decode_publish {packetId : Fin pb.limit} {topicName : Buffer} {payloads : List Buffer}
    {pubopts : UInt8} {props : Properties} {p : PublishPacket pb}
    (h : publishPacket pb packetId topicName payloads pubopts props = .ok p)
    (hlen : p.remainingLength ≤ 0xfffffff) (hprops : p.props.RoundTrips .publish)
    (hqos3 : Pub.getQos pubopts ≠ 3) :
    (PublishPacket.decode pb).run p.constBufferSequence.flatten = .ok (p.decoded, []) := by
  simp only [publishPacket, Except.bind_eq_ok, throwIf_eq_ok, numericCast16_eq_ok,
    numericCast32_eq_ok, validateProperties_eq_ok, storePublishPacketId_eq_ok,
    Except.pure_eq_ok] at h
  obtain ⟨_, -, _, ⟨htopic, rfl⟩, _, hutf8, _, ⟨-, rfl⟩, _, -, _, ⟨-, rfl⟩, idBuf, hid, rfl⟩ := h
  have hutf8' : utf8StringCheck topicName = true := by simpa using hutf8
  simp only at hlen hprops
  rcases hid with ⟨hqos, hzero, rfl⟩ | ⟨hqos, hne, rfl⟩
  · -- QoS 0: there is no packet identifier
    have hload : endianLoad pb.bytes (endianStore pb.bytes 0) = 0 := by cases pb <;> rfl
    have hhead : Pub.getQos (makeFixedHeader .publish 0b0000 ||| pubopts) = 0 := by
      rw [getQos_publish_header]
      exact hqos.resolve_right hqos3
    simp only [PublishPacket.constBufferSequence, PublishPacket.packetId, hload, ne_eq,
      not_true_eq_false, if_false, List.flatten_cons, List.flatten_append, List.append_nil,
      List.cons_append, List.nil_append]
    rw [PublishPacket.decode, run_bind_of_ok (run_readByte_cons _ _ _),
      run_bind_of_ok (run_readRemainingLength_append hlen _ _)]
    simp only
    rw [run_bind_of_ok (run_readLengthPrefixed_append htopic hutf8' _),
      run_bind_of_ok (run_readPublishPacketId_qos0 hhead _),
      run_bind_of_ok (run_readProperties_append (by omega) hprops _ _),
      run_bind_of_ok (run_readPayloads _), run_pure]
    rfl
  -- QoS 1 and 2 have a packet identifier
  · have hload : endianLoad pb.bytes (endianStore pb.bytes packetId) = packetId.val :=
      endianLoad_endianStore packetId.isLt
    have hhead : Pub.getQos (makeFixedHeader .publish 0b0000 ||| pubopts) = 1 ∨
        Pub.getQos (makeFixedHeader .publish 0b0000 ||| pubopts) = 2 := by
      rwa [getQos_publish_header]
    have htake : (endianStore pb.bytes packetId.val).take pb.bytes =
        endianStore pb.bytes packetId.val := List.take_of_length_le (by simp)
    simp only [PublishPacket.constBufferSequence, PublishPacket.packetId, hload, ne_eq, hne,
      not_false_eq_true, if_true, htake, List.flatten_cons, List.flatten_append, List.cons_append,
      List.nil_append]
    rw [PublishPacket.decode, run_bind_of_ok (run_readByte_cons _ _ _),
      run_bind_of_ok (run_readRemainingLength_append hlen _ _)]
    simp only
    rw [run_bind_of_ok (run_readLengthPrefixed_append htopic hutf8' _),
      run_bind_of_ok (run_readPublishPacketId hhead (length_endianStore _ _) _),
      run_bind_of_ok (run_readProperties_append (by omega) hprops _ _),
      run_bind_of_ok (run_readPayloads _), run_pure]
    rfl

/-- The QoS of a PUBLISH that is accepted is not 3. -/
theorem decode_publish_ok {buf rest : List UInt8} {p : PublishPacket pb}
    (h : (PublishPacket.decode pb).run buf = .ok (p, rest)) : Pub.getQos p.opts ≠ 3 := by
  rw [PublishPacket.decode] at h
  obtain ⟨_, _, -, h⟩ := run_bind_ok h
  obtain ⟨_, _, -, h⟩ := run_bind_ok h
  obtain ⟨_, _, -, h⟩ := run_bind_ok h
  obtain ⟨_, _, hid, h⟩ := run_bind_ok h
  obtain ⟨_, _, -, h⟩ := run_bind_ok h
  obtain ⟨_, _, -, h⟩ := run_bind_ok h
  cases h
  exact run_readPublishPacketId_ok hid

/-- The options of a PUBLISH are in its fixed header. -/
theorem publish_opts {packetId : Nat} {topicName : Buffer} {payloads : List Buffer}
    {pubopts : UInt8} {props : Properties} {p : PublishPacket pb}
    (h : publishPacket pb packetId topicName payloads pubopts props = .ok p) :
    p.opts = makeFixedHeader .publish 0b0000 ||| pubopts := by
  simp only [publishPacket, Except.bind_eq_ok, Except.pure_eq_ok] at h
  obtain ⟨_, -, _, -, _, -, _, -, _, -, _, -, _, -, rfl⟩ := h
  rfl

/-! ### Reason code and properties -/

/-- What the constructors of the packets with an optional reason code make of it. -/
theorem ReasonTail.make_eq_ok {loc : PropertyLocation} {code : Option UInt8} {props : Properties}
    {t : ReasonTail} {n : Nat} (h : ReasonTail.make loc code props = .ok (t, n)) :
    (code = none ∧ t = ⟨none, props.size, [], props⟩ ∧ n = 0) ∨
    ∃ c, code = some c ∧
      ((props.size = 0 ∧ t = ⟨some c, props.size, [], props⟩ ∧ n = 1) ∨
        (props.size ≠ 0 ∧ t = ⟨some c, props.size, valToVariableBytes props.size, props⟩ ∧
          n = 1 + ((valToVariableBytes props.size).length + props.size))) := by
  cases code with
  | none =>
    cases h
    exact .inl ⟨rfl, rfl, rfl⟩
  | some c =>
    refine .inr ⟨c, rfl, ?_⟩
    simp only [ReasonTail.make] at h
    -- without properties their length is not written
    by_cases hsize : props.size = 0
    · rw [if_pos hsize] at h
      cases h
      exact .inl ⟨hsize, rfl, rfl⟩
    · rw [if_neg hsize] at h
      simp only [Except.bind_eq_ok, numericCast32_eq_ok, Except.pure_eq_ok] at h
      obtain ⟨_, ⟨-, rfl⟩, _, -, h⟩ := h
      cases h
      exact .inr ⟨hsize, rfl, rfl⟩

/-- The reason code of the tail -/
theorem ReasonTail.make_reasonCode {loc : PropertyLocation} {code : Option UInt8}
    {props : Properties} {t : ReasonTail} {n : Nat}
    (h : ReasonTail.make loc code props = .ok (t, n)) : t.reasonCode = code := by
  rcases make_eq_ok h with ⟨rfl, rfl, -⟩ | ⟨c, rfl, ⟨-, rfl, -⟩ | ⟨-, rfl, -⟩⟩ <;> rfl

/-- The tail is read back. `noCode` and `noProps` are the remaining lengths by which the decoder
    knows that there is no tail, and no properties. Without a reason code there must be no
    properties. -/
theorem ReasonTail.run_decode {loc : PropertyLocation} {reasonCodes : List UInt8}
    {args : ReasonArgs} {t : ReasonTail} {n : Nat} (noCode noProps : Nat)
    (h : ReasonTail.make loc args.reasonCode args.props = .ok (t, n)) (hlen : n ≤ 0xfffffff)
    (hnoProps : n ≠ 0 → (noCode + n = noProps ↔ n = 1))
    (hprops : t.props.RoundTrips loc) (hcode : args.Enumerated reasonCodes) :
    (ReasonTail.decode loc reasonCodes (noCode + n) noCode noProps).run
        t.constBufferSequence.flatten = .ok (t, []) := by
  rcases make_eq_ok h with ⟨hnone, rfl, rfl⟩ | ⟨c, hc, hcases⟩
  · have hempty : args.props = [] := by
      cases args with
      | none => rfl
      | code c => exact nomatch hnone
      | codeProps c props => exact nomatch hnone
    rw [ReasonTail.decode, if_pos (Nat.add_zero _), hempty]
    rfl
  · have hmem : c ∈ reasonCodes := hcode c hc
    -- either the code alone is written, or the code and the properties
    rcases hcases with ⟨hsize, rfl, rfl⟩ | ⟨hsize, rfl, rfl⟩
    · have hempty : args.props = [] := hprops.eq_nil hsize
      have hone : noCode + 1 = noProps := (hnoProps (by decide)).mpr rfl
      rw [hempty, ReasonTail.decode, if_neg (by omega)]
      simp only [ReasonTail.constBufferSequence, List.length_nil, ne_eq, not_true_eq_false,
        if_false, List.flatten_cons, List.flatten_nil, List.append_nil]
      rw [run_bind_of_ok (run_front_cons _ _), run_bind_of_ok (run_removePrefix_one_cons _ _),
        run_bind_of_ok (run_failIf_of_not (by simp [hmem]) _ _), if_pos hone,
        run_bind_of_ok run_checkEnd, run_pure]
      rfl
    -- the length of the properties is there, so the packet is longer than the code alone
    · simp only at hprops
      have hpos := length_valToVariableBytes_pos (show args.props.size ≤ 0xfffffff by omega)
      have hread := run_readProperties_append (by omega) hprops malformedPacket []
      have hmore := hnoProps (by omega)
      rw [List.append_nil] at hread
      rw [ReasonTail.decode, if_neg (by omega)]
      simp only [ReasonTail.constBufferSequence, ne_eq, Nat.pos_iff_ne_zero.mp hpos,
        not_false_eq_true, if_true, List.flatten_cons, List.cons_append, List.nil_append]
      rw [run_bind_of_ok (run_front_cons _ _), run_bind_of_ok (run_removePrefix_one_cons _ _),
        run_bind_of_ok (run_failIf_of_not (by simp [hmem]) _ _), if_neg (by omega),
        run_bind_of_ok hread, run_bind_of_ok run_checkEnd, run_pure]

/-- A bare reason code is not read back when the remaining length is taken for that of a packet
    with properties. -/
theorem ReasonTail.decode_bareCode {loc : PropertyLocation} {reasonCodes : List UInt8}
    {rl noCode noProps : Nat} {c : UInt8} {r : ReasonTail × List UInt8} (hcode : rl ≠ noCode)
    (hnoProps : rl ≠ noProps) :
    (ReasonTail.decode loc reasonCodes rl noCode noProps).run [c] ≠ .ok r := by
  intro h
  rw [ReasonTail.decode, if_neg hcode, run_bind_of_ok (run_front_cons _ _),
    run_bind_of_ok (run_removePrefix_one_cons _ _)] at h
  obtain ⟨-, h⟩ := run_failIf_bind_ok h
  rw [if_neg hnoProps] at h
  -- there is no byte left for the property length
  exact nomatch h

/-- The reason code of a tail that is accepted is an enumerator. -/
theorem ReasonTail.decode_ok {loc : PropertyLocation} {reasonCodes : List UInt8}
    {rl noCode noProps : Nat} {t : ReasonTail} {buf rest : List UInt8}
    (h : (ReasonTail.decode loc reasonCodes rl noCode noProps).run buf = .ok (t, rest)) :
    ∀ c ∈ t.reasonCode, c ∈ reasonCodes := by
  rw [ReasonTail.decode] at h
  split at h
  · obtain ⟨_, _, -, h⟩ := run_bind_ok h
    cases h
    exact fun c hc => by cases hc
  -- the enumerators of the code are checked before the properties
  · obtain ⟨reasonCode, _, -, h⟩ := run_bind_ok h
    obtain ⟨_, _, -, h⟩ := run_bind_ok h
    obtain ⟨_, _, hcheck, h⟩ := run_bind_ok h
    have hmem := not_not.mp (run_failIf_ok hcheck).1
    split at h
    · obtain ⟨_, _, -, h⟩ := run_bind_ok h
      cases h
      exact fun c hc => Option.some.inj hc ▸ hmem
    · obtain ⟨_, _, -, h⟩ := run_bind_ok h
      obtain ⟨_, _, -, h⟩ := run_bind_ok h
      cases h
      exact fun c hc => Option.some.inj hc ▸ hmem

/-- `code()` shows the reason code, and the code 0 for none. -/
theorem ReasonTail.enumerated_of_code {reasonCodes : List UInt8} {args : ReasonArgs}
    {t t' : ReasonTail} (hzero : 0 ∈ reasonCodes) (ht : t.reasonCode = args.reasonCode)
    (hcode : t'.code = t.code) (h : ∀ c ∈ t'.reasonCode, c ∈ reasonCodes) :
    args.Enumerated reasonCodes := by
  intro c hc
  rw [ReasonTail.code, ReasonTail.code, ht, Option.mem_def.mp hc] at hcode
  cases ht' : t'.reasonCode with
  | none =>
    rw [ht'] at hcode
    obtain rfl : 0 = c := hcode
    exact hzero
  | some c' =>
    rw [ht'] at hcode
    obtain rfl : c' = c := hcode
    exact h c' ht'

/-- A response to a PUBLISH consists of its identifier and its tail. -/
theorem pubResponse_eq_ok {type : ControlPacketType} {flags : UInt8} {loc : PropertyLocation}
    {packetId : Nat} {args : ReasonArgs} {p : PubResponsePacket pb}
    (h : pubResponsePacket type flags loc pb packetId args.reasonCode args.props = .ok p) :
    ∃ n, ReasonTail.make loc args.reasonCode args.props = .ok (p.tail, n) ∧
      p = ⟨makeFixedHeader type flags, pb.bytes + n, valToVariableBytes (pb.bytes + n),
        endianStore pb.bytes packetId, p.tail⟩ := by
  simp only [pubResponsePacket, Except.bind_eq_ok, numericCast32_eq_ok, Except.pure_eq_ok] at h
  obtain ⟨⟨t, n⟩, ht, _, ⟨-, rfl⟩, rfl⟩ := h
  exact ⟨n, ht, rfl⟩

/-- A property takes at least one byte. -/
theorem Properties.size_eq_zero {props : Properties} : props.size = 0 ↔ props = [] := by
  cases props with
  | nil => simp [Properties.size]
  | cons p props =>
    have hp : p.size ≠ 0 := by cases p <;> simp [Property.size]
    simp [Properties.size, hp]

/-- The tail of a bare reason code has one byte, every other tail more or none. -/
theorem ReasonTail.make_bareCode {loc : PropertyLocation} {args : ReasonArgs} {t : ReasonTail}
    {n : Nat} (h : ReasonTail.make loc args.reasonCode args.props = .ok (t, n)) :
    args.BareCode ↔ n = 1 := by
  rcases make_eq_ok h with ⟨hnone, -, rfl⟩ | ⟨c, hc, ⟨hsize, -, rfl⟩ | ⟨hsize, -, rfl⟩⟩
  · simp [ReasonArgs.BareCode, hnone]
  · simp [ReasonArgs.BareCode, hc, Properties.size_eq_zero.mp hsize]
  · have hne : args.props ≠ [] := fun hnil => hsize (Properties.size_eq_zero.mpr hnil)
    simp only [ReasonArgs.BareCode, hne, and_false, false_iff]
    omega

/-- A response to a PUBLISH is read back, if its reason code is enumerated. -/
theorem decode_pubResponse {type : ControlPacketType} {flags : UInt8} {loc : PropertyLocation}
    {reasonCodes : List UInt8} {packetId : Nat} {args : ReasonArgs} {p : PubResponsePacket pb}
    (h : pubResponsePacket type flags loc pb packetId args.reasonCode args.props = .ok p)
    (hlen : p.remainingLength ≤ 0xfffffff) (hprops : p.props.RoundTrips loc)
    (hcode : args.Enumerated reasonCodes) (hbare : args.BareCode → pb = .two) :
    (PubResponsePacket.decode loc reasonCodes pb).run p.constBufferSequence.flatten =
      .ok (p, []) := by
  obtain ⟨n, hmake, hp⟩ := pubResponse_eq_ok h
  generalize p.tail = t at hp hmake
  subst hp
  simp only at hlen
  -- the literal 3 of the source is the length of two bytes and a code only
  have hnoProps : n ≠ 0 → (pb.bytes + n = 3 ↔ n = 1) := by
    intro hn
    cases pb with
    | two => simp only [PacketIdBytes.bytes]; omega
    | four =>
      have hne : n ≠ 1 := fun hone => nomatch hbare ((ReasonTail.make_bareCode hmake).mpr hone)
      simp only [PacketIdBytes.bytes]
      omega
  have htail := ReasonTail.run_decode pb.bytes 3 hmake (by omega) hnoProps hprops hcode
  simp only [PubResponsePacket.constBufferSequence, List.flatten_cons, List.cons_append,
    List.nil_append]
  rw [PubResponsePacket.decode, run_bind_of_ok (run_readByte_cons _ _ _),
    run_bind_of_ok (run_readRemainingLength_append hlen _ _)]
  simp only
  rw [run_bind_of_ok (run_readBytes_append (length_endianStore _ _) _),
    run_bind_of_ok htail, run_pure]

/-- With four-byte packet identifiers, a bare reason code is not decoded. -/
theorem decode_pubResponse_bareCode {type : ControlPacketType} {flags : UInt8}
    {loc : PropertyLocation} {reasonCodes : List UInt8} {packetId : Nat} {args : ReasonArgs}
    {p : PubResponsePacket .four} {r : PubResponsePacket .four × List UInt8}
    (h : pubResponsePacket type flags loc .four packetId args.reasonCode args.props = .ok p)
    (hbare : args.BareCode) :
    (PubResponsePacket.decode loc reasonCodes .four).run p.constBufferSequence.flatten ≠ .ok r := by
  intro hrun
  obtain ⟨n, hmake, hp⟩ := pubResponse_eq_ok h
  obtain rfl := (ReasonTail.make_bareCode hmake).mp hbare
  have htail : ∃ c, p.tail.constBufferSequence.flatten = [c] := by
    -- the tail is a code alone
    rcases ReasonTail.make_eq_ok hmake with ⟨-, -, hn⟩ | ⟨c, -, ⟨-, ht, -⟩ | ⟨hsize, -, hn⟩⟩
    · exact nomatch hn
    · exact ⟨c, by rw [ht]; rfl⟩
    · omega
  obtain ⟨c, hc⟩ := htail
  generalize p.tail = t at hp hc
  subst hp
  simp only [PubResponsePacket.constBufferSequence, List.flatten_cons, List.cons_append,
    List.nil_append] at hrun
  rw [PubResponsePacket.decode, run_bind_of_ok (run_readByte_cons _ _ _),
    run_bind_of_ok (run_readRemainingLength_append (by decide) _ _)] at hrun
  simp only at hrun
  rw [run_bind_of_ok (run_readBytes_append (length_endianStore _ _) _), hc] at hrun
  obtain ⟨t', rest, ht', -⟩ := run_bind_ok hrun
  exact ReasonTail.decode_bareCode (by decide) (by decide) ht'

/-- Only an enumerated reason code is accepted. -/
theorem decode_pubResponse_ok {loc : PropertyLocation} {reasonCodes : List UInt8}
    {buf rest : List UInt8} {p : PubResponsePacket pb}
    (h : (PubResponsePacket.decode loc reasonCodes pb).run buf = .ok (p, rest)) :
    ∀ c ∈ p.tail.reasonCode, c ∈ reasonCodes := by
  rw [PubResponsePacket.decode] at h
  obtain ⟨_, _, -, h⟩ := run_bind_ok h
  obtain ⟨_, _, -, h⟩ := run_bind_ok h
  obtain ⟨_, _, -, h⟩ := run_bind_ok h
  obtain ⟨_, _, htail, h⟩ := run_bind_ok h
  cases h
  exact ReasonTail.decode_ok htail

/-- A DISCONNECT or AUTH consists of its tail. -/
theorem reason_eq_ok {type : ControlPacketType} {loc : PropertyLocation} {args : ReasonArgs}
    {p : ReasonPacket} (h : reasonPacket type loc args.reasonCode args.props = .ok p) :
    ∃ n, ReasonTail.make loc args.reasonCode args.props = .ok (p.tail, n) ∧
      p = ⟨makeFixedHeader type 0b0000, n, valToVariableBytes n, p.tail⟩ := by
  simp only [reasonPacket, Except.bind_eq_ok, numericCast32_eq_ok, Except.pure_eq_ok] at h
  obtain ⟨⟨t, n⟩, ht, _, ⟨-, rfl⟩, rfl⟩ := h
  exact ⟨n, ht, rfl⟩

/-- A DISCONNECT or AUTH is read back, if its reason code is enumerated. -/
theorem decode_reason {type : ControlPacketType} {loc : PropertyLocation}
    {reasonCodes : List UInt8} {args : ReasonArgs} {p : ReasonPacket}
    (h : reasonPacket type loc args.reasonCode args.props = .ok p)
    (hlen : p.remainingLength ≤ 0xfffffff) (hprops : p.props.RoundTrips loc)
    (hcode : args.Enumerated reasonCodes) :
    (ReasonPacket.decode loc reasonCodes).run p.constBufferSequence.flatten = .ok (p, []) := by
  obtain ⟨n, hmake, hp⟩ := reason_eq_ok h
  generalize p.tail = t at hp hmake
  subst hp
  simp only at hlen
  -- without an identifier the tail is all there is
  have htail := ReasonTail.run_decode 0 1 hmake hlen (fun _ => by omega) hprops hcode
  rw [Nat.zero_add] at htail
  simp only [ReasonPacket.constBufferSequence, List.flatten_cons, List.cons_append,
    List.nil_append]
  rw [ReasonPacket.decode, run_bind_of_ok (run_readByte_cons _ _ _),
    run_bind_of_ok (run_readRemainingLength_append hlen _ _)]
  simp only
  rw [run_bind_of_ok htail, run_pure]

/-- Only an enumerated reason code is accepted, for DISCONNECT and AUTH as well. -/
theorem decode_reason_ok {loc : PropertyLocation} {reasonCodes : List UInt8}
    {buf rest : List UInt8} {p : ReasonPacket}
    (h : (ReasonPacket.decode loc reasonCodes).run buf = .ok (p, rest)) :
    ∀ c ∈ p.tail.reasonCode, c ∈ reasonCodes := by
  rw [ReasonPacket.decode] at h
  obtain ⟨_, _, -, h⟩ := run_bind_ok h
  obtain ⟨_, _, -, h⟩ := run_bind_ok h
  obtain ⟨_, _, htail, h⟩ := run_bind_ok h
  cases h
  exact ReasonTail.decode_ok htail

/-! ### SUBSCRIBE, SUBACK, UNSUBSCRIBE and UNSUBACK -/

/-- A topic filter with its subscription options is read back. -/
theorem run_readEntry_subscribe {e : TopicSubopts} (hlen : e.allTopic.length < 2 ^ 16)
    (hutf8 : utf8StringCheck e.allTopic = true) (hopts : SubscribePacket.optsAccepted e.opts = true)
    (hnl : SubscribePacket.nlOnShared e = false) (rest : List UInt8) :
    SubscribePacket.readEntry.run
        (endianStore 2 e.allTopic.length ++ (e.allTopic ++ ([[e.opts]].flatten ++ rest))) =
      .ok ((endianStore 2 e.allTopic.length, e), rest) := by
  have hnl' : SubscribePacket.nlOnShared ⟨⟨e.allTopic⟩, e.opts⟩ = false := hnl
  rw [SubscribePacket.readEntry, run_bind_of_ok (run_readLengthPrefixed_append hlen hutf8 _)]
  simp only [List.flatten_cons, List.flatten_nil, List.append_nil, List.cons_append,
    List.nil_append]
  rw [run_bind_of_ok (run_remaining _), run_bind_of_ok (run_failIf_of_not (by simp) _ _),
    run_bind_of_ok (run_front_cons _ _), run_bind_of_ok (run_failIf_of_not (by simp [hopts]) _ _),
    run_bind_of_ok (run_failIf_of_not (by simp [hnl']) _ _),
    run_bind_of_ok (run_removePrefix_one_cons _ _), run_pure]
  rfl

/-- The entries of a SUBSCRIBE are its arguments. -/
theorem subscribe_entries {packetId : Nat} {params : List TopicSubopts} {props : Properties}
    {p : SubscribePacket pb} (h : subscribePacket pb packetId params props = .ok p) :
    p.entries = params := by
  simp only [subscribePacket, Except.bind_eq_ok, Except.pure_eq_ok] at h
  obtain ⟨_, -, _, -, _, -, _, -, _, -, rfl⟩ := h
  rfl

/-- A SUBSCRIBE is read back, if it has an entry. -/
theorem decode_subscribe {packetId : Fin pb.limit} {params : List TopicSubopts}
    {props : Properties} {p : SubscribePacket pb}
    (h : subscribePacket pb packetId params props = .ok p) (hlen : p.remainingLength ≤ 0xfffffff)
    (hprops : p.props.RoundTrips .subscribe) (hne : params ≠ []) :
    (SubscribePacket.decode pb).run p.constBufferSequence.flatten = .ok (p, []) := by
  simp only [subscribePacket, Except.bind_eq_ok, throwIf_eq_ok, checkTopicSizes_eq_ok,
    forEach_eq_ok, numericCast32_eq_ok, validateProperties_eq_ok, Except.pure_eq_ok] at h
  obtain ⟨_, hsizes, _, ⟨-, rfl⟩, _, -, _, hentries, _, ⟨-, rfl⟩, rfl⟩ := h
  -- the entries are what is left of the packet
  have hread := run_many_zip_entries TopicSubopts.allTopic (fun e => [[e.opts]])
    SubscribePacket.readEntry params fun e he rest => by
      obtain ⟨_, hopts, _, hnl, hutf8⟩ := hentries e he
      exact run_readEntry_subscribe (hsizes _ (List.mem_map_of_mem he)) (by simpa using hutf8)
        (by simpa using hopts) (by simpa using hnl) rest
  have hbytes := length_zip_entries TopicSubopts.allTopic (fun e => [[e.opts]]) 1 (fun _ => rfl)
    params
  have hpropBytes := Properties.length_flatten_constBufferSequence props
  simp only at hlen hprops
  simp only [SubscribePacket.constBufferSequence, List.flatten_cons, List.flatten_append,
    List.cons_append, List.nil_append]
  rw [SubscribePacket.decode, run_bind_of_ok (run_readFixedHeaderWithCheck rfl _ _),
    run_bind_of_ok (run_readRemainingLength_append hlen _ _)]
  simp only
  rw [run_bind_of_ok (run_checkRemainingLength ?hsize _),
    run_bind_of_ok (run_readBytes_append (length_endianStore _ _) _),
    run_bind_of_ok (run_readProperties_append (by omega) hprops _ _),
    run_bind_of_ok (run_checkEntries
      (zip_entries_ne_nil TopicSubopts.allTopic (fun e => [[e.opts]]) hne)),
    run_bind_of_ok hread, run_pure]
  case hsize =>
    simp only [List.length_append, length_endianStore, hpropBytes]
    rw [hbytes]
    omega
  simp [topicLengthBufs, Function.comp_def]

/-- The entries of a SUBACK or UNSUBACK are its arguments. -/
theorem subResponse_entries {type : ControlPacketType} {loc : PropertyLocation} {packetId : Nat}
    {params : List UInt8} {props : Properties} {p : SubResponsePacket pb}
    (h : subResponsePacket type loc pb packetId params props = .ok p) : p.entries = params := by
  simp only [subResponsePacket, Except.bind_eq_ok, Except.pure_eq_ok] at h
  obtain ⟨_, -, _, -, _, -, rfl⟩ := h
  rfl

/-- A SUBACK or UNSUBACK is read back, if its reason codes are enumerated. -/
theorem decode_subResponse {type : ControlPacketType} {loc : PropertyLocation}
    {reasonCodes : List UInt8} {packetId : Fin pb.limit} {params : List UInt8}
    {props : Properties} {p : SubResponsePacket pb}
    (hheader : getControlPacketTypeWithCheck (makeFixedHeader type 0b0000) = some type)
    (h : subResponsePacket type loc pb packetId params props = .ok p)
    (hlen : p.remainingLength ≤ 0xfffffff) (hprops : p.props.RoundTrips loc) (hne : params ≠ [])
    (hcodes : ∀ code ∈ params, code ∈ reasonCodes) :
    (SubResponsePacket.decode type loc reasonCodes pb).run p.constBufferSequence.flatten =
      .ok (p, []) := by
  simp only [subResponsePacket, Except.bind_eq_ok, numericCast32_eq_ok, validateProperties_eq_ok,
    Except.pure_eq_ok] at h
  obtain ⟨_, ⟨-, rfl⟩, _, -, _, ⟨-, rfl⟩, rfl⟩ := h
  have hpropBytes := Properties.length_flatten_constBufferSequence props
  simp only at hlen hprops
  simp only [SubResponsePacket.constBufferSequence, List.flatten_cons, List.flatten_append,
    List.flatten_nil, List.append_nil, List.cons_append, List.nil_append]
  rw [SubResponsePacket.decode, run_bind_of_ok (run_readFixedHeaderWithCheck hheader _ _),
    run_bind_of_ok (run_readRemainingLength_append hlen _ _)]
  simp only
  rw [run_bind_of_ok (run_checkRemainingLength ?hsize _),
    run_bind_of_ok (run_readBytes_append (length_endianStore _ _) _),
    run_bind_of_ok (run_readProperties_append (by omega) hprops _ _),
    run_bind_of_ok (run_checkEntries hne), run_bind_of_ok (run_many_readCode hcodes), run_pure]
  case hsize =>
    simp only [List.length_append, length_endianStore, hpropBytes]
    omega

/-- The reason codes of a SUBACK or UNSUBACK that is accepted are enumerators. -/
theorem decode_subResponse_ok {type : ControlPacketType} {loc : PropertyLocation}
    {reasonCodes : List UInt8} {buf rest : List UInt8} {p : SubResponsePacket pb}
    (h : (SubResponsePacket.decode type loc reasonCodes pb).run buf = .ok (p, rest)) :
    ∀ code ∈ p.entries, code ∈ reasonCodes := by
  rw [SubResponsePacket.decode] at h
  obtain ⟨_, _, -, h⟩ := run_bind_ok h
  obtain ⟨_, _, -, h⟩ := run_bind_ok h
  obtain ⟨_, _, -, h⟩ := run_bind_ok h
  obtain ⟨_, _, -, h⟩ := run_bind_ok h
  obtain ⟨_, _, -, h⟩ := run_bind_ok h
  obtain ⟨_, _, -, h⟩ := run_bind_ok h
  obtain ⟨_, _, hmany, h⟩ := run_bind_ok h
  cases h
  exact run_many_forall (fun _ _ _ => run_readCode_ok) hmany

/-- The entries of an UNSUBSCRIBE are its arguments. -/
theorem unsubscribe_entries {packetId : Nat} {params : List TopicSharename} {props : Properties}
    {p : UnsubscribePacket pb} (h : unsubscribePacket pb packetId params props = .ok p) :
    p.entries = params := by
  simp only [unsubscribePacket, Except.bind_eq_ok, Except.pure_eq_ok] at h
  obtain ⟨_, -, _, -, _, -, _, -, _, -, rfl⟩ := h
  rfl

/-- An UNSUBSCRIBE is read back, if it has an entry. -/
theorem decode_unsubscribe {packetId : Fin pb.limit} {params : List TopicSharename}
    {props : Properties} {p : UnsubscribePacket pb}
    (h : unsubscribePacket pb packetId params props = .ok p)
    (hlen : p.remainingLength ≤ 0xfffffff) (hprops : p.props.RoundTrips .unsubscribe)
    (hne : params ≠ []) :
    (UnsubscribePacket.decode pb).run p.constBufferSequence.flatten = .ok (p, []) := by
  simp only [unsubscribePacket, Except.bind_eq_ok, throwIf_eq_ok, checkTopicSizes_eq_ok,
    forEach_eq_ok, numericCast32_eq_ok, validateProperties_eq_ok, Except.pure_eq_ok] at h
  obtain ⟨_, hsizes, _, ⟨-, rfl⟩, _, -, _, hentries, _, ⟨-, rfl⟩, rfl⟩ := h
  have hread := run_many_zip_entries TopicSharename.allTopic (fun _ => [])
    V311.UnsubscribePacket.readEntry params fun e he rest =>
      V311.run_readEntry_unsubscribe (hsizes _ (List.mem_map_of_mem he))
        (by simpa using hentries e he) rest
  have hbytes := length_zip_entries TopicSharename.allTopic (fun _ => []) 0 (fun _ => rfl) params
  have hpropBytes := Properties.length_flatten_constBufferSequence props
  simp only at hlen hprops
  simp only [UnsubscribePacket.constBufferSequence, List.flatten_cons, List.flatten_append,
    List.cons_append, List.nil_append]
  rw [UnsubscribePacket.decode, run_bind_of_ok (run_readFixedHeaderWithCheck rfl _ _),
    run_bind_of_ok (run_readRemainingLength_append hlen _ _)]
  simp only
  rw [run_bind_of_ok (run_checkRemainingLength ?hsize _),
    run_bind_of_ok (run_readBytes_append (length_endianStore _ _) _),
    run_bind_of_ok (run_readProperties_append (by omega) hprops _ _),
    run_bind_of_ok (run_checkEntries
      (zip_entries_ne_nil TopicSharename.allTopic (fun _ => []) hne)),
    run_bind_of_ok hread, run_pure]
  case hsize =>
    simp only [List.length_append, length_endianStore, hpropBytes]
    rw [hbytes]
    simp only [Nat.add_zero]
    omega
  simp [topicLengthBufs, Function.comp_def]

/-! ### Through the dispatch -/

/-- What the v5.0 decoder of a control packet type accepts has at least two bytes,
    and is a packet of that type. -/
theorem decodeV5_ok {cpt : ControlPacketType} {buf mid : List UInt8} {q : PacketVariant pb}
    (h : (decodeV5 pb cpt).run buf = .ok (q, mid)) :
    q.type = cpt ∧ ∃ b rest, buf = b :: rest ∧ rest ≠ [] := by
  -- every decoder reads the fixed header first
  cases cpt with
  | pingreq | pingresp =>
    obtain ⟨p, hp, rfl⟩ := run_map_ok h
    obtain ⟨b, rest, hb, htail⟩ := run_bind_ok hp
    obtain ⟨rfl, -⟩ := run_readFixedHeaderWithCheck_ok hb
    obtain ⟨buf, rest', hrem, hcheckLen⟩ := run_bind_ok htail
    cases hrem
    obtain ⟨_, _, hne, -⟩ := run_bind_ok hcheckLen
    exact ⟨rfl, b, _, rfl, (run_failIf_ok hne).1⟩
  | connect | connack | subscribe | suback | unsubscribe | unsuback =>
    obtain ⟨p, hp, rfl⟩ := run_map_ok h
    obtain ⟨b, rest, hb, htail⟩ := run_bind_ok hp
    obtain ⟨rfl, -⟩ := run_readFixedHeaderWithCheck_ok hb
    obtain ⟨rl, rest', hrl, -⟩ := run_bind_ok htail
    exact ⟨rfl, b, rest, rfl, ne_nil_of_run_readRemainingLength hrl⟩
  | publish | puback | pubrec | pubrel | pubcomp | disconnect | auth =>
    obtain ⟨p, hp, rfl⟩ := run_map_ok h
    obtain ⟨b, rest, hb, htail⟩ := run_bind_ok hp
    obtain rfl := run_readByte_ok hb
    obtain ⟨rl, rest', hrl, -⟩ := run_bind_ok htail
    exact ⟨rfl, b, rest, rfl, ne_nil_of_run_readRemainingLength hrl⟩

/-- A packet that round trips is decoded to one that shows the same. -/
theorem decodeV5_of_roundTrips {v : PacketVariant pb} (h : v.RoundTrips .v5) :
    ∃ b rest q mid, v.bytes = b :: rest ∧ getControlPacketType b = some v.type ∧
      (decodeV5 pb v.type).run v.bytes = .ok (q, mid) ∧ q.view = v.view := by
  apply h.run_decoder
  · intro b rest cpt hrest hb
    rw [run_bufferToPacketVariant _ _ _ hrest, hb]
  · exact fun cpt buf q mid hrun => (decodeV5_ok hrun).1

/-- The first byte of the packet says its type. -/
def HasHeader (v : PacketVariant pb) : Prop :=
  ∃ b, v.bytes.head? = some b ∧ getControlPacketType b = some v.type

/-- A packet whose bytes decode to one that shows the same round trips. -/
theorem roundTrips_of_run {v q : PacketVariant pb} {mid : List UInt8} (hheader : HasHeader v)
    (hrun : (decodeV5 pb v.type).run v.bytes = .ok (q, mid)) (hview : q.view = v.view) :
    v.RoundTrips .v5 := by
  obtain ⟨b, hhead, hb⟩ := hheader
  obtain ⟨-, b', rest, hbytes, hrest⟩ := decodeV5_ok hrun
  obtain rfl : b' = b := by
    rw [hbytes] at hhead
    exact Option.some.inj hhead
  refine ⟨q, mid, ?_, hview⟩
  rw [hbytes, run_bufferToPacketVariant _ _ _ hrest, hb, ← hbytes]
  exact hrun

/-! ### Packets with a packet identifier -/

namespace IdCall

/-- Only the options of PUBLISH can spoil the type in the header. -/
theorem hasHeader (c : IdCall pb) {v : PacketVariant pb} (h : c.build = .ok v)
    (hc : c.RoundTrips) : HasHeader v := by
  cases c with
  | publish packetId topicName payloads pubopts props =>
    obtain ⟨p, hp, rfl⟩ := Except.map_eq_ok.mp h
    exact ⟨_, congrArg some (publish_opts hp), (publish_header_iff pubopts).mpr hc.1⟩
  | puback packetId args | pubrec packetId args | pubrel packetId args | pubcomp packetId args =>
    obtain ⟨p, hp, rfl⟩ := Except.map_eq_ok.mp h
    obtain ⟨n, -, hp'⟩ := pubResponse_eq_ok hp
    exact ⟨p.fixedHeader, rfl, by
      rw [hp']; exact getControlPacketType_makeFixedHeader _ (by decide)⟩
  | subscribe packetId params props =>
    obtain ⟨p, hp, rfl⟩ := Except.map_eq_ok.mp h
    simp only [subscribePacket, Except.bind_eq_ok, Except.pure_eq_ok] at hp
    obtain ⟨_, -, _, -, _, -, _, -, _, -, rfl⟩ := hp
    exact ⟨_, rfl, getControlPacketType_makeFixedHeader _ (by decide)⟩
  | suback packetId params props | unsuback packetId params props =>
    obtain ⟨p, hp, rfl⟩ := Except.map_eq_ok.mp h
    simp only [subackPacket, unsubackPacket, subResponsePacket, Except.bind_eq_ok,
      Except.pure_eq_ok] at hp
    obtain ⟨_, -, _, -, _, -, rfl⟩ := hp
    exact ⟨_, rfl, getControlPacketType_makeFixedHeader _ (by decide)⟩
  | unsubscribe packetId params props =>
    obtain ⟨p, hp, rfl⟩ := Except.map_eq_ok.mp h
    simp only [unsubscribePacket, Except.bind_eq_ok, Except.pure_eq_ok] at hp
    obtain ⟨_, -, _, -, _, -, _, -, _, -, rfl⟩ := hp
    exact ⟨_, rfl, getControlPacketType_makeFixedHeader _ (by decide)⟩

/-- A packet that was built round trips if its properties and its arguments do. -/
theorem roundTrips_of_call (c : IdCall pb) {v : PacketVariant pb} (h : c.build = .ok v)
    (hlen : v.remainingLength ≤ 268435455) (hentries : v.HasEntries) (hprops : v.PropsRoundTrip)
    (hc : c.RoundTrips) : v.RoundTrips .v5 := by
  have hheader := c.hasHeader h hc
  -- each constructor has its decoder, and the properties are those of its location
  cases c with
  | publish packetId topicName payloads pubopts props =>
    obtain ⟨p, hp, rfl⟩ := Except.map_eq_ok.mp h
    have hrun := decode_publish hp hlen (hprops (.publish, p.props) (.head _)) hc.2
    exact roundTrips_of_run hheader (run_map_of_ok hrun) (view_decoded p)
  | puback packetId args =>
    obtain ⟨p, hp, rfl⟩ := Except.map_eq_ok.mp h
    have hps : p.props.RoundTrips .puback := hprops (.puback, p.props) (.head _)
    exact roundTrips_of_run hheader (run_map_of_ok (decode_pubResponse hp hlen hps hc.1 hc.2)) rfl
  | pubrec packetId args =>
    obtain ⟨p, hp, rfl⟩ := Except.map_eq_ok.mp h
    have hps : p.props.RoundTrips .pubrec := hprops (.pubrec, p.props) (.head _)
    exact roundTrips_of_run hheader (run_map_of_ok (decode_pubResponse hp hlen hps hc.1 hc.2)) rfl
  | pubrel packetId args =>
    obtain ⟨p, hp, rfl⟩ := Except.map_eq_ok.mp h
    have hps : p.props.RoundTrips .pubrel := hprops (.pubrel, p.props) (.head _)
    exact roundTrips_of_run hheader (run_map_of_ok (decode_pubResponse hp hlen hps hc.1 hc.2)) rfl
  | pubcomp packetId args =>
    obtain ⟨p, hp, rfl⟩ := Except.map_eq_ok.mp h
    have hps : p.props.RoundTrips .pubcomp := hprops (.pubcomp, p.props) (.head _)
    exact roundTrips_of_run hheader (run_map_of_ok (decode_pubResponse hp hlen hps hc.1 hc.2)) rfl
  | subscribe packetId params props =>
    obtain ⟨p, hp, rfl⟩ := Except.map_eq_ok.mp h
    have hparams := subscribe_entries hp
    have hrun := decode_subscribe hp hlen (hprops (.subscribe, p.props) (.head _))
      (hparams ▸ hentries)
    exact roundTrips_of_run hheader (run_map_of_ok hrun) rfl
  | suback packetId params props =>
    obtain ⟨p, hp, rfl⟩ := Except.map_eq_ok.mp h
    have hparams := subResponse_entries hp
    have hrun := decode_subResponse rfl hp hlen (hprops (.suback, p.props) (.head _))
      (hparams ▸ hentries) hc
    exact roundTrips_of_run hheader (run_map_of_ok hrun) rfl
  | unsubscribe packetId params props =>
    obtain ⟨p, hp, rfl⟩ := Except.map_eq_ok.mp h
    have hparams := unsubscribe_entries hp
    have hrun := decode_unsubscribe hp hlen (hprops (.unsubscribe, p.props) (.head _))
      (hparams ▸ hentries)
    exact roundTrips_of_run hheader (run_map_of_ok hrun) rfl
  | unsuback packetId params props =>
    obtain ⟨p, hp, rfl⟩ := Except.map_eq_ok.mp h
    have hparams := subResponse_entries hp
    have hrun := decode_subResponse rfl hp hlen (hprops (.unsuback, p.props) (.head _))
      (hparams ▸ hentries) hc
    exact roundTrips_of_run hheader (run_map_of_ok hrun) rfl

/-- The reason arguments of a packet that is decoded to itself. -/
theorem reasonArgs_of_decoded {type : ControlPacketType} {flags : UInt8} {loc : PropertyLocation}
    {reasonCodes : List UInt8} {packetId : Nat} {args : ReasonArgs} {p p' : PubResponsePacket pb}
    {mid : List UInt8} (hzero : 0 ∈ reasonCodes)
    (hp : pubResponsePacket type flags loc pb packetId args.reasonCode args.props = .ok p)
    (hdecode : (PubResponsePacket.decode loc reasonCodes pb).run p.constBufferSequence.flatten =
      .ok (p', mid)) (hcode : p'.code = p.code) :
    args.Enumerated reasonCodes ∧ (args.BareCode → pb = .two) := by
  obtain ⟨n, hmake, -⟩ := pubResponse_eq_ok hp
  constructor
  · exact ReasonTail.enumerated_of_code hzero (ReasonTail.make_reasonCode hmake) hcode
      (decode_pubResponse_ok hdecode)
  · intro hbare
    cases pb with
    | two => rfl
    | four => exact absurd hdecode (decode_pubResponse_bareCode hp hbare)

/-- A packet that round trips was built from arguments that do. -/
theorem call_of_roundTrips (c : IdCall pb) {v : PacketVariant pb} (h : c.build = .ok v)
    (hv : v.RoundTrips .v5) : c.RoundTrips := by
  obtain ⟨b, rest, q, mid, hbytes, hb, hrun, hview⟩ := decodeV5_of_roundTrips hv
  -- only the PUBLISH, and the codes of the answers, can come back different
  cases c with
  | publish packetId topicName payloads pubopts props =>
    obtain ⟨p, hp, rfl⟩ := Except.map_eq_ok.mp h
    obtain ⟨p', hdecode, rfl⟩ := run_map_ok hrun
    have hopts : p'.opts = p.opts := congrArg PacketView.opts hview
    have hhead : b = p.opts := (List.cons.inj hbytes).1.symm
    have hqos := decode_publish_ok hdecode
    rw [hhead, publish_opts hp] at hb
    rw [hopts, publish_opts hp, getQos_publish_header] at hqos
    exact ⟨(publish_header_iff pubopts).mp hb, hqos⟩
  | puback packetId args | pubrec packetId args | pubrel packetId args | pubcomp packetId args =>
    obtain ⟨p, hp, rfl⟩ := Except.map_eq_ok.mp h
    obtain ⟨p', hdecode, rfl⟩ := run_map_ok hrun
    exact reasonArgs_of_decoded (by decide) hp hdecode (congrArg PacketView.code hview)
  | suback packetId params props | unsuback packetId params props =>
    obtain ⟨p, hp, rfl⟩ := Except.map_eq_ok.mp h
    obtain ⟨p', hdecode, rfl⟩ := run_map_ok hrun
    have hentries : p'.entries = params :=
      (congrArg PacketView.codes hview).trans (subResponse_entries hp)
    exact hentries ▸ decode_subResponse_ok hdecode
  | _ => trivial

/-- A packet comes back from the wire as itself exactly for the calls that `IdCall.RoundTrips`
    describes. -/
theorem roundTrips_iff (c : IdCall pb) {v : PacketVariant pb} (h : c.build = .ok v)
    (hlen : v.remainingLength ≤ 268435455) (hentries : v.HasEntries) (hprops : v.PropsRoundTrip) :
    v.RoundTrips .v5 ↔ c.RoundTrips :=
  ⟨c.call_of_roundTrips h, c.roundTrips_of_call h hlen hentries hprops⟩

end IdCall

/-! ### All packets -/

/-- The call as one with a packet identifier, if it has one. -/
def Call.idCall : Call → Option (IdCall .two)
  | publish packetId topicName payloads pubopts props =>
    some (.publish packetId topicName payloads pubopts props)
  | puback packetId args => some (.puback packetId args)
  | pubrec packetId args => some (.pubrec packetId args)
  | pubrel packetId args => some (.pubrel packetId args)
  | pubcomp packetId args => some (.pubcomp packetId args)
  | subscribe packetId params props => some (.subscribe packetId params props)
  | suback packetId params props => some (.suback packetId params props)
  | unsubscribe packetId params props => some (.unsubscribe packetId params props)
  | unsuback packetId params props => some (.unsuback packetId params props)
  | _ => none

/-- Both widths have the same constructors for the two-byte identifier. -/
theorem Call.build_idCall {c : Call} {ic : IdCall .two} (h : c.idCall = some ic) :
    ic.build = c.build := by
  cases c <;> cases h <;> rfl

/-- With two-byte packet identifiers a reason code may stand alone. -/
theorem Call.roundTrips_idCall {c : Call} {ic : IdCall .two} (h : c.idCall = some ic) :
    ic.RoundTrips ↔ c.RoundTrips := by
  cases c <;> cases h <;> simp [Call.RoundTrips, IdCall.RoundTrips]

/-- The first byte of a packet without an identifier is a plain header. -/
theorem hasHeader_of_build {c : Call} {v : PacketVariant .two} (h : c.build = .ok v)
    (hid : c.idCall = none) : HasHeader v := by
  cases c with
  | connect cleanStart keepAliveSec clientId w userName password props =>
    obtain ⟨p, hp, rfl⟩ := Except.map_eq_ok.mp h
    simp only [connectPacket, Except.bind_eq_ok, Except.pure_eq_ok] at hp
    obtain ⟨_, -, _, -, _, -, _, -, ⟨_, _⟩, -, ⟨_, _⟩, -, _, -, ⟨⟨_, _⟩, _, _⟩, -, ⟨_, _, _⟩, -, _, -,
      rfl⟩ := hp
    exact ⟨_, rfl, getControlPacketType_makeFixedHeader _ (by decide)⟩
  | connack sessionPresent reasonCode props =>
    obtain ⟨p, hp, rfl⟩ := Except.map_eq_ok.mp h
    simp only [connackPacket, Except.bind_eq_ok, Except.pure_eq_ok] at hp
    obtain ⟨_, -, _, -, _, -, rfl⟩ := hp
    exact ⟨_, rfl, getControlPacketType_makeFixedHeader _ (by decide)⟩
  | pingreq | pingresp =>
    cases h
    exact ⟨_, rfl, getControlPacketType_makeFixedHeader _ (by decide)⟩
  | disconnect args | auth args =>
    obtain ⟨p, hp, rfl⟩ := Except.map_eq_ok.mp h
    obtain ⟨n, -, hp'⟩ := reason_eq_ok hp
    exact ⟨p.fixedHeader, rfl, by
      rw [hp']; exact getControlPacketType_makeFixedHeader _ (by decide)⟩
  | _ => exact nomatch hid

/-- Every call that meets the condition builds a packet that comes back. -/
theorem roundTrips_of_call {c : Call} {v : PacketVariant .two} (h : c.build = .ok v)
    (hlen : v.remainingLength ≤ 268435455) (hentries : v.HasEntries) (hprops : v.PropsRoundTrip)
    (hc : c.RoundTrips) : v.RoundTrips .v5 := by
  -- the constructors with an identifier share their argument
  cases hid : c.idCall with
  | some ic =>
    rw [← Call.build_idCall hid] at h
    exact ic.roundTrips_of_call h hlen hentries hprops ((Call.roundTrips_idCall hid).mpr hc)
  | none =>
  have hheader := hasHeader_of_build h hid
  cases c with
  | connect cleanStart keepAliveSec clientId w userName password props =>
    obtain ⟨p, hp, rfl⟩ := Except.map_eq_ok.mp h
    have hrun := decode_connect hp hlen (hprops (.connect, p.props) (.head _))
      (hprops (.will, p.willProps) (.tail _ (.head _)))
      (by rintro w' rfl; exact hc)
    exact roundTrips_of_run hheader (run_map_of_ok hrun) rfl
  | connack sessionPresent reasonCode props =>
    obtain ⟨p, hp, rfl⟩ := Except.map_eq_ok.mp h
    have hrun := decode_connack hp hlen (hprops (.connack, p.props) (.head _)) hc
    exact roundTrips_of_run hheader (run_map_of_ok hrun) rfl
  | pingreq => cases h; exact ⟨_, _, rfl, rfl⟩
  | pingresp => cases h; exact ⟨_, _, rfl, rfl⟩
  | disconnect args =>
    obtain ⟨p, hp, rfl⟩ := Except.map_eq_ok.mp h
    have hcode : args.Enumerated disconnectReasonCodes := hc
    have hrun := decode_reason hp hlen (hprops (.disconnect, p.props) (.head _)) hcode
    exact roundTrips_of_run hheader (run_map_of_ok hrun) rfl
  | auth args =>
    obtain ⟨p, hp, rfl⟩ := Except.map_eq_ok.mp h
    have hcode : args.Enumerated authReasonCodes := hc
    have hrun := decode_reason hp hlen (hprops (.auth, p.props) (.head _)) hcode
    exact roundTrips_of_run hheader (run_map_of_ok hrun) rfl
  | _ => exact nomatch hid

/-- A packet that comes back is one that the condition allows. -/
theorem call_of_roundTrips {c : Call} {v : PacketVariant .two} (h : c.build = .ok v)
    (hv : v.RoundTrips .v5) : c.RoundTrips := by
  cases hid : c.idCall with
  | some ic =>
    rw [← Call.build_idCall hid] at h
    exact (Call.roundTrips_idCall hid).mp (ic.call_of_roundTrips h hv)
  | none =>
  -- the packet was decoded, and what it shows is what the constructor was given
  obtain ⟨b, rest, q, mid, hbytes, hb, hrun, hview⟩ := decodeV5_of_roundTrips hv
  cases c with
  | connect cleanStart keepAliveSec clientId w userName password props =>
    cases w with
    | none => trivial
    | some w =>
      obtain ⟨p, hp, rfl⟩ := Except.map_eq_ok.mp h
      obtain ⟨p', hdecode, rfl⟩ := run_map_ok hrun
      have hflags := connect_flags hp
      have hspec := ConnectFlags.make_spec cleanStart (some w) userName password
      have hwill : p'.getWill = p.getWill := congrArg PacketView.will hview
      have hqos := willQos_of_getWill hwill (by rw [hflags, hspec.will]; rfl)
      have hne := decode_connect_ok hdecode hqos.1
      rw [hqos.2, hflags, hspec.willQos] at hne
      exact hne
  | connack sessionPresent reasonCode props =>
    obtain ⟨p, hp, rfl⟩ := Except.map_eq_ok.mp h
    obtain ⟨p', hdecode, rfl⟩ := run_map_ok hrun
    have hcode : p'.code = reasonCode := (congrArg PacketView.code hview).trans (connack_code hp)
    exact hcode ▸ decode_connack_ok hdecode
  | disconnect args | auth args =>
    obtain ⟨p, hp, rfl⟩ := Except.map_eq_ok.mp h
    obtain ⟨p', hdecode, rfl⟩ := run_map_ok hrun
    obtain ⟨n, hmake, -⟩ := reason_eq_ok hp
    have hcode : p'.tail.code = p.tail.code := congrArg PacketView.code hview
    exact ReasonTail.enumerated_of_code (by decide) (ReasonTail.make_reasonCode hmake) hcode
      (decode_reason_ok hdecode)
  | pingreq | pingresp => trivial
  | _ => exact nomatch hid

/-- A v5.0 packet that a public constructor built comes back from the wire as itself
    exactly for the calls that `Call.RoundTrips` describes. -/
theorem build_round_trip_iff_v5 (c : Call) (v : PacketVariant .two) (h : c.build = .ok v)
    (hlen : v.remainingLength ≤ 268435455) (hentries : v.HasEntries) (hprops : v.PropsRoundTrip) :
    v.RoundTrips .v5 ↔ c.RoundTrips :=
  ⟨call_of_roundTrips h, roundTrips_of_call h hlen hentries hprops⟩

/-- The condition can be met: a QoS 1 PUBLISH with a topic alias. -/
theorem publish_with_alias_round_trip :
    ∃ v : PacketVariant .two,
      Call.build (.publish ⟨1, by decide⟩ [97] [[1, 2], [3]] 0b00000010 [.topicAlias 5]) = .ok v ∧
        v.RoundTrips .v5 := by
  refine ⟨_, rfl, ?_⟩
  refine (build_round_trip_iff_v5 (.publish ⟨1, by decide⟩ [97] [[1, 2], [3]] 0b00000010
    [.topicAlias 5]) _ rfl (by decide) trivial ?_).mpr ⟨by decide, by decide⟩
  intro x hx
  obtain rfl := List.mem_singleton.mp hx
  rfl

/-- The constructor takes a PUBLISH with QoS 3 and no packet identifier, the decoder
    does not. -/
theorem publish_qos3_not_decoded :
    ¬ ∀ (c : Call) (v : PacketVariant .two), c.build = .ok v → v.remainingLength ≤ 268435455 →
      v.HasEntries → v.PropsRoundTrip → v.RoundTrips .v5 := by
  intro h
  have hround := h (.publish ⟨0, by decide⟩ [97] [] 0b00000110 []) _ rfl (by decide) trivial (by
    intro x hx
    obtain rfl := List.mem_singleton.mp hx
    rfl)
  obtain ⟨q, rest, hrun, -⟩ := hround
  exact nomatch hrun

end V5

end AsyncMqtt
