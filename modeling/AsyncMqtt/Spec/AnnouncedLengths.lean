import AsyncMqtt.Spec.RoundTripV5

/-!
# Announced lengths

A packet announces lengths in several places: `size()` and `num_of_const_buffer_sequence()` to its
caller, the remaining length and the property lengths to the receiver. For every packet that a
public constructor builds, each of them is the length of what it stands for.

## Key results

- `AnnouncedLengths`: what a packet announces is what it has
- `ConstructorCall.announcedLengths_of_build`: it holds for each constructor of both versions
-/

namespace AsyncMqtt

namespace PacketVariant

variable {pb : PacketIdBytes}

/-- The property length of PUBACK and its like is there if its bytes are. -/
def tailPropertyFields (index : Nat) (t : V5.ReasonTail) : List (Nat × Properties) :=
  match t.reasonCode with
  | none => []
  | some _ => if t.propertyLengthBuf.length = 0 then [] else [(index, t.props)]

/-- The property lengths of the packet: the index of the buffer that holds it, and the properties
    that follow. -/
def propertyFields : PacketVariant pb → List (Nat × Properties)
  | v5Connect p =>
    (5, p.props) :: if ConnectFlags.hasWillFlag p.connectFlags then
      [(5 + 1 + p.props.constBufferSequence.length + 2, p.willProps)] else []
  | v5Connack p => [(4, p.props)]
  | v5Publish p => [(if p.packetId ≠ 0 then 5 else 4, p.props)]
  | v5Puback p | v5Pubrec p | v5Pubrel p | v5Pubcomp p => tailPropertyFields 4 p.tail
  | v5Subscribe p => [(3, p.props)]
  | v5Suback p | v5Unsuback p => [(3, p.props)]
  | v5Unsubscribe p => [(3, p.props)]
  | v5Disconnect p | v5Auth p => tailPropertyFields 3 p.tail
  | _ => []

end PacketVariant

/-- In `bufs` a property length stands at the index, and it decodes to the number of bytes of the
    properties after it. -/
def PropertyLengthAt (bufs : List Buffer) (index : Nat) (props : Properties) : Prop :=
  ∃ before lengthBuf after, bufs = before ++ lengthBuf :: (props.constBufferSequence ++ after) ∧
    before.length = index ∧
    variableBytesToVal (lengthBuf ++ (props.constBufferSequence.flatten ++ after.flatten)) =
      some (props.constBufferSequence.flatten.length,
        props.constBufferSequence.flatten ++ after.flatten)

/-- What the packet announces is what it has. -/
structure AnnouncedLengths {pb : PacketIdBytes} (v : PacketVariant pb) : Prop where
  size : v.bytes.length = v.size
  buffers : v.constBufferSequence.length = v.numOfConstBufferSequence
  remainingLength : ∃ b rest body, v.bytes = b :: rest ∧
    variableBytesToVal rest = some (body.length, body)
  propertyLength : ∀ f ∈ v.propertyFields, PropertyLengthAt v.constBufferSequence f.1 f.2

/-! ### Buffers -/

/-- The properties have as many buffers as they announce. -/
theorem Properties.length_constBufferSequence (props : Properties) :
    props.constBufferSequence.length = props.numOfConstBufferSequence := by
  induction props with
  | nil => rfl
  | cons p props ih =>
    have hp : p.constBufferSequence.length = p.numOfConstBufferSequence := by cases p <;> rfl
    simp only [Properties.constBufferSequence, Properties.numOfConstBufferSequence,
      List.flatMap_cons, List.length_append, List.map_cons, List.sum_cons] at ih ⊢
    omega

/-- The number of buffers of the entries of SUBSCRIBE and UNSUBSCRIBE. -/
theorem count_zip_entries {α : Type} (topic : α → Buffer) (tail : α → List Buffer) (n : Nat)
    (htail : ∀ e, (tail e).length = n) (entries : List α) :
    (((topicLengthBufs (entries.map topic)).zip entries).flatMap fun x =>
      x.1 :: topic x.2 :: tail x.2).length = entries.length * (2 + n) := by
  induction entries with
  | nil => simp [topicLengthBufs]
  | cons e entries ih =>
    simp only [topicLengthBufs, List.map_cons, List.zip_cons_cons, List.flatMap_cons,
      List.length_append, List.length_cons, htail] at ih ⊢
    rw [ih, Nat.succ_mul]
    omega

/-- A property length that is written from the size of the properties, in front of them. -/
theorem propertyLengthAt_of_drop {bufs : List Buffer} {index : Nat} {props : Properties}
    (hsize : props.size ≤ 0xfffffff)
    (hdrop : ∃ after, bufs.drop index =
      valToVariableBytes props.size :: (props.constBufferSequence ++ after)) :
    PropertyLengthAt bufs index props := by
  obtain ⟨after, hdrop⟩ := hdrop
  have hindex : index ≤ bufs.length := by
    have := congrArg List.length hdrop
    simp only [List.length_drop, List.length_cons] at this
    omega
  refine ⟨bufs.take index, valToVariableBytes props.size, after, ?_, by simp [hindex], ?_⟩
  · rw [← hdrop, List.take_append_drop]
  · rw [variableBytesToVal_append hsize, Properties.length_flatten_constBufferSequence]

section Frame

variable {pb : PacketIdBytes} {v : PacketVariant pb} {b : UInt8}

/-- A packet whose first two buffers are the header and the remaining length. -/
theorem AnnouncedLengths.of_buffers (hlen : v.remainingLength ≤ 0xfffffff)
    (hbufs : ∃ body, v.constBufferSequence = [b] :: valToVariableBytes v.remainingLength :: body)
    (hsize : v.size = 1 + (valToVariableBytes v.remainingLength).length + v.remainingLength)
    (htotal : v.constBufferSequence.flatten.length = v.size)
    (hcount : v.constBufferSequence.length = v.numOfConstBufferSequence)
    (hprops : ∀ f ∈ v.propertyFields, PropertyLengthAt v.constBufferSequence f.1 f.2) :
    AnnouncedLengths v where
  size := htotal
  buffers := hcount
  remainingLength := by
    obtain ⟨body, hbufs⟩ := hbufs
    have hbody : body.flatten.length = v.remainingLength := by
      rw [hbufs, hsize] at htotal
      simp only [List.flatten_cons, List.length_append, List.length_cons, List.length_nil] at htotal
      omega
    refine ⟨b, valToVariableBytes v.remainingLength ++ body.flatten, body.flatten, ?_, ?_⟩
    · rw [PacketVariant.bytes, hbufs]
      rfl
    · rw [variableBytesToVal_append hlen, hbody]
  propertyLength := hprops

/-- A packet that is kept in one buffer, with a remaining length of one byte. -/
theorem AnnouncedLengths.of_buffer {n : UInt8} {body : Buffer}
    (hbufs : v.constBufferSequence = [b :: n :: body])
    (hread : variableBytesToVal (n :: body) = some (body.length, body))
    (hsize : v.size = (b :: n :: body).length) (hcount : v.numOfConstBufferSequence = 1)
    (hprops : v.propertyFields = []) : AnnouncedLengths v where
  size := by rw [hsize, PacketVariant.bytes, hbufs]; simp
  buffers := by rw [hcount, hbufs]; rfl
  remainingLength := by
    refine ⟨b, n :: body, body, ?_, hread⟩
    rw [PacketVariant.bytes, hbufs]
    simp
  propertyLength := by rw [hprops]; simp

end Frame

/-! ### v3.1.1 -/

namespace V311

variable {pb : PacketIdBytes}

/-- A v3.1.1 CONNECT -/
theorem announced_connect {cleanSession : Bool} {keepAliveSec : UInt16} {clientId : Buffer}
    {w : Option Will} {userName password : Option Buffer} {p : ConnectPacket}
    (h : connectPacket cleanSession keepAliveSec clientId w userName password = .ok p)
    (hlen : p.remainingLength ≤ 0xfffffff) :
    AnnouncedLengths (.v311Connect p : PacketVariant pb) := by
  simp only [connectPacket, Except.bind_eq_ok, throwIf_eq_ok, numericCast16_eq_ok,
    numericCast32_eq_ok, Except.pure_eq_ok] at h
  obtain ⟨_, ⟨hclient, rfl⟩, _, hutf8, ⟨unl, un⟩, hun, ⟨pwl, pw⟩, hpw, ⟨⟨tl, t⟩, ml, m⟩, hwill,
    _, ⟨-, rfl⟩, rfl⟩ := h
  have hspec := ConnectFlags.make_spec cleanSession w userName password
  have hnameLength : protocolNameAndLevel.length = 7 := rfl
  refine .of_buffers hlen ⟨_, rfl⟩ rfl ?_ ?_ (by rintro _ ⟨⟩)
  · simp only [PacketVariant.constBufferSequence, ConnectPacket.constBufferSequence,
      PacketVariant.size, ConnectPacket.size, List.flatten_append, List.flatten_cons,
      List.flatten_nil, List.append_nil, List.length_append, List.length_cons, List.length_nil,
      length_endianStore, hnameLength, length_will hspec.will hwill,
      length_optional hspec.userName hun, length_optional hspec.password hpw]
    omega
  · simp only [PacketVariant.constBufferSequence, ConnectPacket.constBufferSequence,
      PacketVariant.numOfConstBufferSequence, ConnectPacket.numOfConstBufferSequence,
      List.length_append, List.length_cons, List.length_nil]
    split_ifs <;> simp

/-- A v3.1.1 PUBLISH -/
theorem announced_publish {packetId : Fin pb.limit} {topicName : Buffer} {payloads : List Buffer}
    {pubopts : UInt8} {p : PublishPacket pb}
    (h : publishPacket pb packetId topicName payloads pubopts = .ok p)
    (hlen : p.remainingLength ≤ 0xfffffff) : AnnouncedLengths (.v311Publish p) := by
  simp only [publishPacket, Except.bind_eq_ok, throwIf_eq_ok, numericCast16_eq_ok,
    numericCast32_eq_ok, storePublishPacketId_eq_ok, Except.pure_eq_ok] at h
  obtain ⟨_, -, _, ⟨-, rfl⟩, _, -, _, ⟨-, rfl⟩, idBuf, hid, rfl⟩ := h
  have hsum : (payloads.map List.length).sum = payloads.flatten.length := by
    rw [List.length_flatten]
  refine .of_buffers hlen ⟨_, rfl⟩ rfl ?_ ?_ (by rintro _ ⟨⟩)
  · -- the packet identifier is counted for the QoS, and written if it is not 0
    simp only [PacketVariant.constBufferSequence, PublishPacket.constBufferSequence,
      PacketVariant.size, PublishPacket.size, PublishPacket.packetId]
    rcases hid with ⟨hqos, -, rfl⟩ | ⟨hqos, hne, rfl⟩
    · have hload : endianLoad pb.bytes (endianStore sizeofInt 0) = 0 := by cases pb <;> rfl
      have hidSize : publishPacketIdSize pb pubopts = 0 := by
        simp [publishPacketIdSize, hqos, Qos.atLeastOnce, Qos.exactlyOnce]
      simp only [hload, ne_eq, not_true_eq_false, if_false, hidSize, List.flatten_cons,
        List.length_append, List.length_cons, length_endianStore, hsum,
        List.cons_append, List.nil_append, List.append_nil]
      omega
    · have hload : endianLoad pb.bytes (endianStore pb.bytes packetId) = packetId.val :=
        endianLoad_endianStore packetId.isLt
      have hidSize : publishPacketIdSize pb pubopts = pb.bytes := by
        simp [publishPacketIdSize, hqos, Qos.atLeastOnce, Qos.exactlyOnce]
      simp only [hload, ne_eq, hne, not_false_eq_true, if_true, hidSize, List.flatten_cons,
        List.length_append, List.length_cons, length_endianStore, hsum,
        List.cons_append, List.nil_append, List.length_take, Nat.min_self]
      omega
  -- the number of the buffers
  · simp only [PacketVariant.constBufferSequence, PublishPacket.constBufferSequence,
      PacketVariant.numOfConstBufferSequence, PublishPacket.numOfConstBufferSequence, ne_eq,
      ite_not, List.length_append, List.length_cons, List.length_nil]
    split_ifs <;> simp

/-- A v3.1.1 SUBSCRIBE -/
theorem announced_subscribe {packetId : Fin pb.limit} {params : List TopicSubopts}
    {p : SubscribePacket pb} (h : subscribePacket pb packetId params = .ok p)
    (hlen : p.remainingLength ≤ 0xfffffff) : AnnouncedLengths (.v311Subscribe p) := by
  simp only [subscribePacket, Except.bind_eq_ok, throwIf_eq_ok, checkTopicSizes_eq_ok,
    numericCast32_eq_ok, Except.pure_eq_ok] at h
  obtain ⟨_, -, _, -, _, -, _, ⟨-, rfl⟩, rfl⟩ := h
  have hbytes := length_zip_entries TopicSubopts.allTopic (fun e => [[e.opts]]) 1 (fun _ => rfl)
    params
  have hbufs := count_zip_entries TopicSubopts.allTopic (fun e => [[e.opts]]) 1 (fun _ => rfl)
    params
  refine .of_buffers hlen ⟨_, rfl⟩ rfl ?_ ?_ (by rintro _ ⟨⟩)
  · simp only [PacketVariant.constBufferSequence, SubscribePacket.constBufferSequence,
      PacketVariant.size, SubscribePacket.size, List.flatten_append, List.flatten_cons,
      List.flatten_nil, List.append_nil, List.length_append, List.length_cons, List.length_nil,
      length_endianStore]
    rw [hbytes]
    omega
  · simp only [PacketVariant.constBufferSequence, SubscribePacket.constBufferSequence,
      PacketVariant.numOfConstBufferSequence, SubscribePacket.numOfConstBufferSequence,
      List.length_append, List.length_cons, List.length_nil]
    rw [hbufs]

/-- A v3.1.1 SUBACK -/
theorem announced_suback {packetId : Fin pb.limit} {params : List UInt8} {p : SubackPacket pb}
    (h : subackPacket pb packetId params = .ok p) (hlen : p.remainingLength ≤ 0xfffffff) :
    AnnouncedLengths (.v311Suback p) := by
  simp only [subackPacket, Except.bind_eq_ok, numericCast32_eq_ok, Except.pure_eq_ok] at h
  obtain ⟨_, ⟨-, rfl⟩, rfl⟩ := h
  refine .of_buffers hlen ⟨_, rfl⟩ rfl ?_ rfl nofun
  simp only [PacketVariant.constBufferSequence, SubackPacket.constBufferSequence,
    PacketVariant.size, SubackPacket.size, List.flatten_cons, List.flatten_nil, List.append_nil,
    List.length_append, List.length_cons, List.length_nil, length_endianStore]
  omega

/-- A v3.1.1 UNSUBSCRIBE -/
theorem announced_unsubscribe {packetId : Fin pb.limit} {params : List TopicSharename}
    {p : UnsubscribePacket pb} (h : unsubscribePacket pb packetId params = .ok p)
    (hlen : p.remainingLength ≤ 0xfffffff) : AnnouncedLengths (.v311Unsubscribe p) := by
  simp only [unsubscribePacket, Except.bind_eq_ok, checkTopicSizes_eq_ok, numericCast32_eq_ok,
    Except.pure_eq_ok] at h
  obtain ⟨_, -, _, -, _, ⟨-, rfl⟩, rfl⟩ := h
  have hbytes := length_zip_entries TopicSharename.allTopic (fun _ => []) 0 (fun _ => rfl) params
  have hbufs := count_zip_entries TopicSharename.allTopic (fun _ => []) 0 (fun _ => rfl) params
  refine .of_buffers hlen ⟨_, rfl⟩ rfl ?_ ?_ (by rintro _ ⟨⟩)
  · simp only [PacketVariant.constBufferSequence, UnsubscribePacket.constBufferSequence,
      PacketVariant.size, UnsubscribePacket.size, List.flatten_append, List.flatten_cons,
      List.flatten_nil, List.append_nil, List.length_append, List.length_cons, List.length_nil,
      length_endianStore]
    rw [hbytes]
    simp only [Nat.add_zero]
    omega
  · simp only [PacketVariant.constBufferSequence, UnsubscribePacket.constBufferSequence,
      PacketVariant.numOfConstBufferSequence, UnsubscribePacket.numOfConstBufferSequence,
      List.length_append, List.length_cons, List.length_nil]
    rw [hbufs]

/-- Every v3.1.1 packet has the lengths that it announces. -/
theorem Call.announcedLengths (c : Call pb) {v : PacketVariant pb} (h : c.build = .ok v)
    (hlen : v.remainingLength ≤ 0xfffffff) : AnnouncedLengths v := by
  cases c with
  | connect cleanSession keepAliveSec clientId w userName password =>
    obtain ⟨p, hp, rfl⟩ := Except.map_eq_ok.mp h
    exact announced_connect hp hlen
  | publish packetId topicName payloads pubopts =>
    obtain ⟨p, hp, rfl⟩ := Except.map_eq_ok.mp h
    exact announced_publish hp hlen
  | subscribe packetId params =>
    obtain ⟨p, hp, rfl⟩ := Except.map_eq_ok.mp h
    exact announced_subscribe hp hlen
  | suback packetId params =>
    obtain ⟨p, hp, rfl⟩ := Except.map_eq_ok.mp h
    exact announced_suback hp hlen
  | unsubscribe packetId params =>
    obtain ⟨p, hp, rfl⟩ := Except.map_eq_ok.mp h
    exact announced_unsubscribe hp hlen
  | puback packetId | pubrec packetId | pubrel packetId | pubcomp packetId | unsuback packetId =>
    cases h
    -- the remaining length is the width of a packet identifier
    refine .of_buffer rfl ?_ rfl rfl rfl
    cases pb <;> rfl
  | connack sessionPresent returnCode =>
    cases h
    exact .of_buffer rfl rfl rfl rfl rfl
  | pingreq | pingresp | disconnect =>
    cases h
    exact .of_buffer rfl rfl rfl rfl rfl

end V311

/-! ### v5.0 -/

namespace V5

variable {pb : PacketIdBytes}

/-- A call of a public constructor of a v5.0 packet without a packet identifier. -/
inductive PlainCall where
  | connect (cleanStart : Bool) (keepAliveSec : UInt16) (clientId : Buffer) (w : Option Will)
      (userName password : Option Buffer) (props : Properties)
  | connack (sessionPresent : Bool) (reasonCode : UInt8) (props : Properties)
  | pingreq
  | pingresp
  | disconnect (args : ReasonArgs)
  | auth (args : ReasonArgs)

/-- The packet that the call builds, or what it throws. -/
def PlainCall.build (pb : PacketIdBytes) : PlainCall → Except Exception (PacketVariant pb)
  | connect cleanStart keepAliveSec clientId w userName password props =>
    .v5Connect <$> connectPacket cleanStart keepAliveSec clientId w userName password props
  | connack sessionPresent reasonCode props =>
    .v5Connack <$> connackPacket sessionPresent reasonCode props
  | pingreq => .ok (.v5Pingreq (TwoBytePacket.make .pingreq))
  | pingresp => .ok (.v5Pingresp (TwoBytePacket.make .pingresp))
  | disconnect args => .v5Disconnect <$> disconnectPacket args.reasonCode args.props
  | auth args => .v5Auth <$> authPacket args.reasonCode args.props

/-- A v5 CONNECT, with the properties of its will -/
theorem announced_connect {cleanStart : Bool} {keepAliveSec : UInt16} {clientId : Buffer}
    {w : Option Will} {userName password : Option Buffer} {props : Properties} {p : ConnectPacket}
    (h : connectPacket cleanStart keepAliveSec clientId w userName password props = .ok p)
    (hlen : p.remainingLength ≤ 0xfffffff) :
    AnnouncedLengths (.v5Connect p : PacketVariant pb) := by
  simp only [connectPacket, Except.bind_eq_ok, throwIf_eq_ok, numericCast16_eq_ok,
    numericCast32_eq_ok, validateProperties_eq_ok, Except.pure_eq_ok] at h
  obtain ⟨_, ⟨-, rfl⟩, _, ⟨-, rfl⟩, _, ⟨hclient, rfl⟩, _, hutf8, ⟨unl, un⟩, hun, ⟨pwl, pw⟩, hpw, _,
    -, ⟨⟨tl, t⟩, ml, m⟩, hwill, ⟨n, nbuf, wps⟩, hwp, _, ⟨-, rfl⟩, rfl⟩ := h
  have hspec := ConnectFlags.make_spec cleanStart w userName password
  have hnameLength : protocolNameAndLevel.length = 7 := rfl
  have hbytes := Properties.length_flatten_constBufferSequence props
  have hn := willProps_size_le hwp
  simp only at hlen
  refine .of_buffers hlen ⟨_, rfl⟩ rfl ?_ ?_ ?_
  -- the sum of the lengths
  · simp only [PacketVariant.constBufferSequence, ConnectPacket.constBufferSequence,
      PacketVariant.size, ConnectPacket.size, List.flatten_append, List.flatten_cons,
      List.flatten_nil, List.append_nil, List.cons_append, List.nil_append, List.length_append,
      List.length_cons, length_endianStore, hnameLength, hbytes,
      length_will hspec.will hwill hwp, length_optional hspec.userName hun,
      length_optional hspec.password hpw]
    omega
  -- the number of the buffers
  · simp only [PacketVariant.constBufferSequence, ConnectPacket.constBufferSequence,
      PacketVariant.numOfConstBufferSequence, ConnectPacket.numOfConstBufferSequence,
      List.length_append, List.length_cons, List.length_nil,
      Properties.length_constBufferSequence]
    split_ifs <;> simp [Properties.length_constBufferSequence] <;> omega
  · intro f hf
    rcases List.mem_cons.mp hf with rfl | hf
    · have hsize : props.size ≤ 0xfffffff := by omega
      refine propertyLengthAt_of_drop hsize ?_
      simp only [PacketVariant.constBufferSequence, ConnectPacket.constBufferSequence,
        List.append_assoc, List.cons_append, List.nil_append, List.drop_succ_cons, List.drop_zero]
      exact ⟨_, rfl⟩
    · -- the second one is there if there is a will
      split at hf
      · next hflag =>
        obtain rfl := List.mem_singleton.mp hf
        have hsome := hspec.will
        rw [hflag] at hsome
        obtain ⟨w, rfl⟩ := Option.isSome_iff_exists.mp hsome.symm
        obtain ⟨-, -, rfl, rfl, rfl⟩ := encodeWillProps_eq_ok.mp hwp
        have hsize : w.props.size ≤ 0xfffffff := by omega
        refine propertyLengthAt_of_drop hsize ?_
        have hindex : 5 + 1 + props.constBufferSequence.length + 2 =
            props.constBufferSequence.length + 2 + 6 := by omega
        simp only [PacketVariant.constBufferSequence, ConnectPacket.constBufferSequence,
          if_pos hflag, List.append_assoc, List.cons_append, List.nil_append, hindex,
          List.drop_succ_cons, List.drop_length_add_append, List.drop_zero]
        exact ⟨_, rfl⟩
      · cases hf

/-- A v5 CONNACK -/
theorem announced_connack {sessionPresent : Bool} {reasonCode : UInt8} {props : Properties}
    {p : ConnackPacket} (h : connackPacket sessionPresent reasonCode props = .ok p)
    (hlen : p.remainingLength ≤ 0xfffffff) :
    AnnouncedLengths (.v5Connack p : PacketVariant pb) := by
  simp only [connackPacket, Except.bind_eq_ok, numericCast32_eq_ok, validateProperties_eq_ok,
    Except.pure_eq_ok] at h
  obtain ⟨_, ⟨-, rfl⟩, _, -, _, ⟨-, rfl⟩, rfl⟩ := h
  have hbytes := Properties.length_flatten_constBufferSequence props
  simp only at hlen
  refine .of_buffers hlen ⟨_, rfl⟩ rfl ?_ ?_ ?_
  · simp only [PacketVariant.constBufferSequence, ConnackPacket.constBufferSequence,
      PacketVariant.size, ConnackPacket.size, List.flatten_cons, List.cons_append, List.nil_append,
      List.length_append, List.length_cons, hbytes]
    omega
  · simp only [PacketVariant.constBufferSequence, ConnackPacket.constBufferSequence,
      PacketVariant.numOfConstBufferSequence, ConnackPacket.numOfConstBufferSequence,
      List.length_append, List.length_cons, List.length_nil,
      Properties.length_constBufferSequence]
  · intro f hf
    obtain rfl := List.mem_singleton.mp hf
    have hsize : props.size ≤ 0xfffffff := by omega
    refine propertyLengthAt_of_drop hsize ⟨[], ?_⟩
    simp only [PacketVariant.constBufferSequence, ConnackPacket.constBufferSequence,
      List.append_nil, List.cons_append, List.nil_append, List.drop_succ_cons, List.drop_zero]

/-- A v5 PUBLISH -/
theorem announced_publish {packetId : Fin pb.limit} {topicName : Buffer} {payloads : List Buffer}
    {pubopts : UInt8} {props : Properties} {p : PublishPacket pb}
    (h : publishPacket pb packetId topicName payloads pubopts props = .ok p)
    (hlen : p.remainingLength ≤ 0xfffffff) : AnnouncedLengths (.v5Publish p) := by
  simp only [publishPacket, Except.bind_eq_ok, throwIf_eq_ok, numericCast16_eq_ok,
    numericCast32_eq_ok, validateProperties_eq_ok, storePublishPacketId_eq_ok,
    Except.pure_eq_ok] at h
  obtain ⟨_, -, _, ⟨htopic, rfl⟩, _, -, _, ⟨-, rfl⟩, _, -, _, ⟨-, rfl⟩, idBuf, hid, rfl⟩ := h
  have hsum : (payloads.map List.length).sum = payloads.flatten.length := by
    rw [List.length_flatten]
  have hbytes := Properties.length_flatten_constBufferSequence props
  simp only at hlen
  refine .of_buffers hlen ⟨_, rfl⟩ rfl ?_ ?_ ?_
  · -- the packet identifier is counted for the QoS, and written if it is not 0
    simp only [PacketVariant.constBufferSequence, PublishPacket.constBufferSequence,
      PacketVariant.size, PublishPacket.size, PublishPacket.packetId]
    rcases hid with ⟨hqos, -, rfl⟩ | ⟨hqos, hne, rfl⟩
    · have hload : endianLoad pb.bytes (endianStore pb.bytes 0) = 0 := by cases pb <;> rfl
      have hidSize : V311.publishPacketIdSize pb pubopts = 0 := by
        rcases hqos with hqos | hqos <;>
          simp [V311.publishPacketIdSize, hqos, Qos.atLeastOnce, Qos.exactlyOnce]
      simp only [hload, ne_eq, not_true_eq_false, if_false, hidSize, List.flatten_cons,
        List.flatten_append, List.length_append, List.length_cons,
        length_endianStore, hsum, hbytes, List.cons_append, List.nil_append, List.append_nil]
      omega
    · have hload : endianLoad pb.bytes (endianStore pb.bytes packetId) = packetId.val :=
        endianLoad_endianStore packetId.isLt
      have hidSize : V311.publishPacketIdSize pb pubopts = pb.bytes := by
        simp [V311.publishPacketIdSize, hqos, Qos.atLeastOnce, Qos.exactlyOnce]
      simp only [hload, ne_eq, hne, not_false_eq_true, if_true, hidSize, List.flatten_cons,
        List.flatten_append, List.length_append, List.length_cons,
        length_endianStore, hsum, hbytes, List.cons_append, List.nil_append, List.length_take,
        Nat.min_self]
      omega
  -- the number of the buffers
  · simp only [PacketVariant.constBufferSequence, PublishPacket.constBufferSequence,
      PacketVariant.numOfConstBufferSequence, PublishPacket.numOfConstBufferSequence, ne_eq,
      ite_not, List.length_append, List.length_cons, List.length_nil,
      Properties.length_constBufferSequence]
    split_ifs <;> simp
  -- the length of the properties stands behind the topic and the packet identifier
  · intro f hf
    obtain rfl := List.mem_singleton.mp hf
    simp only [PacketVariant.constBufferSequence, PublishPacket.constBufferSequence]
    have hsize : props.size ≤ 0xfffffff := by omega
    split
    all_goals
      refine propertyLengthAt_of_drop hsize ⟨payloads, ?_⟩
      simp only [List.append_nil, List.cons_append, List.nil_append,
        List.drop_succ_cons, List.drop_zero]

/-- The tail is as long as it says. -/
theorem length_tail {loc : PropertyLocation} {code : Option UInt8} {props : Properties}
    {t : ReasonTail} {n : Nat} (hmake : ReasonTail.make loc code props = .ok (t, n))
    (hn : n ≤ 0xfffffff) : t.constBufferSequence.flatten.length = n := by
  rcases ReasonTail.make_eq_ok hmake with ⟨-, rfl, rfl⟩ | ⟨c, -, ⟨-, rfl, rfl⟩ | ⟨-, rfl, rfl⟩⟩
  · rfl
  · rfl
  · have hpos := length_valToVariableBytes_pos (show props.size ≤ 0xfffffff by omega)
    simp only [ReasonTail.constBufferSequence, ne_eq, Nat.pos_iff_ne_zero.mp hpos,
      not_false_eq_true, if_true, List.flatten_cons, List.length_append, List.length_cons,
      List.length_nil, Properties.length_flatten_constBufferSequence]

/-- The tail has as many buffers as it says. -/
theorem count_tail (t : ReasonTail) :
    t.constBufferSequence.length = t.numOfConstBufferSequence := by
  rw [ReasonTail.constBufferSequence, ReasonTail.numOfConstBufferSequence]
  split
  · rfl
  · split_ifs <;> simp_all [Properties.length_constBufferSequence]
    omega

/-- The property length of PUBACK and its like, behind the buffers `before`. -/
theorem propertyLengthAt_tail {loc : PropertyLocation} {code : Option UInt8} {props : Properties}
    {t : ReasonTail} {n : Nat} (hmake : ReasonTail.make loc code props = .ok (t, n))
    (hn : n ≤ 0xfffffff) (before : List Buffer) :
    ∀ f ∈ PacketVariant.tailPropertyFields (before.length + 1) t,
      PropertyLengthAt (before ++ t.constBufferSequence) f.1 f.2 := by
  intro f hf
  rcases ReasonTail.make_eq_ok hmake with ⟨-, rfl, rfl⟩ | ⟨c, -, ⟨-, rfl, rfl⟩ | ⟨-, rfl, rfl⟩⟩
  · exact nomatch hf
  · exact nomatch hf
  · have hpos := length_valToVariableBytes_pos (show props.size ≤ 0xfffffff by omega)
    simp only [PacketVariant.tailPropertyFields, Nat.pos_iff_ne_zero.mp hpos, if_false,
      List.mem_singleton] at hf
    obtain rfl := hf
    have hsize : props.size ≤ 0xfffffff := by omega
    refine propertyLengthAt_of_drop hsize ⟨[], ?_⟩
    simp only [ReasonTail.constBufferSequence, ne_eq, Nat.pos_iff_ne_zero.mp hpos,
      not_false_eq_true, if_true, List.append_nil, List.drop_length_add_append,
      List.drop_succ_cons, List.drop_zero]

/-- A v5 response to a PUBLISH -/
theorem announced_pubResponse {type : ControlPacketType} {flags : UInt8} {loc : PropertyLocation}
    {packetId : Nat} {args : ReasonArgs} {p : PubResponsePacket pb} {v : PacketVariant pb}
    (h : pubResponsePacket type flags loc pb packetId args.reasonCode args.props = .ok p)
    (hv : v = .v5Puback p ∨ v = .v5Pubrec p ∨ v = .v5Pubrel p ∨ v = .v5Pubcomp p)
    (hlen : p.remainingLength ≤ 0xfffffff) : AnnouncedLengths v := by
  obtain ⟨n, hmake, hp⟩ := pubResponse_eq_ok h
  have hn : n ≤ 0xfffffff := by rw [hp] at hlen; simp only at hlen; omega
  have hid : p.packetIdBuf.length = pb.bytes := by rw [hp]; exact length_endianStore _ _
  have hremaining : p.remainingLength = pb.bytes + n := by rw [hp]
  have hbuf : p.remainingLengthBuf = valToVariableBytes p.remainingLength := by rw [hp]
  have htail := length_tail hmake hn
  have hprops := propertyLengthAt_tail hmake hn [[p.fixedHeader], p.remainingLengthBuf, p.packetIdBuf]
  have hbufs : ∃ body, p.constBufferSequence =
      [p.fixedHeader] :: valToVariableBytes p.remainingLength :: body := by
    rw [PubResponsePacket.constBufferSequence, hbuf]
    exact ⟨_, rfl⟩
  have hsize : p.size = 1 + (valToVariableBytes p.remainingLength).length + p.remainingLength := by
    rw [PubResponsePacket.size, hbuf]
  have htotal : p.constBufferSequence.flatten.length = p.size := by
    simp only [PubResponsePacket.constBufferSequence, PubResponsePacket.size, List.flatten_append,
      List.flatten_cons, List.flatten_nil, List.append_nil, List.length_append, List.length_cons,
      List.length_nil, hid, htail, hremaining]
    omega
  have hcount : p.constBufferSequence.length = p.numOfConstBufferSequence := by
    simp only [PubResponsePacket.constBufferSequence, PubResponsePacket.numOfConstBufferSequence,
      List.length_append, List.length_cons, List.length_nil, count_tail]
  rcases hv with rfl | rfl | rfl | rfl <;> exact .of_buffers hlen hbufs hsize htotal hcount hprops

/-- A v5 DISCONNECT or AUTH -/
theorem announced_reason {type : ControlPacketType} {loc : PropertyLocation} {args : ReasonArgs}
    {p : ReasonPacket} {v : PacketVariant pb}
    (h : reasonPacket type loc args.reasonCode args.props = .ok p)
    (hv : v = .v5Disconnect p ∨ v = .v5Auth p) (hlen : p.remainingLength ≤ 0xfffffff) :
    AnnouncedLengths v := by
  obtain ⟨n, hmake, hp⟩ := reason_eq_ok h
  have hremaining : p.remainingLength = n := by rw [hp]
  have hbuf : p.remainingLengthBuf = valToVariableBytes p.remainingLength := by rw [hp]
  have hn : n ≤ 0xfffffff := by omega
  have htail := length_tail hmake hn
  have hprops := propertyLengthAt_tail hmake hn [[p.fixedHeader], p.remainingLengthBuf]
  have hbufs : ∃ body, p.constBufferSequence =
      [p.fixedHeader] :: valToVariableBytes p.remainingLength :: body := by
    rw [ReasonPacket.constBufferSequence, hbuf]
    exact ⟨_, rfl⟩
  have hsize : p.size = 1 + (valToVariableBytes p.remainingLength).length + p.remainingLength := by
    rw [ReasonPacket.size, hbuf]
  have htotal : p.constBufferSequence.flatten.length = p.size := by
    simp only [ReasonPacket.constBufferSequence, ReasonPacket.size, List.flatten_append,
      List.flatten_cons, List.flatten_nil, List.append_nil, List.length_append, List.length_cons,
      List.length_nil, htail, hremaining]
  have hcount : p.constBufferSequence.length = p.numOfConstBufferSequence := by
    simp only [ReasonPacket.constBufferSequence, ReasonPacket.numOfConstBufferSequence,
      List.length_append, List.length_cons, List.length_nil, count_tail]
  rcases hv with rfl | rfl <;> exact .of_buffers hlen hbufs hsize htotal hcount hprops

/-- A v5 SUBSCRIBE -/
theorem announced_subscribe {packetId : Fin pb.limit} {params : List TopicSubopts}
    {props : Properties} {p : SubscribePacket pb}
    (h : subscribePacket pb packetId params props = .ok p) (hlen : p.remainingLength ≤ 0xfffffff) :
    AnnouncedLengths (.v5Subscribe p) := by
  simp only [subscribePacket, Except.bind_eq_ok, checkTopicSizes_eq_ok, numericCast32_eq_ok,
    validateProperties_eq_ok, Except.pure_eq_ok] at h
  obtain ⟨_, -, _, ⟨-, rfl⟩, _, -, _, -, _, ⟨-, rfl⟩, rfl⟩ := h
  have hbytes := length_zip_entries TopicSubopts.allTopic (fun e => [[e.opts]]) 1 (fun _ => rfl)
    params
  have hbufs := count_zip_entries TopicSubopts.allTopic (fun e => [[e.opts]]) 1 (fun _ => rfl)
    params
  have hpropBytes := Properties.length_flatten_constBufferSequence props
  simp only at hlen
  have hsize : props.size ≤ 0xfffffff := by omega
  have hpos := length_valToVariableBytes_pos hsize
  refine .of_buffers hlen ⟨_, rfl⟩ rfl ?_ ?_ ?_
  -- the sum of the lengths
  · simp only [PacketVariant.constBufferSequence, SubscribePacket.constBufferSequence,
      PacketVariant.size, SubscribePacket.size, List.flatten_append, List.flatten_cons,
      List.flatten_nil, List.append_nil, List.length_append, List.length_cons, List.length_nil,
      length_endianStore, hpropBytes]
    rw [hbytes]
    omega
  -- the number of the buffers
  · simp only [PacketVariant.constBufferSequence, SubscribePacket.constBufferSequence,
      PacketVariant.numOfConstBufferSequence, SubscribePacket.numOfConstBufferSequence,
      List.length_append, List.length_cons, List.length_nil, Nat.pos_iff_ne_zero.mp hpos, if_false,
      Properties.length_constBufferSequence]
    rw [hbufs]
    omega
  -- the length of the properties stands behind the packet identifier
  · intro f hf
    obtain rfl := List.mem_singleton.mp hf
    refine propertyLengthAt_of_drop hsize ?_
    simp only [PacketVariant.constBufferSequence, SubscribePacket.constBufferSequence,
      List.cons_append, List.nil_append, List.drop_succ_cons, List.drop_zero]
    exact ⟨_, rfl⟩

/-- A v5 SUBACK or UNSUBACK -/
theorem announced_subResponse {type : ControlPacketType} {loc : PropertyLocation}
    {packetId : Fin pb.limit} {params : List UInt8} {props : Properties} {p : SubResponsePacket pb}
    {v : PacketVariant pb} (h : subResponsePacket type loc pb packetId params props = .ok p)
    (hv : v = .v5Suback p ∨ v = .v5Unsuback p) (hlen : p.remainingLength ≤ 0xfffffff) :
    AnnouncedLengths v := by
  simp only [subResponsePacket, Except.bind_eq_ok, numericCast32_eq_ok, validateProperties_eq_ok,
    Except.pure_eq_ok] at h
  obtain ⟨_, ⟨-, rfl⟩, _, -, _, ⟨-, rfl⟩, hp⟩ := h
  have hpropBytes := Properties.length_flatten_constBufferSequence props
  rw [← hp] at hlen
  simp only at hlen
  have hsize : props.size ≤ 0xfffffff := by omega
  have hpos := length_valToVariableBytes_pos hsize
  have htotal : p.constBufferSequence.flatten.length = p.size := by
    rw [← hp]
    simp only [SubResponsePacket.constBufferSequence, SubResponsePacket.size, List.flatten_append,
      List.flatten_cons, List.flatten_nil, List.append_nil, List.length_append, List.length_cons,
      List.length_nil, length_endianStore, hpropBytes]
    omega
  have hcount : p.constBufferSequence.length = p.numOfConstBufferSequence := by
    rw [← hp]
    simp only [SubResponsePacket.constBufferSequence, SubResponsePacket.numOfConstBufferSequence,
      List.length_append, List.length_cons, List.length_nil, Nat.pos_iff_ne_zero.mp hpos, if_false,
      Properties.length_constBufferSequence]
    omega
  -- the length of the properties stands behind the packet identifier
  have hprops : ∀ f ∈ [(3, p.props)], PropertyLengthAt p.constBufferSequence f.1 f.2 := by
    intro f hf
    obtain rfl := List.mem_singleton.mp hf
    rw [← hp]
    refine propertyLengthAt_of_drop hsize ?_
    simp only [SubResponsePacket.constBufferSequence, List.cons_append, List.nil_append,
      List.drop_succ_cons, List.drop_zero]
    exact ⟨_, rfl⟩
  subst hp
  rcases hv with rfl | rfl <;> exact .of_buffers hlen ⟨_, rfl⟩ rfl htotal hcount hprops

/-- A v5 UNSUBSCRIBE -/
theorem announced_unsubscribe {packetId : Fin pb.limit} {params : List TopicSharename}
    {props : Properties} {p : UnsubscribePacket pb}
    (h : unsubscribePacket pb packetId params props = .ok p)
    (hlen : p.remainingLength ≤ 0xfffffff) : AnnouncedLengths (.v5Unsubscribe p) := by
  simp only [unsubscribePacket, Except.bind_eq_ok, checkTopicSizes_eq_ok, numericCast32_eq_ok,
    validateProperties_eq_ok, Except.pure_eq_ok] at h
  obtain ⟨_, -, _, ⟨-, rfl⟩, _, -, _, -, _, ⟨-, rfl⟩, rfl⟩ := h
  have hbytes := length_zip_entries TopicSharename.allTopic (fun _ => []) 0 (fun _ => rfl) params
  have hbufs := count_zip_entries TopicSharename.allTopic (fun _ => []) 0 (fun _ => rfl) params
  have hpropBytes := Properties.length_flatten_constBufferSequence props
  simp only at hlen
  have hsize : props.size ≤ 0xfffffff := by omega
  have hpos := length_valToVariableBytes_pos hsize
  refine .of_buffers hlen ⟨_, rfl⟩ rfl ?_ ?_ ?_
  -- the sum of the lengths
  · simp only [PacketVariant.constBufferSequence, UnsubscribePacket.constBufferSequence,
      PacketVariant.size, UnsubscribePacket.size, List.flatten_append, List.flatten_cons,
      List.flatten_nil, List.append_nil, List.length_append, List.length_cons, List.length_nil,
      length_endianStore, hpropBytes]
    rw [hbytes]
    simp only [Nat.add_zero]
    omega
  -- the number of the buffers
  · simp only [PacketVariant.constBufferSequence, UnsubscribePacket.constBufferSequence,
      PacketVariant.numOfConstBufferSequence, UnsubscribePacket.numOfConstBufferSequence,
      List.length_append, List.length_cons, List.length_nil, Nat.pos_iff_ne_zero.mp hpos, if_false,
      Properties.length_constBufferSequence]
    rw [hbufs]
    omega
  -- the length of the properties stands behind the packet identifier
  · intro f hf
    obtain rfl := List.mem_singleton.mp hf
    refine propertyLengthAt_of_drop hsize ?_
    simp only [PacketVariant.constBufferSequence, UnsubscribePacket.constBufferSequence,
      List.cons_append, List.nil_append, List.drop_succ_cons, List.drop_zero]
    exact ⟨_, rfl⟩

/-- Every v5 packet without an identifier has the lengths that it announces. -/
theorem PlainCall.announcedLengths (c : PlainCall) {v : PacketVariant pb} (h : c.build pb = .ok v)
    (hlen : v.remainingLength ≤ 0xfffffff) : AnnouncedLengths v := by
  cases c with
  | connect cleanStart keepAliveSec clientId w userName password props =>
    obtain ⟨p, hp, rfl⟩ := Except.map_eq_ok.mp h
    exact announced_connect hp hlen
  | connack sessionPresent reasonCode props =>
    obtain ⟨p, hp, rfl⟩ := Except.map_eq_ok.mp h
    exact announced_connack hp hlen
  | pingreq | pingresp =>
    cases h
    exact .of_buffer rfl rfl rfl rfl rfl
  | disconnect args =>
    obtain ⟨p, hp, rfl⟩ := Except.map_eq_ok.mp h
    exact announced_reason hp (.inl rfl) hlen
  | auth args =>
    obtain ⟨p, hp, rfl⟩ := Except.map_eq_ok.mp h
    exact announced_reason hp (.inr rfl) hlen

/-- Every v5 packet with an identifier has the lengths that it announces. -/
theorem IdCall.announcedLengths (c : IdCall pb) {v : PacketVariant pb} (h : c.build = .ok v)
    (hlen : v.remainingLength ≤ 0xfffffff) : AnnouncedLengths v := by
  cases c with
  | publish packetId topicName payloads pubopts props =>
    obtain ⟨p, hp, rfl⟩ := Except.map_eq_ok.mp h
    exact announced_publish hp hlen
  | puback packetId args | pubrec packetId args | pubrel packetId args | pubcomp packetId args =>
    obtain ⟨p, hp, rfl⟩ := Except.map_eq_ok.mp h
    exact announced_pubResponse hp (by simp) hlen
  | subscribe packetId params props =>
    obtain ⟨p, hp, rfl⟩ := Except.map_eq_ok.mp h
    exact announced_subscribe hp hlen
  | suback packetId params props | unsuback packetId params props =>
    obtain ⟨p, hp, rfl⟩ := Except.map_eq_ok.mp h
    exact announced_subResponse hp (by simp) hlen
  | unsubscribe packetId params props =>
    obtain ⟨p, hp, rfl⟩ := Except.map_eq_ok.mp h
    exact announced_unsubscribe hp hlen

end V5

/-! ### Both versions -/

/-- A call of a public constructor of a packet. -/
inductive ConstructorCall (pb : PacketIdBytes) where
  | v311 (c : V311.Call pb)
  | v5Plain (c : V5.PlainCall)
  | v5Id (c : V5.IdCall pb)

/-- The packet that the call builds, or what it throws. -/
def ConstructorCall.build {pb : PacketIdBytes} :
    ConstructorCall pb → Except Exception (PacketVariant pb)
  | v311 c => c.build
  | v5Plain c => c.build pb
  | v5Id c => c.build

/-- A packet that a public constructor builds, and whose remaining length can be written, has the
    lengths that it announces. -/
theorem ConstructorCall.announcedLengths_of_build (pb : PacketIdBytes) (c : ConstructorCall pb)
    (v : PacketVariant pb) (h : c.build = .ok v) (hlen : v.remainingLength ≤ 268435455) :
    AnnouncedLengths v := by
  cases c with
  | v311 c => exact c.announcedLengths h hlen
  | v5Plain c => exact c.announcedLengths h hlen
  | v5Id c => exact c.announcedLengths h hlen

/-- A PUBLISH with two payload chunks and a property, for four-byte packet identifiers. -/
theorem ConstructorCall.announcedLengths_publish :
    ∃ v : PacketVariant .four, ConstructorCall.build (.v5Id (.publish ⟨1, by decide⟩ [97]
        [[1, 2], [3]] 0b00000010 [.topicAlias 5])) = .ok v ∧ AnnouncedLengths v := by
  refine ⟨_, rfl, ?_⟩
  exact ConstructorCall.announcedLengths_of_build .four (.v5Id (.publish ⟨1, by decide⟩ [97]
    [[1, 2], [3]] 0b00000010 [.topicAlias 5])) _ rfl (by decide)

end AsyncMqtt
