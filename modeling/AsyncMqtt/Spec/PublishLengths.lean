import AsyncMqtt.Native.PublishMutators
import AsyncMqtt.Spec.PacketSizeLimit
import AsyncMqtt.Spec.TopicAliasUses

/-!
# The lengths of a rewritten PUBLISH

A PUBLISH goes to the wire as it is, so the four length fields have to be right after every
member that rewrites the topic or the properties in place. `PublishPacket.Consistent` says that
they are. The members add differences modulo `2 ^ 64`, some of them negative; for a consistent
packet each comes to `PublishPacket.rewritten`, which computes the lengths afresh.

## Key results

- `Mutation.call_eq`: what every member makes of a consistent packet
- `PublishPacket.rewrites_keep_lengths`: after any sequence of them the packet is consistent and
  has the topic and the alias that were asked for
- `PublishPacket.second_topic_alias`: a packet that has an alias keeps it when another is added
-/

namespace AsyncMqtt

namespace PropertyId

/-- The base class that `property.hpp` gives to a property class. -/
inductive Base where
  | nBytes (n : Nat)
  | binary
  | variableLen
  | user
  deriving DecidableEq

/-- The kind of value that a property has -/
def base : PropertyId → Base
  | payloadFormatIndicator | requestProblemInformation | requestResponseInformation | maximumQos
  | retainAvailable | wildcardSubscriptionAvailable | subscriptionIdentifierAvailable
  | sharedSubscriptionAvailable => .nBytes 1
  | serverKeepAlive | receiveMaximum | topicAliasMaximum | topicAlias => .nBytes 2
  | messageExpiryInterval | sessionExpiryInterval | willDelayInterval | maximumPacketSize =>
    .nBytes 4
  | contentType | responseTopic | correlationData | assignedClientIdentifier
  | authenticationMethod | authenticationData | responseInformation | serverReference
  | reasonString => .binary
  | subscriptionIdentifier => .variableLen
  | userProperty => .user

end PropertyId

namespace Property

/-- The property is an object of its class: the members of its base class have their types. -/
def InClass : Property → Prop
  | nBytes id buf => id.base = .nBytes buf.length
  | binary id length _ => id.base = .binary ∧ length.length = 2
  | variableLen id _ => id.base = .variableLen
  | user keyLen _ valLen _ => keyLen.length = 2 ∧ valLen.length = 2

/-- A topic alias takes three bytes. -/
theorem size_topicAlias (ta : Nat) : (topicAlias ta).size = 3 := by
  show 1 + (endianStore 2 ta).length = 3
  rw [length_endianStore]

/-- A message expiry interval takes five bytes. -/
theorem size_messageExpiryInterval (val : Nat) : (messageExpiryInterval val).size = 5 := by
  show 1 + (endianStore 4 val).length = 5
  rw [length_endianStore]

/-- Every message expiry interval takes four bytes. -/
theorem InClass.size_messageExpiryInterval {prop : Property} (h : prop.InClass)
    (hid : prop.id = .messageExpiryInterval) : prop.size = 5 := by
  cases prop with
  | nBytes id buf =>
    obtain rfl : id = .messageExpiryInterval := hid
    have hbase : PropertyId.Base.nBytes 4 = .nBytes buf.length := h
    have hlen : 4 = buf.length := PropertyId.Base.nBytes.inj hbase
    show 1 + buf.length = 5
    omega
  | binary id length buf =>
    obtain rfl : id = .messageExpiryInterval := hid
    exact nomatch h.1
  | variableLen id value =>
    obtain rfl : id = .messageExpiryInterval := hid
    exact nomatch h
  | user keyLen keyBuf valLen valBuf => exact nomatch hid

end Property

namespace Properties

/-- No properties take no bytes. -/
@[simp] theorem size_nil : size [] = 0 := rfl

/-- The sizes of the properties add up. -/
@[simp] theorem size_cons (prop : Property) (props : Properties) :
    size (prop :: props) = prop.size + size props := rfl

/-- The properties with one identifier and the others. -/
theorem size_filter_add (id : PropertyId) (props : Properties) :
    size (props.filter (·.id = id)) + size (props.filter (·.id ≠ id)) = size props := by
  induction props with
  | nil => rfl
  | cons prop props ih =>
    by_cases hid : prop.id = id
    · simp only [List.filter_cons, hid, ne_eq, not_true, decide_true, decide_false, if_true,
        size_cons] at ih ⊢
      simp only [Bool.false_eq_true, if_false]
      omega
    · simp only [List.filter_cons, hid, ne_eq, not_false_iff, decide_true, decide_false,
        Bool.false_eq_true, if_false, if_true, size_cons] at ih ⊢
      omega

end Properties

namespace V5

open PublishMutators

/-! ### Consistent packets -/

namespace PublishPacket

variable {pb : PacketIdBytes}

/-- The bytes that follow the remaining length on the wire. -/
def body (p : PublishPacket pb) : List UInt8 := (p.constBufferSequence.drop 2).flatten

/-- The bytes of the packet identifier, which is absent when it is 0. -/
def packetIdSize (p : PublishPacket pb) : Nat :=
  if p.packetId ≠ 0 then (p.packetIdBuf.take pb.bytes).length else 0

/-- The length of the body is that of its parts. -/
theorem length_body (p : PublishPacket pb) :
    p.body.length = p.topicNameLengthBuf.length + p.topicName.length + p.packetIdSize +
      p.propertyLengthBuf.length + p.props.size + p.payload.length := by
  have hprops := Properties.length_flatten_constBufferSequence p.props
  have hid : (if p.packetId ≠ 0 then [p.packetIdBuf.take pb.bytes] else []).flatten.length =
      p.packetIdSize := by
    unfold packetIdSize
    split <;> simp
  simp only [body, constBufferSequence, payload, List.cons_append, List.drop_succ_cons,
    List.drop_zero, List.nil_append, List.flatten_cons, List.flatten_append, List.length_append,
    List.flatten_nil, List.length_nil, hprops, hid]
  omega

/-- The numbers that the packet keeps are the sizes of its parts. The bytes of the two variable
    byte integers may be longer than they have to be, or absent for a length that none holds. -/
structure Sized (p : PublishPacket pb) : Prop where
  topicName_le : p.topicName.length ≤ 65535
  topicNameLengthBuf : p.topicNameLengthBuf = endianStore 2 p.topicName.length
  propertyLength : p.propertyLength = p.props.size
  remainingLength : p.remainingLength = p.body.length
  remainingLength_lt : p.remainingLength < 2 ^ 32

/-- The length fields of the packet are right. -/
structure Consistent (p : PublishPacket pb) : Prop where
  topicName_le : p.topicName.length ≤ 65535
  topicNameLengthBuf : p.topicNameLengthBuf = endianStore 2 p.topicName.length
  propertyLength : p.propertyLength = p.props.size
  propertyLengthBuf : p.propertyLengthBuf = valToVariableBytes p.propertyLength
  remainingLength : p.remainingLength = p.body.length
  remainingLength_le : p.remainingLength ≤ 268435455
  remainingLengthBuf : p.remainingLengthBuf = valToVariableBytes p.remainingLength

/-- The number of bytes after the remaining length with another topic and other properties. -/
def lengthWith (p : PublishPacket pb) (topic : Buffer) (props : Properties) : Nat :=
  2 + topic.length + p.packetIdSize + (valToVariableBytes props.size).length + props.size +
    p.payload.length

/-- The packet with another topic and other properties, and with their lengths. -/
def rewritten (p : PublishPacket pb) (topic : Buffer) (props : Properties) : PublishPacket pb :=
  { p with
    topicName := topic
    topicNameLengthBuf := endianStore 2 topic.length
    propertyLength := props.size
    propertyLengthBuf := valToVariableBytes props.size
    props := props
    remainingLength := p.lengthWith topic props
    remainingLengthBuf := valToVariableBytes (p.lengthWith topic props) }

/-- The body after a change has the length that was counted. -/
theorem length_body_rewritten (p : PublishPacket pb) (topic : Buffer) (props : Properties) :
    (p.rewritten topic props).body.length = p.lengthWith topic props := by
  rw [length_body]
  show (endianStore 2 topic.length).length + topic.length + p.packetIdSize +
    (valToVariableBytes props.size).length + props.size + p.payload.length = _
  rw [length_endianStore, lengthWith]

/-- A changed packet has the sizes of its parts, if its length fits 32 bits. -/
theorem sized_rewritten {p : PublishPacket pb} {topic : Buffer} {props : Properties}
    (htopic : topic.length ≤ 65535) (hlt : p.lengthWith topic props < 2 ^ 32) :
    (p.rewritten topic props).Sized :=
  ⟨htopic, rfl, rfl, (length_body_rewritten p topic props).symm, hlt⟩

/-- A changed packet is consistent, if it can be sent. -/
theorem consistent_rewritten {p : PublishPacket pb} {topic : Buffer} {props : Properties}
    (htopic : topic.length ≤ 65535) (hle : p.lengthWith topic props ≤ 268435455) :
    (p.rewritten topic props).Consistent :=
  ⟨htopic, rfl, rfl, rfl, (length_body_rewritten p topic props).symm, hle, rfl⟩

namespace Sized

variable {p : PublishPacket pb}

/-- The remaining length, by its parts. -/
theorem remainingLength_eq (h : p.Sized) :
    p.remainingLength = 2 + p.topicName.length + p.packetIdSize + p.propertyLengthBuf.length +
      p.props.size + p.payload.length := by
  rw [h.remainingLength, length_body, h.topicNameLengthBuf, length_endianStore]

/-- The properties are shorter than the packet. -/
theorem size_props_lt (h : p.Sized) : p.props.size < 2 ^ 32 := by
  have hlt := h.remainingLength_lt
  rw [h.remainingLength_eq] at hlt
  omega

/-- A difference that is right modulo `2 ^ 64` gives the right remaining length. -/
theorem sizeT_remainingLength (h : p.Sized) {topic : Buffer} {props : Properties}
    (htopic : topic.length ≤ 65535) (hprops : props.size ≤ p.props.size + 3) {d : UInt64}
    (hd : .ofNat p.topicName.length + .ofNat p.propertyLengthBuf.length + .ofNat p.props.size + d =
      UInt64.ofNat topic.length + .ofNat (valToVariableBytes props.size).length +
        .ofNat props.size) :
    sizeT (· + d) p.remainingLength = p.lengthWith topic props := by
  have hremaining := h.remainingLength_lt
  have hbytes := length_valToVariableBytes_le props.size
  have hlengths := congrArg UInt64.toNat hd
  rw [h.remainingLength_eq] at hremaining ⊢
  unfold lengthWith
  simp only [sizeT, UInt64.toNat_add, UInt64.toNat_ofNat'] at hlengths ⊢
  omega

end Sized

namespace Consistent

variable {p : PublishPacket pb}

/-- A consistent packet has the sizes of its parts. -/
theorem sized (h : p.Consistent) : p.Sized where
  topicName_le := h.topicName_le
  topicNameLengthBuf := h.topicNameLengthBuf
  propertyLength := h.propertyLength
  remainingLength := h.remainingLength
  remainingLength_lt := by
    have hle := h.remainingLength_le
    omega

/-- The remaining length, by its parts. -/
theorem remainingLength_eq (h : p.Consistent) :
    p.remainingLength = p.lengthWith p.topicName p.props := by
  rw [h.remainingLength, length_body, h.topicNameLengthBuf, length_endianStore,
    h.propertyLengthBuf, h.propertyLength, lengthWith]

/-- No length overflows 32 bits, whether or not it fits a variable byte integer. -/
theorem lengthWith_lt (h : p.Consistent) {topic : Buffer} {props : Properties}
    (htopic : topic.length ≤ 65535) (hprops : props.size ≤ p.props.size + 3) :
    p.lengthWith topic props < 2 ^ 32 := by
  have hremaining := h.remainingLength_le
  rw [h.remainingLength_eq] at hremaining
  have hbytes := length_valToVariableBytes_le props.size
  unfold lengthWith at hremaining ⊢
  omega

/-- For a consistent packet the update of the lengths computes them afresh. -/
theorem update_eq (h : p.Consistent) (topic : Buffer) (props : Properties) :
    p.update topic props = p.rewritten topic props := by
  have hlength : p.propertyLength + props.size - p.props.size = props.size := by
    rw [h.propertyLength]
    omega
  have hremaining : p.remainingLength + props.size + (valToVariableBytes props.size).length +
      topic.length - (p.props.size + p.propertyLengthBuf.length + p.topicName.length) =
      p.lengthWith topic props := by
    rw [h.remainingLength_eq, h.propertyLengthBuf, h.propertyLength, lengthWith, lengthWith]
    omega
  unfold update rewritten
  dsimp only
  rw [hlength, hremaining]

end Consistent

end PublishPacket

/-! ### The members on a consistent packet -/

section Parts

variable {pb : PacketIdBytes}

/-- The length of the properties is encoded anew. -/
theorem updatePropertyLengthBuf_eq {p : PublishPacket pb} (h : p.propertyLength < 2 ^ 32) :
    updatePropertyLengthBuf p =
      .ok ((.ofNat p.propertyLengthBuf.length, .ofNat (valToVariableBytes p.propertyLength).length),
        { p with propertyLengthBuf := valToVariableBytes p.propertyLength }) := by
  unfold updatePropertyLengthBuf numericCast32
  rw [if_pos h]
  rfl

/-- The topic is set with its length. -/
theorem addTopicImpl_eq {p : PublishPacket pb} {topic : Buffer} (h : topic.length ≤ 65535) :
    addTopicImpl topic p =
      .ok { p with topicName := topic, topicNameLengthBuf := endianStore 2 topic.length } := by
  unfold addTopicImpl numericCast16
  rw [if_pos (by omega)]
  rfl

/-- The end of a member that rewrites the topic and the properties. -/
theorem updateRemainingLengthBuf_rewritten {p : PublishPacket pb} {topic : Buffer}
    {props : Properties} {remainingLength : Nat}
    (hlength : remainingLength = p.lengthWith topic props) :
    updateRemainingLengthBuf { p with
        topicName := topic
        topicNameLengthBuf := endianStore 2 topic.length
        propertyLength := props.size
        propertyLengthBuf := valToVariableBytes props.size
        props := props
        remainingLength := remainingLength } =
      if p.lengthWith topic props < 2 ^ 32 then .ok (p.rewritten topic props)
      else .error .badNumericCast := by
  subst hlength
  unfold updateRemainingLengthBuf numericCast32
  dsimp only
  split <;> rfl

/-- The aliases are left out, and their sizes added up. -/
theorem removeTopicAliasImpl_go (size : UInt64) (props : Properties) :
    removeTopicAliasImpl.go size props =
      (size + .ofNat (Properties.size (props.filter (·.id = .topicAlias))),
        props.filter (·.id ≠ .topicAlias)) := by
  induction props generalizing size with
  | nil => simp [removeTopicAliasImpl.go]
  | cons prop props ih =>
    rw [removeTopicAliasImpl.go]
    by_cases hid : prop.id = .topicAlias
    · simp only [hid, if_true, ih, List.filter_cons, decide_true, Properties.size_cons,
        UInt64.ofNat_add, UInt64.add_assoc, ne_eq, not_true, decide_false, Bool.false_eq_true,
        if_false]
    · simp only [hid, if_false, ih, List.filter_cons, decide_false, Bool.false_eq_true, ne_eq,
        not_false_iff, decide_true, if_true]

end Parts

section Members

variable {pb : PacketIdBytes} {p : PublishPacket pb} {topic : Buffer}

/-- The first statements of the two members that add a topic alias. -/
theorem propertyLength_add_topicAlias (h : p.Sized) (val : UInt16) :
    sizeT (· + UInt64.ofNat (Property.topicAlias val.toNat).size) p.propertyLength =
      Properties.size (p.props ++ [.topicAlias val.toNat]) := by
  have hlt := h.size_props_lt
  rw [h.propertyLength, PublishPacket.size_append_topicAlias, Property.size_topicAlias]
  simp only [sizeT, UInt64.toNat_add, UInt64.toNat_ofNat']
  omega

/-- The first statements of the two members that remove the topic aliases. -/
theorem propertyLength_sub_topicAliases (h : p.Sized) :
    sizeT (· - UInt64.ofNat (Properties.size (p.props.filter (·.id = .topicAlias))))
      p.propertyLength = Properties.size p.propsWithoutTopicAlias := by
  have hlt := h.size_props_lt
  have hsize := Properties.size_filter_add .topicAlias p.props
  rw [h.propertyLength, PublishPacket.propsWithoutTopicAlias]
  simp only [sizeT, UInt64.toNat_sub, UInt64.toNat_ofNat']
  omega

/-- The topic gives way to an alias. -/
theorem removeTopicAddTopicAlias_eq (h : p.Consistent) (val : UInt16) :
    removeTopicAddTopicAlias val p =
      .ok (p.rewritten [] (p.props ++ [.topicAlias val.toNat])) := by
  have hsize := PublishPacket.size_append_topicAlias p.props val.toNat
  have hlt : p.lengthWith [] (p.props ++ [.topicAlias val.toNat]) < 2 ^ 32 :=
    h.lengthWith_lt (Nat.zero_le _) (Nat.le_of_eq hsize)
  unfold removeTopicAddTopicAlias
  dsimp only
  rw [propertyLength_add_topicAlias h.sized, Property.size_topicAlias, updatePropertyLengthBuf_eq
    (by unfold PublishPacket.lengthWith at hlt; show Properties.size _ < _; omega)]
  refine (updateRemainingLengthBuf_rewritten ?_).trans (if_pos hlt)
  apply h.sized.sizeT_remainingLength (Nat.zero_le _) (Nat.le_of_eq hsize)
  show _ = UInt64.ofNat 0 + _ + _
  rw [hsize, UInt64.ofNat_add]
  grind

/-- An alias is added behind the other properties. -/
theorem addTopicAlias_eq (h : p.Consistent) (val : UInt16) :
    addTopicAlias val p = .ok (p.rewritten p.topicName (p.props ++ [.topicAlias val.toNat])) := by
  have hsize := PublishPacket.size_append_topicAlias p.props val.toNat
  have hlt : p.lengthWith p.topicName (p.props ++ [.topicAlias val.toNat]) < 2 ^ 32 :=
    h.lengthWith_lt h.topicName_le (Nat.le_of_eq hsize)
  unfold addTopicAlias
  dsimp only
  rw [propertyLength_add_topicAlias h.sized, Property.size_topicAlias, updatePropertyLengthBuf_eq
    (by unfold PublishPacket.lengthWith at hlt; show Properties.size _ < _; omega)]
  -- the topic length is not written
  rw [show p.topicNameLengthBuf = _ from h.topicNameLengthBuf]
  refine (updateRemainingLengthBuf_rewritten ?_).trans (if_pos hlt)
  apply h.sized.sizeT_remainingLength h.topicName_le (Nat.le_of_eq hsize)
  rw [hsize, UInt64.ofNat_add]
  grind

/-- A topic is added where there is none. -/
theorem addTopic_eq (h : p.Consistent) (hempty : p.topicName = []) (htopic : topic.length ≤ 65535) :
    addTopic topic p = .ok (p.rewritten topic p.props) := by
  have hle : p.props.size ≤ p.props.size + 3 := by omega
  unfold addTopic
  rw [addTopicImpl_eq htopic]
  show updateRemainingLengthBuf _ = _
  dsimp only
  rw [h.propertyLengthBuf, h.propertyLength]
  refine (updateRemainingLengthBuf_rewritten ?_).trans (if_pos (h.lengthWith_lt htopic hle))
  apply h.sized.sizeT_remainingLength htopic hle
  rw [h.propertyLengthBuf, h.propertyLength, hempty]
  show UInt64.ofNat 0 + _ + _ + _ = _
  grind

/-- Without its aliases the list of properties is not longer. -/
theorem size_propsWithoutTopicAlias_le (p : PublishPacket pb) :
    p.propsWithoutTopicAlias.size ≤ p.props.size := by
  have hsize := Properties.size_filter_add .topicAlias p.props
  unfold PublishPacket.propsWithoutTopicAlias
  omega

/-- The aliases are removed, if the length fits 32 bits. -/
theorem removeTopicAlias_eq (h : p.Sized) :
    removeTopicAlias p =
      if p.lengthWith p.topicName p.propsWithoutTopicAlias < 2 ^ 32 then
        .ok (p.rewritten p.topicName p.propsWithoutTopicAlias)
      else .error .badNumericCast := by
  -- the alias takes its bytes out of both lengths
  have hsize := Properties.size_filter_add .topicAlias p.props
  have hle := size_propsWithoutTopicAlias_le p
  have hlt := h.size_props_lt
  unfold removeTopicAlias removeTopicAliasImpl
  rw [removeTopicAliasImpl_go]
  dsimp only
  rw [UInt64.zero_add, propertyLength_sub_topicAliases h,
    updatePropertyLengthBuf_eq (by show Properties.size _ < _; omega)]
  rw [show p.topicNameLengthBuf = _ from h.topicNameLengthBuf]
  apply updateRemainingLengthBuf_rewritten
  apply h.sizeT_remainingLength h.topicName_le (by omega)
  rw [← hsize, UInt64.ofNat_add]
  show _ + _ + (_ + UInt64.ofNat p.propsWithoutTopicAlias.size) + _ = _
  grind

/-- The alias gives way to a topic, if the length fits 32 bits. -/
theorem removeTopicAliasAddTopic_eq (h : p.Sized) (hempty : p.topicName = [])
    (htopic : topic.length ≤ 65535) :
    removeTopicAliasAddTopic topic p =
      if p.lengthWith topic p.propsWithoutTopicAlias < 2 ^ 32 then
        .ok (p.rewritten topic p.propsWithoutTopicAlias)
      else .error .badNumericCast := by
  -- the topic adds its bytes, and the alias takes its own away
  have hsize := Properties.size_filter_add .topicAlias p.props
  have hle := size_propsWithoutTopicAlias_le p
  have hlt := h.size_props_lt
  unfold removeTopicAliasAddTopic removeTopicAliasImpl
  rw [removeTopicAliasImpl_go]
  dsimp only
  rw [UInt64.zero_add, propertyLength_sub_topicAliases h, addTopicImpl_eq htopic]
  show (updatePropertyLengthBuf _ >>= _) = _
  rw [updatePropertyLengthBuf_eq (by show Properties.size _ < _; omega)]
  apply updateRemainingLengthBuf_rewritten
  apply h.sizeT_remainingLength htopic (by omega)
  rw [← hsize, UInt64.ofNat_add, hempty]
  show UInt64.ofNat 0 + _ + (_ + UInt64.ofNat p.propsWithoutTopicAlias.size) + _ = _
  grind

end Members

/-! ### Message expiry -/

/-- An interval is replaced by one of the same size. -/
theorem size_updateMessageExpiryInterval (val : UInt32) {props : Properties}
    (hprops : ∀ prop ∈ props, prop.InClass) :
    Properties.size (updateMessageExpiryInterval.go val props) = props.size := by
  induction props with
  | nil => rfl
  | cons prop props ih =>
    rw [updateMessageExpiryInterval.go]
    split
    · next hid =>
      have hold := (hprops prop (.head _)).size_messageExpiryInterval hid
      have hnew := Property.size_messageExpiryInterval val.toNat
      rw [Properties.size_cons, Properties.size_cons, hold, hnew]
    · rw [Properties.size_cons, Properties.size_cons,
        ih fun prop' hmem => hprops prop' (.tail _ hmem)]

/-- The interval is replaced where it stands. -/
theorem updateMessageExpiryInterval_eq {pb : PacketIdBytes} {p : PublishPacket pb}
    (h : p.Consistent) (hprops : ∀ prop ∈ p.props, prop.InClass) (val : UInt32) :
    updateMessageExpiryInterval val p =
      p.rewritten p.topicName (updateMessageExpiryInterval.go val p.props) := by
  have hsize := size_updateMessageExpiryInterval val hprops
  have hlength : p.lengthWith p.topicName (updateMessageExpiryInterval.go val p.props) =
      p.remainingLength := by
    rw [h.remainingLength_eq, PublishPacket.lengthWith, hsize, PublishPacket.lengthWith]
  unfold PublishPacket.rewritten
  rw [hlength, hsize, ← h.propertyLength, ← h.propertyLengthBuf, ← h.topicNameLengthBuf,
    ← h.remainingLengthBuf]
  rfl

/-! ### Sequences -/

/-- A call of one of the members -/
inductive Mutation where
  | removeTopicAddTopicAlias (val : UInt16)
  | addTopicAlias (val : UInt16)
  | addTopic (topic : Buffer)
  | removeTopicAlias
  | removeTopicAliasAddTopic (topic : Buffer)
  | updateMessageExpiryInterval (val : UInt32)

namespace Mutation

variable {pb : PacketIdBytes}

/-- The call of the packet's method -/
def call : Mutation → PublishPacket pb → Except Exception (PublishPacket pb)
  | removeTopicAddTopicAlias val, p => PublishMutators.removeTopicAddTopicAlias val p
  | addTopicAlias val, p => PublishMutators.addTopicAlias val p
  | addTopic topic, p => PublishMutators.addTopic topic p
  | removeTopicAlias, p => PublishMutators.removeTopicAlias p
  | removeTopicAliasAddTopic topic, p => PublishMutators.removeTopicAliasAddTopic topic p
  | updateMessageExpiryInterval val, p => .ok (PublishMutators.updateMessageExpiryInterval val p)

/-- The topic that the call adds -/
def addedTopic : Mutation → Option Buffer
  | addTopic topic | removeTopicAliasAddTopic topic => some topic
  | _ => none

/-- A topic is added to a packet that has none, and its length fits the length field. -/
def Allowed (m : Mutation) (p : PublishPacket pb) : Prop :=
  ∀ topic ∈ m.addedTopic, p.topicName = [] ∧ topic.length ≤ 65535

/-- The topic that is asked for -/
def topicAfter (m : Mutation) (p : PublishPacket pb) : Buffer :=
  match m with
  | removeTopicAddTopicAlias _ => []
  | addTopic topic | removeTopicAliasAddTopic topic => topic
  | _ => p.topicName

/-- The properties after the call. A new topic alias is put behind all others, the first
    message expiry interval is replaced. -/
def propsAfter (m : Mutation) (p : PublishPacket pb) : Properties :=
  match m with
  | removeTopicAddTopicAlias val | addTopicAlias val => p.props ++ [.topicAlias val.toNat]
  | addTopic _ => p.props
  | removeTopicAlias | removeTopicAliasAddTopic _ => p.props.filter (·.id ≠ .topicAlias)
  | updateMessageExpiryInterval val => p.props.modify
      (p.props.findIdx (·.id = .messageExpiryInterval))
      fun _ => .messageExpiryInterval val.toNat

/-- The topic alias after the call. A packet that has one keeps it. -/
def topicAliasAfter (m : Mutation) (p : PublishPacket pb) : Option Nat :=
  match m with
  | removeTopicAddTopicAlias val | addTopicAlias val =>
    (Connection.getTopicAlias p.props).or (some val.toNat)
  | removeTopicAlias | removeTopicAliasAddTopic _ => none
  | _ => Connection.getTopicAlias p.props

/-- The packet after a call has what was asked for, and the rest of the packet before it. -/
structure Done (m : Mutation) (p q : PublishPacket pb) : Prop where
  topic : q.topic = m.topicAfter p
  topicAlias : Connection.getTopicAlias q.props = m.topicAliasAfter p
  props : q.props = m.propsAfter p
  payloads : q.payloads = p.payloads
  packetIdBuf : q.packetIdBuf = p.packetIdBuf
  fixedHeader : q.fixedHeader = p.fixedHeader

/-- The loop of `update_message_expiry_interval` replaces the first one. -/
theorem updateMessageExpiryInterval_go (val : UInt32) (props : Properties) :
    updateMessageExpiryInterval.go val props =
      props.modify (props.findIdx (·.id = .messageExpiryInterval))
        fun _ => .messageExpiryInterval val.toNat := by
  induction props with
  | nil => rfl
  | cons prop props ih =>
    rw [updateMessageExpiryInterval.go, List.findIdx_cons]
    by_cases hid : prop.id = .messageExpiryInterval
    · simp only [hid, if_true, decide_true, cond_true, List.modify_zero_cons]
    · simp only [hid, if_false, decide_false, cond_false, List.modify_succ_cons, ih]

/-- What every member makes of a consistent packet. -/
theorem call_eq {p : PublishPacket pb} (h : p.Consistent) (hprops : ∀ prop ∈ p.props, prop.InClass)
    {m : Mutation} (hm : m.Allowed p) :
    m.call p = .ok (p.rewritten (m.topicAfter p) (m.propsAfter p)) := by
  -- each call is the one rewriting, with its topic and properties
  cases m with
  | removeTopicAddTopicAlias val => exact removeTopicAddTopicAlias_eq h val
  | addTopicAlias val => exact addTopicAlias_eq h val
  | addTopic topic =>
    obtain ⟨hempty, hle⟩ := hm topic rfl
    exact addTopic_eq h hempty hle
  | removeTopicAlias =>
    have hle := size_propsWithoutTopicAlias_le p
    have hlt := h.lengthWith_lt h.topicName_le (Nat.le_add_right_of_le hle)
    exact (removeTopicAlias_eq h.sized).trans (if_pos hlt)
  | removeTopicAliasAddTopic topic =>
    obtain ⟨hempty, hle⟩ := hm topic rfl
    have hlt := h.lengthWith_lt hle
      (Nat.le_add_right_of_le (size_propsWithoutTopicAlias_le p))
    exact (removeTopicAliasAddTopic_eq h.sized hempty hle).trans (if_pos hlt)
  | updateMessageExpiryInterval val =>
    show Except.ok (PublishMutators.updateMessageExpiryInterval val p) = _
    rw [updateMessageExpiryInterval_eq h hprops, updateMessageExpiryInterval_go]
    rfl

/-- The definitions that the connection uses, which compute with natural numbers -/
def inPlace (m : Mutation) (p : PublishPacket pb) : PublishPacket pb :=
  match m with
  | removeTopicAddTopicAlias val => p.removeTopicAddTopicAlias val.toNat
  | addTopicAlias val => p.addTopicAlias val.toNat
  | addTopic topic => p.addTopic topic
  | removeTopicAlias => p.removeTopicAlias
  | removeTopicAliasAddTopic topic => p.removeTopicAliasAddTopic topic
  | updateMessageExpiryInterval val => PublishMutators.updateMessageExpiryInterval val p

/-- On consistent packets they are what the members compute. -/
theorem call_eq_inPlace {p : PublishPacket pb} (h : p.Consistent)
    (hprops : ∀ prop ∈ p.props, prop.InClass) {m : Mutation} (hm : m.Allowed p) :
    m.call p = .ok (m.inPlace p) := by
  rw [call_eq h hprops hm]
  cases m with
  | removeTopicAddTopicAlias val => exact congrArg _ (h.update_eq _ _).symm
  | addTopicAlias val => exact congrArg _ (h.update_eq _ _).symm
  | removeTopicAlias => exact congrArg _ (h.update_eq _ _).symm
  | removeTopicAliasAddTopic topic => exact congrArg _ (h.update_eq _ _).symm
  | addTopic topic =>
    have hempty := (hm topic rfl).1
    have hlength : p.lengthWith topic p.props = p.remainingLength + topic.length := by
      rw [h.remainingLength_eq, PublishPacket.lengthWith, PublishPacket.lengthWith, hempty,
        List.length_nil]
      omega
    show Except.ok (p.rewritten topic p.props) = .ok (p.addTopic topic)
    unfold PublishPacket.rewritten PublishPacket.addTopic
    rw [hlength, ← h.propertyLength, ← h.propertyLengthBuf]
  | updateMessageExpiryInterval val =>
    show _ = Except.ok (PublishMutators.updateMessageExpiryInterval val p)
    rw [updateMessageExpiryInterval_eq h hprops, updateMessageExpiryInterval_go]
    rfl

/-- The topic after a change is not too long. -/
theorem length_topicAfter_le {p : PublishPacket pb} (h : p.Consistent) {m : Mutation}
    (hm : m.Allowed p) : (m.topicAfter p).length ≤ 65535 := by
  cases m with
  | removeTopicAddTopicAlias val => exact Nat.zero_le 65535
  | addTopic topic => exact (hm topic rfl).2
  | removeTopicAliasAddTopic topic => exact (hm topic rfl).2
  | addTopicAlias | removeTopicAlias | updateMessageExpiryInterval => exact h.topicName_le

/-- The properties after a change are of their kinds. -/
theorem inClass_propsAfter {p : PublishPacket pb} (hprops : ∀ prop ∈ p.props, prop.InClass)
    (m : Mutation) : ∀ prop ∈ m.propsAfter p, prop.InClass := by
  -- an added alias is of its kind
  have hconcat : ∀ val : UInt16, ∀ prop ∈ p.props ++ [.topicAlias val.toNat], prop.InClass := by
    intro val prop hmem
    rcases List.mem_append.mp hmem with hold | hnew
    · exact hprops prop hold
    · obtain rfl := List.mem_singleton.mp hnew
      show PropertyId.Base.nBytes 2 = .nBytes (endianStore 2 val.toNat).length
      rw [length_endianStore]
  -- what is left of the properties was there before
  have hfilter : ∀ prop ∈ p.props.filter (·.id ≠ .topicAlias), prop.InClass :=
    fun prop hmem => hprops prop (List.mem_of_mem_filter hmem)
  cases m with
  | removeTopicAddTopicAlias val => exact hconcat val
  | addTopicAlias val => exact hconcat val
  | addTopic topic => exact hprops
  | removeTopicAlias => exact hfilter
  | removeTopicAliasAddTopic topic => exact hfilter
  -- a replaced interval has the kind of the old one
  | updateMessageExpiryInterval val =>
    intro prop hmem
    obtain ⟨i, hi⟩ := List.mem_iff_getElem?.mp hmem
    rw [propsAfter, List.getElem?_modify] at hi
    obtain ⟨old, hold, hprop⟩ := Option.map_eq_some_iff.mp hi
    split at hprop
    · obtain rfl := hprop
      show PropertyId.Base.nBytes 4 = .nBytes (endianStore 4 val.toNat).length
      rw [length_endianStore]
    · obtain rfl := hprop
      exact hprops old (List.mem_of_getElem? hold)

/-- The alias after a change -/
theorem getTopicAlias_propsAfter (m : Mutation) (p : PublishPacket pb) :
    Connection.getTopicAlias (m.propsAfter p) = m.topicAliasAfter p := by
  have hconcat : ∀ val : UInt16,
      Connection.getTopicAlias (p.props ++ [.topicAlias val.toNat]) =
        (Connection.getTopicAlias p.props).or (some val.toNat) := by
    intro val
    cases halias : Connection.getTopicAlias p.props with
    | none => exact Connection.getTopicAlias_concat halias val.toNat_lt
    | some ta =>
      obtain ⟨prop, hfind, hval⟩ := Option.map_eq_some_iff.mp halias
      have hfirst : Properties.find .topicAlias (p.props ++ [.topicAlias val.toNat]) =
          some prop := by
        rw [Properties.find, List.find?_append]
        show (Properties.find .topicAlias p.props).or _ = some prop
        rw [hfind, Option.some_or]
      rw [Connection.getTopicAlias, hfirst, Option.map_some, hval, Option.some_or]
  have hfilter : Connection.getTopicAlias (p.props.filter (·.id ≠ .topicAlias)) = none := by
    rw [Connection.getTopicAlias, Option.map_eq_none_iff, Properties.find, List.find?_eq_none]
    intro prop hmem
    have hne := (List.mem_filter.mp hmem).2
    simpa using hne
  cases m with
  | removeTopicAddTopicAlias val => exact hconcat val
  | addTopicAlias val => exact hconcat val
  | addTopic topic => rfl
  | removeTopicAlias => exact hfilter
  | removeTopicAliasAddTopic topic => exact hfilter
  | updateMessageExpiryInterval val =>
    show Connection.getTopicAlias (p.props.modify _ _) = Connection.getTopicAlias p.props
    rw [← updateMessageExpiryInterval_go]
    -- neither the replaced property nor the new one is a topic alias
    have hfind : ∀ props : Properties,
        Properties.find .topicAlias (updateMessageExpiryInterval.go val props) =
          Properties.find .topicAlias props := by
      intro props
      unfold Properties.find
      induction props with
      | nil => rfl
      | cons prop props ih =>
        rw [updateMessageExpiryInterval.go]
        split
        · next hid =>
          have hnew : (Property.messageExpiryInterval val.toNat).id ≠ .topicAlias := by rintro ⟨⟩
          have hold : prop.id ≠ .topicAlias := by simp [hid]
          simp only [List.find?_cons, hnew, hold, decide_false]
        · simp only [List.find?_cons, ih]
    exact congrArg (Option.map Property.val) (hfind p.props)

/-- The changed packet is what the method is said to make. -/
theorem done_rewritten (m : Mutation) (p : PublishPacket pb) :
    m.Done p (p.rewritten (m.topicAfter p) (m.propsAfter p)) :=
  ⟨rfl, getTopicAlias_propsAfter m p, rfl, rfl, rfl, rfl⟩

end Mutation

namespace PublishPacket

variable {pb : PacketIdBytes} {p q : PublishPacket pb}

/-- One of the members makes `q` of `p`, and the remaining length stays within the maximum. -/
def Rewrites (p q : PublishPacket pb) : Prop :=
  ∃ m : Mutation, m.Allowed p ∧ m.call p = .ok q ∧ q.remainingLength ≤ 268435455

/-- One change keeps the packet consistent. -/
theorem Rewrites.consistent (h : p.Rewrites q)
    (hp : p.Consistent ∧ ∀ prop ∈ p.props, prop.InClass) :
    q.Consistent ∧ ∀ prop ∈ q.props, prop.InClass := by
  obtain ⟨m, hm, hcall, hle⟩ := h
  rw [Mutation.call_eq hp.1 hp.2 hm] at hcall
  obtain rfl := Except.ok.inj hcall
  have htopic := Mutation.length_topicAfter_le hp.1 hm
  exact ⟨consistent_rewritten htopic hle, Mutation.inClass_propsAfter hp.2 m⟩

/-- Any number of changes keep the packet consistent. -/
theorem consistent_of_rewrites (hp : p.Consistent ∧ ∀ prop ∈ p.props, prop.InClass)
    (h : Relation.ReflTransGen Rewrites p q) :
    q.Consistent ∧ ∀ prop ∈ q.props, prop.InClass := by
  induction h with
  | refl => exact hp
  | tail _ hstep ih => exact hstep.consistent ih

/-- After any sequence of the members, the next one does what it is asked for and leaves the
    packet consistent. It makes what the connection computes with natural numbers. -/
theorem rewrites_keep_lengths (hp : p.Consistent) (hprops : ∀ prop ∈ p.props, prop.InClass)
    (h : Relation.ReflTransGen Rewrites p q) (m : Mutation) (hm : m.Allowed q) :
    ∃ r, m.call q = .ok r ∧ r = m.inPlace q ∧ m.Done q r ∧
      (r.remainingLength ≤ 268435455 → r.Consistent) := by
  have hq := consistent_of_rewrites ⟨hp, hprops⟩ h
  have htopic := Mutation.length_topicAfter_le hq.1 hm
  have hcall := Mutation.call_eq hq.1 hq.2 hm
  have hinPlace := hcall.symm.trans (Mutation.call_eq_inPlace hq.1 hq.2 hm)
  exact ⟨_, hcall, Except.ok.inj hinPlace, Mutation.done_rewritten m q,
    fun hle => consistent_rewritten htopic hle⟩

/-- A PUBLISH gets the alias 7 and then loses it and gets its topic back. -/
theorem rewrites_keep_lengths_of_alias :
    ∃ p q : PublishPacket .two, p.Consistent ∧ Relation.ReflTransGen Rewrites p q ∧
      ∃ r, (Mutation.removeTopicAliasAddTopic [0x61]).call q = .ok r ∧
        r = (Mutation.removeTopicAliasAddTopic [0x61]).inPlace q ∧
        Mutation.Done (.removeTopicAliasAddTopic [0x61]) q r ∧
        (r.remainingLength ≤ 268435455 → r.Consistent) := by
  let p : PublishPacket .two :=
    ⟨0x30, [0x61], [0, 1], [0, 0], 0, [0], [], [[0x62]], 5, [5]⟩
  have hp : p.Consistent :=
    ⟨by decide, by decide, rfl, by decide, by decide, by decide, by decide⟩
  have hstep : Rewrites p ⟨0x30, [], [0, 0], [0, 0], 3, [3], [.topicAlias 7], [[0x62]], 7, [7]⟩ :=
    ⟨.removeTopicAddTopicAlias 7, nofun, by decide, by decide⟩
  refine ⟨p, _, hp, .single hstep, rewrites_keep_lengths hp nofun (.single hstep) _ ?_⟩
  intro topic htopic
  obtain rfl := Option.some.inj htopic
  exact ⟨rfl, by decide⟩

/-- The alias 2 is added to a PUBLISH that has the alias 1: the packet then carries both, and
    everyone who reads it takes the first one. -/
theorem second_topic_alias :
    ∃ p q : PublishPacket .two,
      publishPacket .two 0 [0x61] [] 0 [.topicAlias 1] = .ok p ∧ p.Consistent ∧
      PublishMutators.addTopicAlias 2 p = .ok q ∧ q.remainingLength ≤ 268435455 ∧
      q.props = [.topicAlias 1, .topicAlias 2] ∧
      Connection.getTopicAlias q.props = some 1 := by
  refine ⟨⟨0x30, [0x61], [0, 1], [0, 0], 3, [3], [.topicAlias 1], [], 7, [7]⟩,
    ⟨0x30, [0x61], [0, 1], [0, 0], 6, [6], [.topicAlias 1, .topicAlias 2], [], 10, [10]⟩,
    by decide, ?_, by decide, by decide, rfl, by decide⟩
  exact ⟨by decide, by decide, by decide, by decide, by decide, by decide, by decide⟩

end PublishPacket

end V5

end AsyncMqtt
