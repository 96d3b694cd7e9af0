import AsyncMqtt.Spec.FrameLayout
import AsyncMqtt.Spec.ReceivedCorrect

/-!
# Decoded packets and the rules of the constructors

Every frame that `buffer_to_basic_packet_variant` accepts, whatever the version. The decoders check
the strings, the locations of the properties and most of their values; the packet follows all rules
of the public constructors exactly when the frame follows the rules that the decoders leave out.

## Key results

- `Located`: a packet is read from where the layout of the frame says
- `bufferToPacketVariant_rules_iff`: the accepted frames whose packet follows the rules
-/

namespace AsyncMqtt

open ByteReader

variable {pb : PacketIdBytes}

/-- The packet is read from the frame: its strings are checked, and the packet identifier and the
    property sections are where the layout has them. -/
structure Located (v5 : Bool) (type : ControlPacketType) (frame : List UInt8)
    (v : PacketVariant pb) : Prop where
  strings : ∀ s ∈ v.strings, utf8StringCheck s = true
  publishId : (∀ id ∈ v.publishId, id ≠ 0) ↔ PublishIdRule pb type frame
  sections : List.Forall₂ (fun s x => ∃ left, (makeProperties x.1).run s = .ok (x.2, left))
    (if v5 then propertySections pb type frame else []) v.propertyLists

/-- The rules of the properties can be told from the bytes of their sections. -/
theorem rules_of_sections {sections : List (List UInt8)}
    {lists : List (PropertyLocation × Properties)}
    (h : List.Forall₂ (fun s x => ∃ left, (makeProperties x.1).run s = .ok (x.2, left))
      sections lists) :
    (∀ x ∈ lists, ∀ p ∈ x.2, validateProperty x.1 p.id = true ∧ p.Rule) ↔
      ∀ s ∈ sections, ∀ f ∈ sectionFields s, f.Rule := by
  induction h with
  | nil => simp
  | @cons s x sections lists hx _ ih =>
    obtain ⟨left, hrun⟩ := hx
    obtain ⟨hloc, hrules⟩ := rules_of_fields hrun
    have hhead : (∀ p ∈ x.2, validateProperty x.1 p.id = true ∧ p.Rule) ↔
        ∀ f ∈ sectionFields s, f.Rule :=
      ⟨fun hp => hrules.mp fun p hmem => (hp p hmem).2,
        fun hf p hmem => ⟨hloc p hmem, hrules.mpr hf p hmem⟩⟩
    rw [List.forall_mem_cons, List.forall_mem_cons, ih, hhead]

/-- A located packet meets the rules of its constructor exactly when its frame does. -/
theorem Located.rules_iff {v5 : Bool} {type : ControlPacketType} {frame : List UInt8}
    {v : PacketVariant pb} (h : Located v5 type frame v) :
    v.ConstructorRules ↔ FrameRules pb v5 type frame := by
  have hprops := rules_of_sections h.sections
  constructor
  · intro hv
    refine ⟨h.publishId.mp hv.publishId, fun hv5 => ?_⟩
    rw [if_pos hv5] at hprops
    exact hprops.mp hv.props
  · intro hf
    refine ⟨h.strings, h.publishId.mpr hf.publishId, hprops.mpr ?_⟩
    cases v5 with
    | true => exact hf.fields rfl
    | false => simp

/-! ### What the steps of the decoders leave -/

section Steps

variable {buf rest : List UInt8} {ec : ErrorCode}

/-- The remaining length is skipped. -/
theorem run_readRemainingLength_ok {r : Nat × List UInt8}
    (h : (readRemainingLength ec).run buf = .ok (r, rest)) : rest = skipVarInt buf := by
  rw [run_readRemainingLength] at h
  unfold skipVarInt
  split at h
  · exact nomatch h
  · next hval =>
    cases h
    rw [hval]

/-- The check of the remaining length skips nothing. -/
theorem run_checkRemainingLength_ok {n : Nat} {u : Unit}
    (h : (checkRemainingLength n ec).run buf = .ok (u, rest)) : rest = buf := by
  rw [checkRemainingLength, run_bind_of_ok (run_remaining _)] at h
  exact (run_failIf_ok h).2

/-- So many bytes are skipped. -/
theorem run_readBytes_ok {n : Nat} {bs : List UInt8}
    (h : (readBytes n ec).run buf = .ok (bs, rest)) : bs = buf.take n ∧ rest = buf.drop n := by
  rw [run_readBytes] at h
  split at h
  · exact nomatch h
  · cases h
    exact ⟨rfl, rfl⟩

/-- A string is skipped, and its bytes passed the check. -/
theorem run_readLengthPrefixed_ok {check : List UInt8 → Bool} {r : List UInt8 × List UInt8}
    (h : (readLengthPrefixed check ec).run buf = .ok (r, rest)) :
    check r.2 = true ∧ rest = skipString buf := by
  rw [run_readLengthPrefixed] at h
  simp only at h
  split at h
  · exact nomatch h
  · next hcond =>
    cases h
    simp only [not_or, Bool.not_eq_false] at hcond
    exact ⟨hcond.2.2, rfl⟩

/-- The properties are skipped, and they are read from their section. -/
theorem readProperties_located {loc : PropertyLocation} {r : Nat × Buffer × Properties}
    (h : (readProperties loc ec).run buf = .ok (r, rest)) :
    rest = skipProperties buf ∧
      ∃ left, (makeProperties loc).run (propertySection buf) = .ok (r.2.2, left) := by
  obtain ⟨n, lenBuf, props⟩ := r
  obtain ⟨bs, left, hval, -, hlen, hmany⟩ := run_readProperties_ok h
  unfold skipProperties propertySection
  simp only [hval, ← hlen, List.drop_left, List.take_left, true_and]
  exact ⟨left, hmany⟩

/-- Nothing follows the last field. -/
theorem run_checkEnd_ok {u : Unit} (h : V5.checkEnd.run buf = .ok (u, rest)) : buf = [] := by
  rw [V5.checkEnd, run_bind_of_ok (run_remaining _)] at h
  exact not_not.mp (run_failIf_ok h).1

/-- The packet identifier is skipped, if there is one. -/
theorem readPublishPacketId_located {fixedHeader : UInt8} {bs : Buffer}
    (h : (readPublishPacketId pb fixedHeader).run buf = .ok (bs, rest)) :
    rest = skipPublishId pb fixedHeader buf ∧
      (Pub.getQos fixedHeader ≠ 0 → endianLoad pb.bytes bs = endianLoad pb.bytes buf) := by
  unfold readPublishPacketId at h
  rw [skipPublishId]
  -- QoS 0 and 3 have no identifier, and the latter is refused
  rcases getQos_cases fixedHeader with hqos | hqos | hqos | hqos
  · rw [hqos] at h
    cases h
    exact ⟨(if_pos hqos).symm, fun hne => absurd hqos hne⟩
  · rw [hqos] at h
    obtain ⟨rfl, rfl⟩ := run_readBytes_ok h
    rw [hqos, if_neg (by decide), endianLoad, endianLoad, List.take_take, Nat.min_self]
    exact ⟨rfl, fun _ => rfl⟩
  · rw [hqos] at h
    obtain ⟨rfl, rfl⟩ := run_readBytes_ok h
    rw [hqos, if_neg (by decide), endianLoad, endianLoad, List.take_take, Nat.min_self]
    exact ⟨rfl, fun _ => rfl⟩
  · rw [hqos] at h
    cases h

/-- The flags of a CONNECT are one byte. -/
theorem run_readConnectFlags_ok {flags : UInt8}
    (h : readConnectFlags.run buf = .ok (flags, rest)) : buf = flags :: rest := by
  rw [readConnectFlags, run_bind_of_ok (run_remaining _)] at h
  obtain ⟨hlen, h⟩ := run_failIf_bind_ok h
  cases buf with
  | nil => simp at hlen
  | cons b tail =>
    rw [run_bind_of_ok (run_front_cons _ _)] at h
    obtain ⟨-, h⟩ := run_failIf_bind_ok h
    rw [run_bind_of_ok (run_removePrefix_one_cons _ _), run_pure] at h
    cases h
    rfl

/-- The user name is UTF-8. -/
theorem run_readUserName_ok {flags : UInt8} {r : Buffer × Buffer}
    (h : (readUserName flags).run buf = .ok (r, rest)) : utf8StringCheck r.2 = true := by
  unfold readUserName at h
  split at h
  · exact (run_readLengthPrefixed_ok h).1
  · cases h
    rfl

end Steps

/-! ### v3.1.1 -/

/-- Only PUBLISH has the rule about packet identifiers. -/
theorem Located.of_no_publishId {v5 : Bool} {type : ControlPacketType} {frame : List UInt8}
    {v : PacketVariant pb} (htype : type ≠ .publish) (hid : v.publishId = none)
    (hstrings : ∀ s ∈ v.strings, utf8StringCheck s = true)
    (hsections : List.Forall₂ (fun s x => ∃ left, (makeProperties x.1).run s = .ok (x.2, left))
      (if v5 then propertySections pb type frame else []) v.propertyLists) :
    Located v5 type frame v where
  strings := hstrings
  publishId := by
    rw [hid]
    exact ⟨fun _ hpublish => absurd hpublish htype, fun _ id hmem => nomatch hmem⟩
  sections := hsections

/-- The packet identifier of a PUBLISH is 0 exactly when its bytes say so. -/
theorem publishId_iff {v : PacketVariant pb} {h : UInt8} {tail : List UInt8} {packetId : Nat}
    (hid : v.publishId = if Pub.getQos h = 0 then none else some packetId)
    (hload : Pub.getQos h ≠ 0 →
      packetId = endianLoad pb.bytes (skipString (frameBody (h :: tail)))) :
    (∀ id ∈ v.publishId, id ≠ 0) ↔ PublishIdRule pb .publish (h :: tail) := by
  rw [hid]
  by_cases hqos : Pub.getQos h = 0
  · simp [PublishIdRule, hqos]
  · simp [PublishIdRule, hqos, hload hqos]

namespace V311

variable {frame rest : List UInt8}

/-- A v3.1.1 CONNECT is located in its frame. -/
theorem located_connect {p : ConnectPacket} (h : ConnectPacket.decode.run frame = .ok (p, rest)) :
    Located false .connect frame (.v311Connect p : PacketVariant pb) := by
  rw [ConnectPacket.decode] at h
  obtain ⟨_, _, -, h⟩ := run_bind_ok h
  obtain ⟨_, _, -, h⟩ := run_bind_ok h
  obtain ⟨_, _, -, h⟩ := run_bind_ok h
  obtain ⟨_, _, -, h⟩ := run_bind_ok h
  obtain ⟨_, _, -, h⟩ := run_bind_ok h
  obtain ⟨flags, _, -, h⟩ := run_bind_ok h
  obtain ⟨_, _, -, h⟩ := run_bind_ok h
  obtain ⟨_, _, hclient, h⟩ := run_bind_ok h
  obtain ⟨will, _, hwill, h⟩ := run_bind_ok h
  obtain ⟨_, _, huser, h⟩ := run_bind_ok h
  obtain ⟨_, _, -, h⟩ := run_bind_ok h
  cases h
  -- the topic of the will was checked, if there is a will
  have htopic : utf8StringCheck will.1.2 = true := by
    unfold ConnectPacket.readWill at hwill
    split at hwill
    · obtain ⟨_, _, -, hwill⟩ := run_bind_ok hwill
      obtain ⟨_, _, htopic, hwill⟩ := run_bind_ok hwill
      obtain ⟨_, _, -, hwill⟩ := run_bind_ok hwill
      cases hwill
      exact (run_readLengthPrefixed_ok htopic).1
    · obtain ⟨_, _, -, hwill⟩ := run_bind_ok hwill
      cases hwill
      rfl
  refine .of_no_publishId (by rintro ⟨⟩) rfl ?_ .nil
  simp only [PacketVariant.strings, List.mem_cons, List.not_mem_nil, or_false, forall_eq_or_imp,
    forall_eq]
  exact ⟨(run_readLengthPrefixed_ok hclient).1, htopic, run_readUserName_ok huser⟩

/-- A v3.1.1 PUBLISH is located in its frame. -/
theorem located_publish {p : PublishPacket pb}
    (h : (PublishPacket.decode pb).run frame = .ok (p, rest)) :
    Located false .publish frame (.v311Publish p) := by
  rw [PublishPacket.decode] at h
  obtain ⟨b, _, hheader, h⟩ := run_bind_ok h
  obtain ⟨_, _, hlen, h⟩ := run_bind_ok h
  obtain ⟨_, _, hcheck, h⟩ := run_bind_ok h
  obtain ⟨_, _, htopic, h⟩ := run_bind_ok h
  obtain ⟨bs, _, hid, h⟩ := run_bind_ok h
  obtain ⟨_, _, -, h⟩ := run_bind_ok h
  cases h
  obtain ⟨rfl, -⟩ := run_readFixedHeaderWithCheck_ok hheader
  obtain rfl := run_readRemainingLength_ok hlen
  obtain rfl := run_checkRemainingLength_ok hcheck
  obtain ⟨hutf8, rfl⟩ := run_readLengthPrefixed_ok htopic
  -- the identifier is skipped by as many bytes as the QoS says
  obtain ⟨-, hload⟩ := readPublishPacketId_located hid
  exact {
    strings := by simpa [PacketVariant.strings] using hutf8
    publishId := publishId_iff rfl hload
    sections := .nil }

/-- The strings of the entries, which are decoded together with their length bytes. -/
theorem forall_mem_entries {α : Type} {topic : α → Buffer} {entries : List (Buffer × α)}
    (h : ∀ e ∈ entries, utf8StringCheck (topic e.2) = true) :
    ∀ s ∈ (entries.map Prod.snd).map topic, utf8StringCheck s = true := by
  intro s hs
  obtain ⟨a, ha, rfl⟩ := List.mem_map.mp hs
  obtain ⟨e, he, rfl⟩ := List.mem_map.mp ha
  exact h e he

/-- The topic filter of an entry is UTF-8. -/
theorem readEntry_subscribe_utf8 {buf rest : List UInt8} {e : Buffer × TopicSubopts}
    (h : SubscribePacket.readEntry.run buf = .ok (e, rest)) :
    utf8StringCheck e.2.allTopic = true := by
  rw [SubscribePacket.readEntry] at h
  obtain ⟨_, _, htopic, h⟩ := run_bind_ok h
  obtain ⟨_, _, -, h⟩ := run_bind_ok h
  obtain ⟨-, h⟩ := run_failIf_bind_ok h
  obtain ⟨_, _, -, h⟩ := run_bind_ok h
  obtain ⟨-, h⟩ := run_failIf_bind_ok h
  obtain ⟨_, _, -, h⟩ := run_bind_ok h
  cases h
  exact (run_readLengthPrefixed_ok htopic).1

/-- The topic filter of an entry of an UNSUBSCRIBE is UTF-8. -/
theorem readEntry_unsubscribe_utf8 {buf rest : List UInt8} {e : Buffer × TopicSharename}
    (h : UnsubscribePacket.readEntry.run buf = .ok (e, rest)) :
    utf8StringCheck e.2.allTopic = true := by
  rw [UnsubscribePacket.readEntry] at h
  obtain ⟨_, _, htopic, h⟩ := run_bind_ok h
  cases h
  exact (run_readLengthPrefixed_ok htopic).1

/-- A v3.1.1 SUBSCRIBE is located in its frame. -/
theorem located_subscribe {p : SubscribePacket pb}
    (h : (SubscribePacket.decode pb).run frame = .ok (p, rest)) :
    Located false .subscribe frame (.v311Subscribe p) := by
  rw [SubscribePacket.decode] at h
  obtain ⟨_, _, -, h⟩ := run_bind_ok h
  obtain ⟨_, _, -, h⟩ := run_bind_ok h
  obtain ⟨_, _, -, h⟩ := run_bind_ok h
  obtain ⟨_, _, -, h⟩ := run_bind_ok h
  obtain ⟨_, _, -, h⟩ := run_bind_ok h
  obtain ⟨entries, _, hentries, h⟩ := run_bind_ok h
  cases h
  have hutf8 := run_many_forall (fun _ _ _ hread => readEntry_subscribe_utf8 hread) hentries
  exact .of_no_publishId (by rintro ⟨⟩) rfl (forall_mem_entries hutf8) .nil

/-- A v3.1.1 UNSUBSCRIBE is located in its frame. -/
theorem located_unsubscribe {p : UnsubscribePacket pb}
    (h : (UnsubscribePacket.decode pb).run frame = .ok (p, rest)) :
    Located false .unsubscribe frame (.v311Unsubscribe p) := by
  rw [UnsubscribePacket.decode] at h
  obtain ⟨_, _, -, h⟩ := run_bind_ok h
  obtain ⟨_, _, -, h⟩ := run_bind_ok h
  obtain ⟨_, _, -, h⟩ := run_bind_ok h
  obtain ⟨_, _, -, h⟩ := run_bind_ok h
  obtain ⟨_, _, -, h⟩ := run_bind_ok h
  obtain ⟨entries, _, hentries, h⟩ := run_bind_ok h
  cases h
  have hutf8 := run_many_forall (fun _ _ _ hread => readEntry_unsubscribe_utf8 hread) hentries
  exact .of_no_publishId (by rintro ⟨⟩) rfl (forall_mem_entries hutf8) .nil

/-- What the v3.1.1 decoder of a control packet type accepts. -/
theorem located_of_decode {type : ControlPacketType} {v : PacketVariant pb}
    (h : (decodeV311 pb type).run frame = .ok (v, rest)) : Located false type frame v := by
  -- the types with a topic have a layout of their own, the others have nothing to check
  cases type with
  | connect =>
    obtain ⟨p, hp, rfl⟩ := run_map_ok h
    exact located_connect hp
  | publish =>
    obtain ⟨p, hp, rfl⟩ := run_map_ok h
    exact located_publish hp
  | subscribe =>
    obtain ⟨p, hp, rfl⟩ := run_map_ok h
    exact located_subscribe hp
  | unsubscribe =>
    obtain ⟨p, hp, rfl⟩ := run_map_ok h
    exact located_unsubscribe hp
  | auth => exact nomatch h
  | _ =>
    obtain ⟨p, -, rfl⟩ := run_map_ok h
    exact .of_no_publishId nofun rfl nofun .nil

end V311

/-! ### v5.0 -/

namespace V5

variable {frame rest : List UInt8}

/-- One property section. -/
theorem forall₂_single {loc : PropertyLocation} {buf rest : List UInt8} {ec : ErrorCode}
    {r : Nat × Buffer × Properties} (h : (readProperties loc ec).run buf = .ok (r, rest)) :
    List.Forall₂ (fun s (x : PropertyLocation × Properties) =>
      ∃ left, (makeProperties x.1).run s = .ok (x.2, left)) [propertySection buf] [(loc, r.2.2)] :=
  .cons (readProperties_located h).2 .nil

/-- The will of a v5 CONNECT has a topic in UTF-8 and properties from their own section. -/
theorem readWill_located {flags : UInt8} {buf rest : List UInt8}
    {r : (Nat × Buffer × Properties) × (Buffer × Buffer) × (Buffer × Buffer)}
    (h : (ConnectPacket.readWill flags).run buf = .ok (r, rest)) :
    utf8StringCheck r.2.1.2 = true ∧ ∃ left, (makeProperties .will).run
      (if ConnectFlags.hasWillFlag flags then propertySection buf else []) = .ok (r.1.2.2, left) := by
  unfold ConnectPacket.readWill at h
  split at h
  · next hflag =>
    obtain ⟨_, buf', hcheck, h⟩ := run_bind_ok h
    obtain ⟨_, _, hprops, h⟩ := run_bind_ok h
    obtain ⟨_, _, htopic, h⟩ := run_bind_ok h
    obtain ⟨_, _, -, h⟩ := run_bind_ok h
    cases h
    -- the topic of the Will comes behind its properties
    obtain ⟨-, rfl⟩ := run_failIf_ok hcheck
    rw [if_pos hflag]
    exact ⟨(run_readLengthPrefixed_ok htopic).1, (readProperties_located hprops).2⟩
  · next hflag =>
    obtain ⟨_, _, -, h⟩ := run_bind_ok h
    cases h
    rw [if_neg hflag]
    exact ⟨rfl, [], rfl⟩

/-- A v5 CONNECT is located in its frame, with its two lists of properties. -/
theorem located_connect {p : ConnectPacket} (h : ConnectPacket.decode.run frame = .ok (p, rest)) :
    Located true .connect frame (.v5Connect p : PacketVariant pb) := by
  rw [ConnectPacket.decode] at h
  obtain ⟨b, _, hheader, h⟩ := run_bind_ok h
  obtain ⟨_, _, hlen, h⟩ := run_bind_ok h
  obtain ⟨_, _, hcheck, h⟩ := run_bind_ok h
  obtain ⟨_, body, hname, h⟩ := run_bind_ok h
  obtain ⟨_, body', hlevel, h⟩ := run_bind_ok h
  obtain ⟨flags, tail, hflags, h⟩ := run_bind_ok h
  obtain ⟨_, _, hkeep, h⟩ := run_bind_ok h
  obtain ⟨_, _, hprops, h⟩ := run_bind_ok h
  obtain ⟨_, _, hclient, h⟩ := run_bind_ok h
  obtain ⟨will, _, hwill, h⟩ := run_bind_ok h
  obtain ⟨_, _, huser, h⟩ := run_bind_ok h
  obtain ⟨_, _, -, h⟩ := run_bind_ok h
  cases h
  obtain ⟨rfl, -⟩ := run_readFixedHeaderWithCheck_ok hheader
  obtain rfl := run_readRemainingLength_ok hlen
  obtain rfl := run_checkRemainingLength_ok hcheck
  obtain ⟨-, rfl⟩ := run_readBytes_ok hname
  obtain ⟨-, rfl⟩ := run_failIf_ok hlevel
  have hdrop := run_readConnectFlags_ok hflags
  obtain ⟨-, rfl⟩ := run_readBytes_ok hkeep
  obtain ⟨rfl, hsection⟩ := readProperties_located hprops
  obtain ⟨hclientUtf8, rfl⟩ := run_readLengthPrefixed_ok hclient
  -- the flags are the byte at index 7, and two bytes follow before the properties
  generalize hbody : skipVarInt _ = body at *
  have hbody' : frameBody (b :: _) = body := hbody
  have htail : body.drop 10 = tail.drop 2 := by
    have := congrArg (List.drop 3) hdrop
    rwa [List.drop_drop, List.drop_succ_cons] at this
  have hflag : body.getD 7 0 = flags := by
    have := congrArg List.head? hdrop
    rw [List.head?_drop, List.head?_cons] at this
    rw [List.getD_eq_getElem?_getD, this, Option.getD_some]
  obtain ⟨htopic, hwillSection⟩ := readWill_located hwill
  refine .of_no_publishId (by rintro ⟨⟩) rfl ?_ ?_
  · simp only [PacketVariant.strings, List.mem_cons, List.not_mem_nil, or_false, forall_eq_or_imp,
      forall_eq]
    exact ⟨hclientUtf8, htopic, run_readUserName_ok huser⟩
  · simp only [propertySections, hbody', htail, hflag, if_true, PacketVariant.propertyLists]
    exact .cons hsection (.cons hwillSection .nil)

/-- A v5 CONNACK is located in its frame. -/
theorem located_connack {p : ConnackPacket} (h : ConnackPacket.decode.run frame = .ok (p, rest)) :
    Located true .connack frame (.v5Connack p : PacketVariant pb) := by
  rw [ConnackPacket.decode] at h
  obtain ⟨b, _, hheader, h⟩ := run_bind_ok h
  obtain ⟨_, _, hlen, h⟩ := run_bind_ok h
  obtain ⟨_, _, hcheck, h⟩ := run_bind_ok h
  obtain ⟨flags, tail, hflags, h⟩ := run_bind_ok h
  obtain ⟨_, _, hflagsOk, h⟩ := run_bind_ok h
  obtain ⟨code, _, hcode, h⟩ := run_bind_ok h
  obtain ⟨_, _, hremove, h⟩ := run_bind_ok h
  obtain ⟨_, _, hcodeOk, h⟩ := run_bind_ok h
  obtain ⟨_, _, hprops, h⟩ := run_bind_ok h
  obtain ⟨_, _, -, h⟩ := run_bind_ok h
  cases h
  -- the fields before the properties are skipped
  obtain ⟨rfl, -⟩ := run_readFixedHeaderWithCheck_ok hheader
  obtain rfl := run_readRemainingLength_ok hlen
  obtain rfl := run_checkRemainingLength_ok hcheck
  have hbody := run_readByte_ok hflags
  obtain ⟨-, rfl⟩ := run_failIf_ok hcodeOk
  obtain rfl := run_removePrefix_ok hremove
  obtain rfl := run_front_ok hcode
  obtain ⟨-, rfl⟩ := run_failIf_ok hflagsOk
  have hdrop : (frameBody (b :: _)).drop 2 = _ := congrArg (List.drop 2) hbody
  refine .of_no_publishId (by rintro ⟨⟩) rfl (by rintro _ ⟨⟩) ?_
  simp only [propertySections, hdrop, if_true, PacketVariant.propertyLists]
  exact forall₂_single hprops

/-- A v5 PUBLISH is located in its frame. -/
theorem located_publish {p : PublishPacket pb}
    (h : (PublishPacket.decode pb).run frame = .ok (p, rest)) :
    Located true .publish frame (.v5Publish p) := by
  rw [PublishPacket.decode] at h
  obtain ⟨b, _, hheader, h⟩ := run_bind_ok h
  obtain ⟨_, _, hlen, h⟩ := run_bind_ok h
  obtain ⟨_, _, htopic, h⟩ := run_bind_ok h
  obtain ⟨bs, _, hid, h⟩ := run_bind_ok h
  obtain ⟨_, _, hprops, h⟩ := run_bind_ok h
  obtain ⟨_, _, -, h⟩ := run_bind_ok h
  cases h
  obtain rfl := run_readByte_ok hheader
  obtain rfl := run_readRemainingLength_ok hlen
  obtain ⟨hutf8, rfl⟩ := run_readLengthPrefixed_ok htopic
  -- the properties come behind the identifier
  obtain ⟨rfl, hload⟩ := readPublishPacketId_located hid
  exact {
    strings := by simpa [PacketVariant.strings] using hutf8
    publishId := publishId_iff rfl hload
    sections := forall₂_single hprops }

/-- The topic filter of a v5 entry is UTF-8. -/
theorem readEntry_subscribe_utf8 {buf rest : List UInt8} {e : Buffer × TopicSubopts}
    (h : SubscribePacket.readEntry.run buf = .ok (e, rest)) :
    utf8StringCheck e.2.allTopic = true := by
  rw [SubscribePacket.readEntry] at h
  obtain ⟨_, _, htopic, h⟩ := run_bind_ok h
  obtain ⟨_, _, -, h⟩ := run_bind_ok h
  obtain ⟨-, h⟩ := run_failIf_bind_ok h
  obtain ⟨_, _, -, h⟩ := run_bind_ok h
  obtain ⟨-, h⟩ := run_failIf_bind_ok h
  obtain ⟨-, h⟩ := run_failIf_bind_ok h
  obtain ⟨_, _, -, h⟩ := run_bind_ok h
  cases h
  exact (run_readLengthPrefixed_ok htopic).1

/-- A v5 SUBSCRIBE is located in its frame. -/
theorem located_subscribe {p : SubscribePacket pb}
    (h : (SubscribePacket.decode pb).run frame = .ok (p, rest)) :
    Located true .subscribe frame (.v5Subscribe p) := by
  rw [SubscribePacket.decode] at h
  obtain ⟨b, _, hheader, h⟩ := run_bind_ok h
  obtain ⟨_, _, hlen, h⟩ := run_bind_ok h
  obtain ⟨_, _, hcheck, h⟩ := run_bind_ok h
  obtain ⟨_, _, hid, h⟩ := run_bind_ok h
  obtain ⟨_, _, hprops, h⟩ := run_bind_ok h
  obtain ⟨_, _, -, h⟩ := run_bind_ok h
  obtain ⟨entries, _, hentries, h⟩ := run_bind_ok h
  cases h
  obtain ⟨rfl, -⟩ := run_readFixedHeaderWithCheck_ok hheader
  obtain rfl := run_readRemainingLength_ok hlen
  obtain rfl := run_checkRemainingLength_ok hcheck
  obtain ⟨-, rfl⟩ := run_readBytes_ok hid
  -- each entry was checked when it was read
  have hutf8 := run_many_forall (fun _ _ _ hread => readEntry_subscribe_utf8 hread) hentries
  exact .of_no_publishId (by rintro ⟨⟩) rfl (V311.forall_mem_entries hutf8) (forall₂_single hprops)

/-- A v5 UNSUBSCRIBE is located in its frame. -/
theorem located_unsubscribe {p : UnsubscribePacket pb}
    (h : (UnsubscribePacket.decode pb).run frame = .ok (p, rest)) :
    Located true .unsubscribe frame (.v5Unsubscribe p) := by
  rw [UnsubscribePacket.decode] at h
  obtain ⟨b, _, hheader, h⟩ := run_bind_ok h
  obtain ⟨_, _, hlen, h⟩ := run_bind_ok h
  obtain ⟨_, _, hcheck, h⟩ := run_bind_ok h
  obtain ⟨_, _, hid, h⟩ := run_bind_ok h
  obtain ⟨_, _, hprops, h⟩ := run_bind_ok h
  obtain ⟨_, _, -, h⟩ := run_bind_ok h
  obtain ⟨entries, _, hentries, h⟩ := run_bind_ok h
  cases h
  obtain ⟨rfl, -⟩ := run_readFixedHeaderWithCheck_ok hheader
  obtain rfl := run_readRemainingLength_ok hlen
  obtain rfl := run_checkRemainingLength_ok hcheck
  obtain ⟨-, rfl⟩ := run_readBytes_ok hid
  have hutf8 := run_many_forall (fun _ _ _ hread => V311.readEntry_unsubscribe_utf8 hread) hentries
  exact .of_no_publishId (by rintro ⟨⟩) rfl (V311.forall_mem_entries hutf8) (forall₂_single hprops)

/-- The properties of a v5 SUBACK or UNSUBACK are located in its frame. -/
theorem located_subResponse {type : ControlPacketType} {loc : PropertyLocation}
    {reasonCodes : List UInt8} {p : SubResponsePacket pb}
    (h : (SubResponsePacket.decode type loc reasonCodes pb).run frame = .ok (p, rest)) :
    List.Forall₂ (fun s (x : PropertyLocation × Properties) =>
      ∃ left, (makeProperties x.1).run s = .ok (x.2, left))
      [propertySection ((frameBody frame).drop pb.bytes)] [(loc, p.props)] := by
  rw [SubResponsePacket.decode] at h
  obtain ⟨b, _, hheader, h⟩ := run_bind_ok h
  obtain ⟨_, _, hlen, h⟩ := run_bind_ok h
  obtain ⟨_, _, hcheck, h⟩ := run_bind_ok h
  obtain ⟨_, _, hid, h⟩ := run_bind_ok h
  obtain ⟨_, _, hprops, h⟩ := run_bind_ok h
  obtain ⟨_, _, -, h⟩ := run_bind_ok h
  obtain ⟨_, _, -, h⟩ := run_bind_ok h
  cases h
  obtain ⟨rfl, -⟩ := run_readFixedHeaderWithCheck_ok hheader
  obtain rfl := run_readRemainingLength_ok hlen
  obtain rfl := run_checkRemainingLength_ok hcheck
  obtain ⟨-, rfl⟩ := run_readBytes_ok hid
  exact forall₂_single hprops

/-- The properties behind the reason code; where they are left out, there is nothing. -/
theorem tail_located {loc : PropertyLocation} {reasonCodes : List UInt8} {rl noCode noProps : Nat}
    {buf rest : List UInt8} {t : ReasonTail}
    (h : (ReasonTail.decode loc reasonCodes rl noCode noProps).run buf = .ok (t, rest)) :
    ∃ left, (makeProperties loc).run (propertySection (buf.drop 1)) = .ok (t.props, left) := by
  rw [ReasonTail.decode] at h
  -- there is no code, a code alone, or a code with properties
  split at h
  · obtain ⟨_, _, hend, h⟩ := run_bind_ok h
    cases h
    rw [run_checkEnd_ok hend]
    exact ⟨[], rfl⟩
  · obtain ⟨code, buf', hcode, hafter⟩ := run_bind_ok h
    obtain ⟨_, buf'', hremove, hcheck⟩ := run_bind_ok hafter
    obtain ⟨-, htail⟩ := run_failIf_bind_ok hcheck
    have hbuf : buf'' = buf.drop 1 := by
      rw [run_removePrefix_ok hremove, run_front_ok hcode]
    rw [← hbuf]
    split at htail
    · obtain ⟨_, _, hend, hpure⟩ := run_bind_ok htail
      cases hpure
      rw [run_checkEnd_ok hend]
      exact ⟨[], rfl⟩
    · obtain ⟨_, _, hprops, hrest⟩ := run_bind_ok htail
      obtain ⟨_, _, -, hpure⟩ := run_bind_ok hrest
      cases hpure
      exact (readProperties_located hprops).2

/-- The properties of a v5 response to a PUBLISH are located in its frame, which may end before
    them. -/
theorem located_pubResponse {loc : PropertyLocation} {reasonCodes : List UInt8}
    {p : PubResponsePacket pb}
    (h : (PubResponsePacket.decode loc reasonCodes pb).run frame = .ok (p, rest)) :
    List.Forall₂ (fun s (x : PropertyLocation × Properties) =>
      ∃ left, (makeProperties x.1).run s = .ok (x.2, left))
      [propertySection ((frameBody frame).drop (pb.bytes + 1))] [(loc, p.props)] := by
  rw [PubResponsePacket.decode] at h
  obtain ⟨b, _, hheader, h⟩ := run_bind_ok h
  obtain ⟨_, _, hlen, h⟩ := run_bind_ok h
  obtain ⟨_, _, hid, h⟩ := run_bind_ok h
  obtain ⟨_, _, htail, h⟩ := run_bind_ok h
  cases h
  obtain rfl := run_readByte_ok hheader
  obtain rfl := run_readRemainingLength_ok hlen
  obtain ⟨-, rfl⟩ := run_readBytes_ok hid
  have hsection := tail_located htail
  rw [List.drop_drop] at hsection
  exact .cons hsection .nil

/-- The properties of a v5 DISCONNECT or AUTH are located in its frame, which may end before them.
    -/
theorem located_reason {loc : PropertyLocation} {reasonCodes : List UInt8} {p : ReasonPacket}
    (h : (ReasonPacket.decode loc reasonCodes).run frame = .ok (p, rest)) :
    List.Forall₂ (fun s (x : PropertyLocation × Properties) =>
      ∃ left, (makeProperties x.1).run s = .ok (x.2, left))
      [propertySection ((frameBody frame).drop 1)] [(loc, p.props)] := by
  rw [ReasonPacket.decode] at h
  obtain ⟨b, _, hheader, h⟩ := run_bind_ok h
  obtain ⟨_, _, hlen, h⟩ := run_bind_ok h
  obtain ⟨_, _, htail, h⟩ := run_bind_ok h
  cases h
  obtain rfl := run_readByte_ok hheader
  obtain rfl := run_readRemainingLength_ok hlen
  exact .cons (tail_located htail) .nil

/-- What the v5.0 decoder of a control packet type accepts. -/
theorem located_of_decode {type : ControlPacketType} {v : PacketVariant pb}
    (h : (decodeV5 pb type).run frame = .ok (v, rest)) : Located true type frame v := by
  -- each type has the layout that was located above
  cases type with
  | connect =>
    obtain ⟨p, hp, rfl⟩ := run_map_ok h
    exact located_connect hp
  | connack =>
    obtain ⟨p, hp, rfl⟩ := run_map_ok h
    exact located_connack hp
  | publish =>
    obtain ⟨p, hp, rfl⟩ := run_map_ok h
    exact located_publish hp
  | subscribe =>
    obtain ⟨p, hp, rfl⟩ := run_map_ok h
    exact located_subscribe hp
  | unsubscribe =>
    obtain ⟨p, hp, rfl⟩ := run_map_ok h
    exact located_unsubscribe hp
  | puback | pubrec | pubrel | pubcomp =>
    obtain ⟨p, hp, rfl⟩ := run_map_ok h
    exact .of_no_publishId nofun rfl nofun (located_pubResponse hp)
  | suback | unsuback =>
    obtain ⟨p, hp, rfl⟩ := run_map_ok h
    exact .of_no_publishId nofun rfl nofun (located_subResponse hp)
  | disconnect | auth =>
    obtain ⟨p, hp, rfl⟩ := run_map_ok h
    exact .of_no_publishId nofun rfl nofun (located_reason hp)
  | pingreq | pingresp =>
    obtain ⟨p, -, rfl⟩ := run_map_ok h
    exact .of_no_publishId nofun rfl nofun .nil

end V5

/-! ### All frames -/

/-- The version of a CONNECT, where one is found. -/
theorem version_of_getProtocolVersion {frame rest : List UInt8} {version : UInt8}
    (h : getProtocolVersion.run frame = .ok (version, rest)) (hne : version ≠ 0) :
    (frameBody frame)[6]? = some version := by
  rw [getProtocolVersion] at h
  obtain ⟨_, buf, hremove, h⟩ := run_bind_ok h
  obtain ⟨vl, body, hvl, h⟩ := run_bind_ok h
  rw [run_insertAdvanceVariableLength] at hvl
  -- the version stands behind the remaining length
  have hbuf := run_removePrefix_ok hremove
  rw [frameBody, skipVarInt, ← hbuf]
  split at hvl
  · cases hvl
    cases h
    exact absurd rfl hne
  · next val rest' hval =>
    cases hvl
    rw [hval]
    simp only at h ⊢
    rw [run_bind_of_ok (run_remaining _), run_ite] at h
    split at h
    · exact (run_getAt_ok h).1
    · cases h
      exact absurd rfl hne

/-- What is accepted is accepted by the decoder of the version and the control packet type that the
    frame says. -/
theorem located_of_bufferToPacketVariant {ver : ProtocolVersion} {frame rest : List UInt8}
    {v : PacketVariant pb} (h : (bufferToPacketVariant pb ver).run frame = .ok (v, rest)) :
    ∃ type, getControlPacketType (frame.headD 0) = some type ∧
      Located (isV5Frame ver frame) type frame v := by
  rw [bufferToPacketVariant, run_bind_of_ok (run_remaining _)] at h
  obtain ⟨-, h⟩ := run_failIf_bind_ok h
  obtain ⟨b, buf, hb, hdecode⟩ := run_bind_ok h
  obtain ⟨hget, hbuf⟩ := run_getAt_ok hb
  have hhead : frame.headD 0 = b := by
    cases frame with
    | nil => cases hget
    | cons b' tail => exact Option.some.inj hget
  rw [hbuf] at hdecode
  rw [hhead]
  split at hdecode
  · cases hdecode
  · next type htype =>
    refine ⟨type, htype, ?_⟩
    -- the version decides which layout the frame has, and an undetermined one is read from the
    -- CONNECT
    cases ver with
    | v311 => exact V311.located_of_decode hdecode
    | v5 => exact V5.located_of_decode hdecode
    | undetermined =>
      simp only at hdecode
      split at hdecode
      · next hconnect =>
        subst hconnect
        rw [decodeUndeterminedConnect, run_bind_of_ok (run_remaining _)] at hdecode
        obtain ⟨version, buf', hversion, hrest⟩ := run_bind_ok hdecode
        obtain ⟨hsame, _, hversion'⟩ := run_onBuffer_ok hversion
        rw [hsame] at hrest
        split at hrest
        · next hfour =>
          have hlevel := version_of_getProtocolVersion hversion' (by rw [hfour]; decide)
          have hv5 : isV5Frame .undetermined frame = false := by
            simp [isV5Frame, hlevel, hfour]
          rw [hv5]
          exact V311.located_of_decode hrest
        · split at hrest
          · next hfive =>
            have hlevel := version_of_getProtocolVersion hversion' (by rw [hfive]; decide)
            have hv5 : isV5Frame .undetermined frame = true := by
              simp [isV5Frame, hlevel, hfive]
            rw [hv5]
            exact V5.located_of_decode hrest
          · cases hrest
      · cases hdecode

/-- The packet of an accepted frame satisfies what the public constructors enforce exactly when the
    frame follows the rules that the decoders leave out. -/
theorem bufferToPacketVariant_rules_iff (pb : PacketIdBytes) (ver : ProtocolVersion)
    (frame rest : List UInt8) (v : PacketVariant pb)
    (h : (bufferToPacketVariant pb ver).run frame = .ok (v, rest)) :
    v.ConstructorRules ↔ FrameFollowsRules pb ver frame := by
  obtain ⟨type, htype, hlocated⟩ := located_of_bufferToPacketVariant h
  rw [hlocated.rules_iff, FrameFollowsRules]
  constructor
  · intro hrules type' htype'
    obtain rfl := Option.some.inj (htype.symm.trans htype')
    exact hrules
  · intro hrules
    exact hrules type htype

/-- A QoS 1 PUBLISH with a user property is such a frame. -/
theorem rules_publish_with_user_property :
    ∃ v : PacketVariant .two, (bufferToPacketVariant .two .v5).run
        [0x32, 0x0d, 0, 1, 0x61, 0, 1, 7, 38, 0, 1, 0x6b, 0, 1, 0x76] = .ok (v, []) ∧
      v.ConstructorRules := by
  refine ⟨_, rfl, ?_⟩
  refine (bufferToPacketVariant_rules_iff .two .v5
    [0x32, 0x0d, 0, 1, 0x61, 0, 1, 7, 38, 0, 1, 0x6b, 0, 1, 0x76] [] _ rfl).mpr ?_
  rintro type ⟨⟩
  have hsections : propertySections .two .publish
      [0x32, 0x0d, 0, 1, 0x61, 0, 1, 7, 38, 0, 1, 0x6b, 0, 1, 0x76] =
        [[38, 0, 1, 0x6b, 0, 1, 0x76]] := by decide
  have hfields : sectionFields [38, 0, 1, 0x6b, 0, 1, 0x76] =
      [⟨.userProperty, [0, 1, 0x6b, 0, 1, 0x76]⟩] := rfl
  refine ⟨fun _ _ => by decide, fun _ => ?_⟩
  rw [hsections, List.forall_mem_singleton, hfields, List.forall_mem_singleton]
  show utf8StringCheck [0x6b] = true ∧ utf8StringCheck [0x76] = true
  decide

/-- A PUBLISH with a user property whose key is the byte 0xff is accepted. -/
theorem user_property_not_utf8 :
    ∃ v : PacketVariant .two, (bufferToPacketVariant .two .v5).run
        [0x30, 0x0b, 0, 1, 0x61, 7, 38, 0, 1, 0xff, 0, 1, 0x76] = .ok (v, []) ∧
      ¬ v.ConstructorRules := by
  refine ⟨_, rfl, fun h => ?_⟩
  have hrule := (h.props (.publish, [.user [0, 1] [0xff] [0, 1] [0x76]]) (.head _) _ (.head _)).2
  have hkey : utf8StringCheck [0xff] = true := hrule.1
  exact absurd hkey (by decide)

end AsyncMqtt
