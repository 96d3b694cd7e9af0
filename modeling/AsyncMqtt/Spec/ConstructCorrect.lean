import AsyncMqtt.ForStd.Except
import AsyncMqtt.Native.PacketVariant
import AsyncMqtt.Spec.WireCorrect

/-!
# What the packet constructors establish

The steps that the public constructors share, taken apart: what is known after
a step that did not throw, and how the part of the packet that it fills is read
back by the decoder.

## Key results

- `ConnectFlags.make_spec`: the flags of CONNECT say which fields follow
- `run_readUserName`, `run_readPassword`: the optional strings are read back
- `run_many_zip_entries`: the entries of SUBSCRIBE and UNSUBSCRIBE are read back
-/

namespace AsyncMqtt

open ByteReader

/-! ### Steps that may throw -/

/-- A check lets the constructor go on if its condition does not hold. -/
theorem throwIf_eq_ok {c : Prop} [Decidable c] {ec : ErrorCode} {u : Unit} :
    throwIf c ec = .ok u ↔ ¬ c := by
  unfold throwIf
  split <;> simp_all

/-- The same for the last check of a constructor -/
theorem throwIf_pure_eq_ok {α : Type} {c : Prop} [Decidable c] {ec : ErrorCode} {a b : α} :
    (do throwIf c ec; pure a) = Except.ok b ↔ ¬ c ∧ a = b := by
  simp only [Except.bind_eq_ok, throwIf_eq_ok, Except.pure_eq_ok, exists_const]

/-- `boost::numeric_cast` to two bytes -/
theorem numericCast16_eq_ok {n m : Nat} : numericCast16 n = .ok m ↔ n < 2 ^ 16 ∧ n = m := by
  unfold numericCast16
  split <;> simp_all

/-- `boost::numeric_cast` to four bytes -/
theorem numericCast32_eq_ok {n m : Nat} : numericCast32 n = .ok m ↔ n < 2 ^ 32 ∧ n = m := by
  unfold numericCast32
  split <;> simp_all

/-- The properties are accepted if each of them may stand in the packet. -/
theorem validateProperties_eq_ok {loc : PropertyLocation} {props : Properties} {ec : ErrorCode}
    {u : Unit} :
    validateProperties loc props ec = .ok u ↔ ∀ p ∈ props, validateProperty loc p.id = true := by
  unfold validateProperties
  split <;> simp_all

/-- The loop goes on to its end if no round of it throws. -/
theorem forEach_eq_ok {α : Type} {body : α → Except Exception Unit} {as : List α} {u : Unit} :
    forEach body as = .ok u ↔ ∀ a ∈ as, body a = .ok () := by
  induction as with
  | nil => simp [forEach]
  | cons a as ih =>
    -- the first round, and then the others
    rw [forEach, Except.bind_eq_ok, List.forall_mem_cons]
    exact ⟨fun ⟨_, ha, has⟩ => ⟨ha, ih.mp has⟩, fun ⟨ha, has⟩ => ⟨(), ha, ih.mpr has⟩⟩

/-- The topics are accepted if the length of each fits into two bytes. -/
theorem checkTopicSizes_eq_ok {topics : List Buffer} {u : Unit} :
    checkTopicSizes topics = .ok u ↔ ∀ t ∈ topics, t.length < 2 ^ 16 := by
  rw [checkTopicSizes, forEach_eq_ok]
  simp only [throwIf_eq_ok]
  exact forall₂_congr fun t _ => by omega

/-! ### Fixed headers -/

set_option maxRecDepth 4000 in
/-- A header that is accepted for a type says this type. -/
theorem getControlPacketType_of_check {b : UInt8} {cpt : ControlPacketType}
    (h : getControlPacketTypeWithCheck b = some cpt) : getControlPacketType b = some cpt := by
  revert b cpt
  -- the two tables agree wherever the stricter one has an entry
  have key : ∀ b : UInt8, getControlPacketTypeWithCheck b = none ∨
      getControlPacketTypeWithCheck b = getControlPacketType b := by decide
  intro b cpt h
  rcases key b with hb | hb
  · rw [h] at hb
    exact nomatch hb
  · rw [← hb, h]

/-- The header that a constructor makes says the type of the packet. -/
theorem getControlPacketType_makeFixedHeader (type : ControlPacketType) {flags : UInt8}
    (h : flags = 0b0000 ∨ flags = 0b0010) :
    getControlPacketType (makeFixedHeader type flags) = some type := by
  rcases h with rfl | rfl <;> cases type <;> decide

set_option maxRecDepth 4000 in
/-- The options of PUBLISH reach into the type bits of the header unless their two
    high bits are clear. -/
theorem publish_header_iff : ∀ pubopts : UInt8,
    getControlPacketType (makeFixedHeader .publish 0b0000 ||| pubopts) = some .publish ↔
      pubopts &&& 0b11000000 = 0 := by
  decide

set_option maxRecDepth 4000 in
/-- Options whose two high bits are clear make a header that is accepted. -/
theorem publish_header_check {pubopts : UInt8} (h : pubopts &&& 0b11000000 = 0) :
    getControlPacketTypeWithCheck (makeFixedHeader .publish 0b0000 ||| pubopts) =
      some .publish := by
  revert pubopts
  decide

set_option maxRecDepth 4000 in
/-- The header keeps the QoS of the options. -/
theorem getQos_publish_header : ∀ pubopts : UInt8,
    Pub.getQos (makeFixedHeader .publish 0b0000 ||| pubopts) = Pub.getQos pubopts := by
  decide

set_option maxRecDepth 4000 in
/-- The two bits of the QoS have four values. -/
theorem getQos_cases : ∀ v : UInt8,
    Pub.getQos v = 0 ∨ Pub.getQos v = 1 ∨ Pub.getQos v = 2 ∨ Pub.getQos v = 3 := by
  decide

/-! ### CONNECT -/

namespace ConnectFlags

/-- The flags of CONNECT say which fields follow, and carry the options of the will. -/
structure Spec (flags : UInt8) (cleanSession : Bool) (w : Option Will)
    (userName password : Option Buffer) : Prop where
  reserved : flags &&& 0b00000001 = 0
  cleanSession : hasCleanSession flags = cleanSession
  userName : hasUserNameFlag flags = userName.isSome
  password : hasPasswordFlag flags = password.isSome
  will : hasWillFlag flags = w.isSome
  willQos : ConnectFlags.willQos flags = (w.map fun w => Pub.getQos w.pubopts).getD 0
  noWillRetain : w = none → willRetain flags = false

/-- The flags with a will, bit by bit -/
private theorem make_bits : ∀ (cs un pw : Bool) (o : UInt8),
    let flags := (if cs then maskCleanSession else 0) ||| (if un then maskUserNameFlag else 0) |||
      (if pw then maskPasswordFlag else 0) ||| (maskWillFlag |||
        (if Pub.getRetain o then maskWillRetain else 0) ||| setWillQos (Pub.getQos o))
    flags &&& 0b00000001 = 0 ∧ hasCleanSession flags = cs ∧ hasUserNameFlag flags = un ∧
      hasPasswordFlag flags = pw ∧ hasWillFlag flags = true ∧
      ConnectFlags.willQos flags = Pub.getQos o := by
  decide +kernel

set_option maxRecDepth 4000 in
/-- The flags without a will, bit by bit -/
private theorem make_bits_no_will : ∀ (cs un pw : Bool),
    let flags := (if cs then maskCleanSession else 0) ||| (if un then maskUserNameFlag else 0) |||
      (if pw then maskPasswordFlag else 0) ||| 0
    flags &&& 0b00000001 = 0 ∧ hasCleanSession flags = cs ∧ hasUserNameFlag flags = un ∧
      hasPasswordFlag flags = pw ∧ hasWillFlag flags = false ∧
      ConnectFlags.willQos flags = 0 ∧ willRetain flags = false := by
  decide

/-- The flags that the constructor makes say which fields follow. -/
theorem make_spec (cleanSession : Bool) (w : Option Will) (userName password : Option Buffer) :
    Spec (make cleanSession w userName password) cleanSession w userName password := by
  cases w with
  | none =>
    obtain ⟨h1, h2, h3, h4, h5, h6, h7⟩ :=
      make_bits_no_will cleanSession userName.isSome password.isSome
    exact ⟨h1, h2, h3, h4, h5, h6, fun _ => h7⟩
  | some w =>
    obtain ⟨h1, h2, h3, h4, h5, h6⟩ :=
      make_bits cleanSession userName.isSome password.isSome w.pubopts
    exact ⟨h1, h2, h3, h4, h5, h6, fun h => nomatch h⟩

set_option maxRecDepth 4000 in
/-- `get_will()` shows the QoS of the will. -/
theorem getQos_willOpts : ∀ flags : UInt8,
    Pub.getQos (willOpts flags) = ConnectFlags.willQos flags := by
  decide

end ConnectFlags

/-- An optional string is encoded with its length, or nothing is written for it. -/
theorem encodeOptional_eq_ok {check : Buffer → Bool} {o : Option Buffer} {lengthBuf s : Buffer} :
    encodeOptional check o = .ok (lengthBuf, s) ↔
      match o with
      | none => lengthBuf = [] ∧ s = []
      | some t => check t = true ∧ t.length < 2 ^ 16 ∧ lengthBuf = endianStore 2 t.length ∧ s = t := by
  cases o with
  | none => simp [encodeOptional, eq_comm]
  | some t =>
    -- with a string, the check and the cast of its length decide
    simp only [encodeOptional, Except.bind_eq_ok, throwIf_eq_ok, numericCast16_eq_ok,
      Except.pure_eq_ok, Prod.mk.injEq]
    constructor
    · rintro ⟨_, hcheck, _, ⟨hlen, rfl⟩, rfl, rfl⟩
      exact ⟨by simpa using hcheck, hlen, rfl, rfl⟩
    · rintro ⟨hcheck, hlen, rfl, rfl⟩
      exact ⟨(), by simp [hcheck], _, ⟨hlen, rfl⟩, rfl, rfl⟩

/-- The topic and the message of a will are encoded with their lengths, or nothing is written. -/
theorem encodeWill_eq_ok {w : Option Will} {tl t ml m : Buffer} :
    encodeWill w = .ok ((tl, t), (ml, m)) ↔
      match w with
      | none => tl = [] ∧ t = [] ∧ ml = [] ∧ m = []
      | some w => utf8StringCheck w.topic = true ∧ w.topic.length < 2 ^ 16 ∧
          w.message.length < 2 ^ 16 ∧ tl = endianStore 2 w.topic.length ∧ t = w.topic ∧
          ml = endianStore 2 w.message.length ∧ m = w.message := by
  cases w with
  | none => simp [encodeWill, eq_comm, and_assoc]
  | some w =>
    -- the topic is checked and cast, and the message is cast
    simp only [encodeWill, Except.bind_eq_ok, throwIf_eq_ok, numericCast16_eq_ok,
      Except.pure_eq_ok, Prod.mk.injEq]
    constructor
    · rintro ⟨_, hcheck, _, ⟨htopic, rfl⟩, _, _, _, ⟨hmessage, rfl⟩, ⟨rfl, rfl⟩, rfl, rfl⟩
      exact ⟨by simpa using hcheck, htopic, hmessage, rfl, rfl, rfl, rfl⟩
    · rintro ⟨hcheck, htopic, hmessage, rfl, rfl, rfl, rfl⟩
      exact ⟨(), by simp [hcheck], _, ⟨htopic, rfl⟩, (), by omega, _, ⟨hmessage, rfl⟩, ⟨rfl, rfl⟩,
        rfl, rfl⟩

/-- Flags without the reserved bit are accepted. -/
theorem run_readConnectFlags {flags : UInt8} (h : flags &&& 0b00000001 = 0) (rest : List UInt8) :
    readConnectFlags.run (flags :: rest) = .ok (flags, rest) := by
  rw [readConnectFlags, run_bind_of_ok (run_remaining _),
    run_bind_of_ok (run_failIf_of_not (by simp) _ _), run_bind_of_ok (run_front_cons _ _),
    run_bind_of_ok (run_failIf_of_not (by simp [h]) _ _),
    run_bind_of_ok (run_removePrefix_one_cons _ _), run_pure]

/-- The user name is read back if the flags say that it is there. -/
theorem run_readUserName {flags : UInt8} {o : Option Buffer} {lengthBuf s : Buffer}
    (hflag : ConnectFlags.hasUserNameFlag flags = o.isSome)
    (h : encodeOptional utf8StringCheck o = .ok (lengthBuf, s)) (rest : List UInt8) :
    (readUserName flags).run
        ((if ConnectFlags.hasUserNameFlag flags then [lengthBuf, s] else []).flatten ++ rest) =
      .ok ((lengthBuf, s), rest) := by
  rw [encodeOptional_eq_ok] at h
  cases o with
  | none =>
    obtain ⟨rfl, rfl⟩ := h
    simp [readUserName, hflag]
  | some t =>
    obtain ⟨hcheck, hlen, rfl, rfl⟩ := h
    simp only [readUserName, hflag, Option.isSome_some, if_true, List.flatten_cons,
      List.flatten_nil, List.append_nil, List.append_assoc]
    exact run_readLengthPrefixed_append hlen hcheck _

/-- The password is read back. It is the last field, so that nothing may follow it. -/
theorem run_readPassword {flags : UInt8} {o : Option Buffer} {lengthBuf s : Buffer}
    (hflag : ConnectFlags.hasPasswordFlag flags = o.isSome)
    (h : encodeOptional (fun _ => true) o = .ok (lengthBuf, s)) :
    (readPassword flags).run
        (if ConnectFlags.hasPasswordFlag flags then [lengthBuf, s] else []).flatten =
      .ok ((lengthBuf, s), []) := by
  rw [encodeOptional_eq_ok] at h
  cases o with
  | none =>
    obtain ⟨rfl, rfl⟩ := h
    simp [readPassword, hflag]
  | some t =>
    obtain ⟨-, hlen, rfl, rfl⟩ := h
    -- the length that is read is the one that was written
    have hload : endianLoad 2 (endianStore 2 s.length) = s.length := endianLoad_endianStore hlen
    simp only [readPassword, hflag, Option.isSome_some, if_true, List.flatten_cons,
      List.flatten_nil, List.append_nil]
    rw [run_bind_of_ok (run_readBytes_append (length_endianStore _ _) _),
      run_bind_of_ok (run_remaining _), hload,
      run_bind_of_ok (run_failIf_of_not (by simp) _ _), run_bind_of_ok (run_substr (by omega)),
      run_bind_of_ok (run_removePrefix (by omega)), run_pure]
    simp

/-- An optional string has as many bytes as its size says. -/
theorem length_optional {o : Option Buffer} {check : Buffer → Bool} {lengthBuf s : Buffer}
    {present : Bool} (hflag : present = o.isSome)
    (h : encodeOptional check o = .ok (lengthBuf, s)) :
    (if present then [lengthBuf, s] else []).flatten.length = optionalSize o := by
  rw [encodeOptional_eq_ok] at h
  subst hflag
  cases o with
  | none => rfl
  | some t =>
    obtain ⟨-, -, rfl, rfl⟩ := h
    simp [optionalSize]

set_option maxRecDepth 4000 in
/-- A will with a QoS below 3 is accepted. -/
theorem run_checkWillQos {flags : UInt8} (h : ConnectFlags.willQos flags ≠ 3) (rest : List UInt8) :
    (checkWillQos flags).run rest = .ok ((), rest) := by
  have key : ∀ v : UInt8, ConnectFlags.willQos v = 0 ∨ ConnectFlags.willQos v = 1 ∨
      ConnectFlags.willQos v = 2 ∨ ConnectFlags.willQos v = 3 := by decide
  refine run_failIf_of_not ?_ _ _
  rcases key flags with hq | hq | hq | hq <;>
    simp_all [Qos.atMostOnce, Qos.atLeastOnce, Qos.exactlyOnce]

/-- A will that was accepted does not have QoS 3. -/
theorem willQos_ne_of_check {flags : UInt8} {buf rest : List UInt8} {u : Unit}
    (h : (checkWillQos flags).run buf = .ok (u, rest)) : ConnectFlags.willQos flags ≠ 3 := by
  intro hq
  have hcheck := (run_failIf_ok h).1
  rw [hq] at hcheck
  exact hcheck (by decide)

/-- Without a will its retain flag and its QoS have to be clear. -/
theorem run_checkNoWill {flags : UInt8} (hretain : ConnectFlags.willRetain flags = false)
    (hqos : ConnectFlags.willQos flags = 0) (rest : List UInt8) :
    (checkNoWill flags).run rest = .ok ((), rest) := by
  rw [checkNoWill, run_bind_of_ok (run_failIf_of_not (by simp [hretain]) _ _),
    run_failIf_of_not (by simp [hqos, Qos.atMostOnce])]

/-! ### PUBLISH -/

/-- The packet identifier is there when the QoS says so. -/
theorem run_readPublishPacketId {pb : PacketIdBytes} {fixedHeader : UInt8} {packetIdBuf : Buffer}
    (hqos : Pub.getQos fixedHeader = 1 ∨ Pub.getQos fixedHeader = 2)
    (hlen : packetIdBuf.length = pb.bytes) (rest : List UInt8) :
    (readPublishPacketId pb fixedHeader).run (packetIdBuf ++ rest) = .ok (packetIdBuf, rest) := by
  unfold readPublishPacketId
  rcases hqos with h | h <;> rw [h] <;> exact run_readBytes_append hlen _

/-- With QoS 0 there is no identifier, and 0 is put in its place. -/
theorem run_readPublishPacketId_qos0 {pb : PacketIdBytes} {fixedHeader : UInt8}
    (hqos : Pub.getQos fixedHeader = 0) (rest : List UInt8) :
    (readPublishPacketId pb fixedHeader).run rest = .ok (endianStore pb.bytes 0, rest) := by
  unfold readPublishPacketId
  rw [hqos]
  rfl

/-- A PUBLISH that is accepted does not have QoS 3. -/
theorem run_readPublishPacketId_ok {pb : PacketIdBytes} {fixedHeader : UInt8} {bs : Buffer}
    {buf rest : List UInt8} (h : (readPublishPacketId pb fixedHeader).run buf = .ok (bs, rest)) :
    Pub.getQos fixedHeader ≠ 3 := by
  intro hqos
  unfold readPublishPacketId at h
  rw [hqos] at h
  exact nomatch h

/-- The rest of the buffer is the payload. -/
theorem run_readPayloads (buf : List UInt8) :
    readPayloads.run buf = .ok (payloadsOf buf, []) := by
  rw [readPayloads, run_bind_of_ok (run_remaining _), run_bind_of_ok (run_removePrefix (by omega)),
    run_pure, List.drop_length]

/-- The payload has the bytes that were read. -/
theorem flatten_payloadsOf (buf : List UInt8) : (payloadsOf buf).flatten = buf := by
  unfold payloadsOf
  split <;> simp_all

/-! ### Entries -/

/-- There has to be an entry. -/
theorem run_checkEntries {buf : List UInt8} (h : buf ≠ []) :
    checkEntries.run buf = .ok ((), buf) := by
  rw [checkEntries, run_bind_of_ok (run_remaining _), run_failIf_of_not h]

/-- A code that is accepted is read back. -/
theorem run_readCode {accepted : List UInt8} {code : UInt8} (h : code ∈ accepted)
    (rest : List UInt8) : (readCode accepted).run (code :: rest) = .ok (code, rest) := by
  rw [readCode, run_bind_of_ok (run_readByte_cons _ _ _),
    run_bind_of_ok (run_failIf_of_not (by simp [h]) _ _), run_pure]

/-- A code that was read is an accepted one. -/
theorem run_readCode_ok {accepted : List UInt8} {code : UInt8} {buf rest : List UInt8}
    (h : (readCode accepted).run buf = .ok (code, rest)) : code ∈ accepted := by
  obtain ⟨code', mid, -, h⟩ := run_bind_ok h
  obtain ⟨_, mid', hcheck, h⟩ := run_bind_ok h
  cases h
  exact not_not.mp (run_failIf_ok hcheck).1

/-- Codes that are accepted are read back up to the end of the buffer. -/
theorem run_many_readCode {accepted codes : List UInt8} (h : ∀ c ∈ codes, c ∈ accepted) :
    (many (readCode accepted)).run codes = .ok (codes, []) := by
  have hflat : codes = codes.flatMap fun c => [c] := by simp
  nth_rewrite 1 [hflat]
  -- each code is one byte
  exact run_many_flatMap (by simp) fun c hc rest => run_readCode (h c hc) rest

/-- The entries of SUBSCRIBE and UNSUBSCRIBE are read back, when each of them is. -/
theorem run_many_zip_entries {α : Type} (topic : α → Buffer) (tail : α → List Buffer)
    (readEntry : Decoder (Buffer × α)) (entries : List α)
    (hread : ∀ e ∈ entries, ∀ rest, readEntry.run
      (endianStore 2 (topic e).length ++ (topic e ++ ((tail e).flatten ++ rest))) =
        .ok ((endianStore 2 (topic e).length, e), rest)) :
    (many readEntry).run
        (((topicLengthBufs (entries.map topic)).zip entries).flatMap fun x =>
          x.1 :: topic x.2 :: tail x.2).flatten =
      .ok (entries.map fun e => (endianStore 2 (topic e).length, e), []) := by
  -- the buffers of the constructor, entry by entry
  have hbytes : (((topicLengthBufs (entries.map topic)).zip entries).flatMap fun x =>
      x.1 :: topic x.2 :: tail x.2).flatten =
      (entries.map fun e => (endianStore 2 (topic e).length, e)).flatMap fun x =>
        x.1 ++ (topic x.2 ++ (tail x.2).flatten) := by
    clear hread
    induction entries with
    | nil => rfl
    | cons e entries ih =>
      simp only [topicLengthBufs, List.map_cons, List.zip_cons_cons, List.flatMap_cons,
        List.flatten_append, List.flatten_cons] at ih ⊢
      rw [ih]
  rw [hbytes]
  refine run_many_flatMap ?_ ?_
  -- an entry has at least the two bytes of its length
  · intro x hx hnil
    obtain ⟨e, -, rfl⟩ := List.mem_map.mp hx
    have := congrArg List.length hnil
    -- the entry in front is read, whatever follows it
    simp at this
  · intro x hx rest
    obtain ⟨e, he, rfl⟩ := List.mem_map.mp hx
    simpa using hread e he rest

/-- The bytes of the entries, as the constructors count them. -/
theorem length_zip_entries {α : Type} (topic : α → Buffer) (tail : α → List Buffer) (n : Nat)
    (htail : ∀ e, (tail e).flatten.length = n) (entries : List α) :
    (((topicLengthBufs (entries.map topic)).zip entries).flatMap fun x =>
      x.1 :: topic x.2 :: tail x.2).flatten.length =
      (entries.map fun e => 2 + (topic e).length + n).sum := by
  induction entries with
  | nil => rfl
  | cons e entries ih =>
    simp only [topicLengthBufs, List.map_cons, List.zip_cons_cons, List.flatMap_cons,
      List.flatten_append, List.flatten_cons, List.length_append, length_endianStore,
      List.sum_cons, htail] at ih ⊢
    rw [ih]
    omega

/-- There are bytes for entries. -/
theorem zip_entries_ne_nil {α : Type} (topic : α → Buffer) (tail : α → List Buffer)
    {entries : List α} (h : entries ≠ []) :
    (((topicLengthBufs (entries.map topic)).zip entries).flatMap fun x =>
      x.1 :: topic x.2 :: tail x.2).flatten ≠ [] := by
  obtain ⟨e, entries, rfl⟩ := List.exists_cons_of_ne_nil h
  intro hnil
  have hlen := congrArg List.length hnil
  simp [topicLengthBufs] at hlen

/-! ### The decoder of all packets -/

/-- The first byte picks the decoder. -/
theorem run_bufferToPacketVariant (pb : PacketIdBytes) (ver : ProtocolVersion) (b : UInt8)
    {rest : List UInt8} (hrest : rest ≠ []) :
    (bufferToPacketVariant pb ver).run (b :: rest) =
      match getControlPacketType b with
      | none => .error (.error malformedPacket)
      | some cpt =>
        match ver with
        | .v311 => (decodeV311 pb cpt).run (b :: rest)
        | .v5 => (decodeV5 pb cpt).run (b :: rest)
        | .undetermined =>
          if cpt = .connect then (decodeUndeterminedConnect pb).run (b :: rest)
          else .error (.error protocolError) := by
  -- a packet has at least two bytes
  have hge : ¬ (b :: rest).length < 2 := by
    have := List.length_pos_iff.mpr hrest
    simp only [List.length_cons]
    omega
  have hget : (getAt 0 : Decoder UInt8).run (b :: rest) = .ok (b, b :: rest) := rfl
  rw [bufferToPacketVariant, run_bind_of_ok (run_remaining _),
    run_bind_of_ok (run_failIf_of_not hge _ _), run_bind_of_ok hget]
  cases getControlPacketType b with
  | none => rfl
  | some cpt =>
    cases ver with
    | v311 => rfl
    | v5 => rfl
    | undetermined => exact run_ite _ _ _ _

namespace PacketVariant

variable {pb : PacketIdBytes}

/-- The view has the type of the packet. -/
@[simp] theorem view_type (v : PacketVariant pb) : v.view.type = v.type := by
  cases v <;> rfl

/-- The view has the version of the packet. -/
@[simp] theorem view_version (v : PacketVariant pb) : v.view.version = v.version := by
  cases v <;> rfl

end PacketVariant

end AsyncMqtt
