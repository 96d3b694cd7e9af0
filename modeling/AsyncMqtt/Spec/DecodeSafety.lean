import AsyncMqtt.Native.PacketVariant
import AsyncMqtt.Spec.WireCorrect

/-!
# Index safety of the decoders

`buffer_to_basic_packet_variant` on every complete frame: which accesses to the
buffer stay inside it. All decoders are safe on every buffer, with four
exceptions that look at a byte without asking whether it is there: the reason
code of the v5.0 PUBACK-like packets and of DISCONNECT and AUTH, which a
complete frame always has, the reason code of the v5.0 CONNACK, and the
protocol version of a CONNECT.

## Key results

- `bufferToPacketVariant_safe_iff`: the frames on which decoding is index-safe
-/

namespace AsyncMqtt

open ByteReader

/-! ### The shared steps -/

/-- A check reads nothing. -/
theorem alwaysSafe_failIf (c : Prop) [Decidable c] (ec : ErrorCode) : AlwaysSafe (failIf c ec) :=
  .ite (.fail _) (.pure _)

/-- A byte is read only if there is one. -/
theorem alwaysSafe_readByte (ec : ErrorCode) : AlwaysSafe (readByte ec) := by
  intro buf
  cases buf <;> simp [Safe]

/-- The check of the fixed header reads one byte, if there is one. -/
theorem alwaysSafe_readFixedHeaderWithCheck (cpt : ControlPacketType) (ec : ErrorCode) :
    AlwaysSafe (readFixedHeaderWithCheck cpt ec) :=
  .bind (alwaysSafe_readByte ec) fun _ => .bind (alwaysSafe_failIf _ _) fun _ => .pure _

/-- The remaining length is read byte by byte, and an empty buffer is an error. -/
theorem alwaysSafe_readRemainingLength (ec : ErrorCode) : AlwaysSafe (readRemainingLength ec) := by
  intro buf h
  rw [run_readRemainingLength] at h
  split at h <;> simp at h

/-- The check of the remaining length looks at the size of the buffer only. -/
theorem alwaysSafe_checkRemainingLength (n : Nat) (ec : ErrorCode) :
    AlwaysSafe (checkRemainingLength n ec) :=
  .bind .remaining fun _ => alwaysSafe_failIf _ _

/-- So many bytes are read only if they are there. -/
theorem alwaysSafe_readBytes (n : Nat) (ec : ErrorCode) : AlwaysSafe (readBytes n ec) := by
  intro buf h
  rw [run_readBytes] at h
  split at h <;> simp at h

/-- A field with a length of two bytes is read only as far as the buffer goes. -/
theorem alwaysSafe_readLengthPrefixed (check : List UInt8 → Bool) (ec : ErrorCode) :
    AlwaysSafe (readLengthPrefixed check ec) := by
  intro buf h
  rw [run_readLengthPrefixed] at h
  simp only at h
  split at h <;> simp at h

/-- The check for entries looks at the buffer only. -/
theorem alwaysSafe_checkEntries : AlwaysSafe checkEntries :=
  .bind .remaining fun _ => alwaysSafe_failIf _ _

/-- A reason code is a byte that is read. -/
theorem alwaysSafe_readCode (accepted : List UInt8) : AlwaysSafe (readCode accepted) :=
  .bind (alwaysSafe_readByte _) fun _ => .bind (alwaysSafe_failIf _ _) fun _ => .pure _

/-- The check at the end looks at the buffer only. -/
theorem alwaysSafe_checkEnd : AlwaysSafe V5.checkEnd :=
  .bind .remaining fun _ => alwaysSafe_failIf _ _

/-- A step that looks at the buffer and goes on only when `c` does not hold. -/
theorem safe_checked {α : Type} {c : List UInt8 → Prop} [DecidablePred c] {ec : ErrorCode}
    {f : List UInt8 → Decoder α} {buf : List UInt8} (hf : ¬ c buf → Safe (f buf) buf) :
    Safe (do let b ← remaining; failIf (c b) ec; f b) buf := by
  refine safe_bind (safe_remaining buf) fun b rest h => ?_
  cases h
  refine safe_bind (alwaysSafe_failIf _ _ _) fun _ rest h => ?_
  obtain ⟨hc, rfl⟩ := run_failIf_ok h
  exact hf hc

/-! ### Properties -/

/-- A property of a fixed size is read only if its bytes are there. -/
theorem alwaysSafe_makeNBytesProperty (n : Nat) (id : PropertyId)
    (check : Buffer → Option ErrorCode) : AlwaysSafe (makeNBytesProperty n id check) := by
  intro buf
  refine safe_checked fun hlen => ?_
  refine safe_bind (safe_substr (by omega)) fun bs rest h => ?_
  rw [run_substr (by omega)] at h
  cases h
  split
  · exact safe_fail _ _
  · exact safe_bind (safe_removePrefix (by omega)) fun _ _ _ => safe_pure _ _

/-- Looking at a field gives its bytes and leaves the buffer, or fails when the buffer is too short.
    -/
theorem run_peekLengthPrefixed (buf : List UInt8) :
    peekLengthPrefixed.run buf =
      if buf.length < 2 ∨ buf.length < 2 + endianLoad 2 buf then .error (.error malformedPacket)
      else .ok ((buf.drop 2).take (endianLoad 2 buf), buf) := by
  rw [peekLengthPrefixed, run_bind_of_ok (run_remaining _), run_bind, run_failIf]
  by_cases h2 : buf.length < 2
  · simp [h2]
  · have hload : (endianLoadFront 2).run buf = .ok (endianLoad 2 buf, buf) := by
      rw [endianLoadFront, run_bind_of_ok (run_remaining _), if_pos (by omega), run_pure]
    simp only [h2, if_false, false_or]
    rw [run_bind_of_ok hload, run_bind, run_failIf]
    by_cases hlen : buf.length < 2 + endianLoad 2 buf
    · simp only [hlen, if_true]
    · simp only [hlen, if_false]
      rw [run_substr (by omega)]

/-- A field is looked at only if its bytes are there. -/
theorem alwaysSafe_peekLengthPrefixed : AlwaysSafe peekLengthPrefixed := by
  intro buf h
  rw [run_peekLengthPrefixed] at h
  split at h <;> simp at h

/-- What was peeked at is there to be removed. -/
theorem run_peekLengthPrefixed_ok {buf bs rest : List UInt8}
    (h : peekLengthPrefixed.run buf = .ok (bs, rest)) : rest = buf ∧ 2 + bs.length ≤ buf.length := by
  rw [run_peekLengthPrefixed] at h
  split at h
  · exact nomatch h
  · simp only [Except.ok.injEq, Prod.mk.injEq] at h
    obtain ⟨rfl, rfl⟩ := h
    refine ⟨rfl, ?_⟩
    simp only [List.length_take, List.length_drop]
    omega

/-- A property with binary data or a string reads what its length allows. -/
theorem alwaysSafe_makeBinaryProperty (id : PropertyId) (check : Buffer → Bool) :
    AlwaysSafe (makeBinaryProperty id check) := by
  intro buf
  refine safe_bind (alwaysSafe_peekLengthPrefixed buf) fun bs rest h => ?_
  obtain ⟨rfl, hlen⟩ := run_peekLengthPrefixed_ok h
  refine safe_bind (alwaysSafe_failIf _ _ _) fun _ rest h => ?_
  obtain ⟨-, rfl⟩ := run_failIf_ok h
  exact safe_bind (safe_removePrefix hlen) fun _ _ _ => safe_pure _ _

/-- The subscription identifier is read byte by byte. -/
theorem alwaysSafe_makeSubscriptionIdentifier : AlwaysSafe makeSubscriptionIdentifier := by
  intro buf
  refine safe_bind (safe_remaining buf) fun b rest h => ?_
  cases h
  split
  · exact safe_fail _ _
  · refine safe_bind (alwaysSafe_failIf _ _ _) fun _ rest h => ?_
    obtain ⟨-, rfl⟩ := run_failIf_ok h
    exact safe_bind (safe_removePrefix (by omega)) fun _ _ _ => safe_pure _ _

/-- A user property reads its key and its value, each by its length. -/
theorem alwaysSafe_makeUserProperty : AlwaysSafe makeUserProperty := by
  intro buf
  refine safe_bind (alwaysSafe_peekLengthPrefixed buf) fun key rest h => ?_
  obtain ⟨rfl, hkey⟩ := run_peekLengthPrefixed_ok h
  refine safe_bind (safe_removePrefix hkey) fun _ buf _ => ?_
  refine safe_bind (alwaysSafe_peekLengthPrefixed buf) fun val rest h => ?_
  obtain ⟨rfl, hval⟩ := run_peekLengthPrefixed_ok h
  refine safe_bind (alwaysSafe_failIf _ _ _) fun _ rest h => ?_
  obtain ⟨-, rfl⟩ := run_failIf_ok h
  refine safe_bind (alwaysSafe_failIf _ _ _) fun _ rest h => ?_
  obtain ⟨-, rfl⟩ := run_failIf_ok h
  exact safe_bind (safe_removePrefix hval) fun _ _ _ => safe_pure _ _

/-- Every kind of property is read without going past the end. -/
theorem alwaysSafe_makePropertyOfId (id : PropertyId) : AlwaysSafe (makePropertyOfId id) := by
  unfold makePropertyOfId
  split <;>
    first
    | apply alwaysSafe_makeNBytesProperty
    | apply alwaysSafe_makeBinaryProperty
    | apply alwaysSafe_makeSubscriptionIdentifier
    | apply alwaysSafe_makeUserProperty

/-- A property with its identifier in front -/
theorem alwaysSafe_makePropertyVariant (loc : PropertyLocation) :
    AlwaysSafe (makePropertyVariant loc) := by
  intro buf
  refine safe_checked fun hne => ?_
  obtain ⟨b, rest, rfl⟩ := List.exists_cons_of_ne_nil hne
  refine safe_bind (by simp [Safe]) fun b' rest' h => ?_
  cases h
  split
  · exact safe_fail _ _
  · refine safe_bind (alwaysSafe_failIf _ _ _) fun _ rest h => ?_
    obtain ⟨-, rfl⟩ := run_failIf_ok h
    exact safe_bind (safe_removePrefix (by simp)) fun _ _ _ => alwaysSafe_makePropertyOfId _ _

/-- The list of properties ends where the buffer does. -/
theorem alwaysSafe_makeProperties (loc : PropertyLocation) : AlwaysSafe (makeProperties loc) :=
  .many (alwaysSafe_makePropertyVariant loc)

/-- The length of the properties is checked before they are read. -/
theorem alwaysSafe_readProperties (loc : PropertyLocation) (ec : ErrorCode) :
    AlwaysSafe (readProperties loc ec) := by
  intro buf
  refine safe_bind (safe_remaining buf) fun b rest h => ?_
  cases h
  -- every read is within what the checks before it have left
  split
  · exact safe_fail _ _
  · refine safe_bind (safe_substr (by omega)) fun _ rest h => ?_
    rw [run_substr (by omega)] at h
    cases h
    refine safe_bind (safe_removePrefix (by omega)) fun _ buf _ => ?_
    refine safe_checked fun hlen => ?_
    refine safe_bind (safe_substr (by omega)) fun _ rest h => ?_
    rw [run_substr (by omega)] at h
    cases h
    refine safe_bind (safe_onBuffer (alwaysSafe_makeProperties loc _)) fun _ rest h => ?_
    obtain ⟨rfl, -⟩ := run_onBuffer_ok h
    exact safe_bind (safe_removePrefix (by omega)) fun _ _ _ => safe_pure _ _

/-! ### CONNECT -/

/-- The flags of a CONNECT are a byte that is read. -/
theorem alwaysSafe_readConnectFlags : AlwaysSafe readConnectFlags := by
  intro buf
  refine safe_checked fun hlen => ?_
  obtain ⟨b, rest, rfl⟩ : ∃ b rest, buf = b :: rest :=
    List.exists_cons_of_ne_nil (by rintro rfl; simp at hlen)
  refine safe_bind (by simp [Safe]) fun b' rest' h => ?_
  cases h
  refine safe_bind (alwaysSafe_failIf _ _ _) fun _ rest h => ?_
  obtain ⟨-, rfl⟩ := run_failIf_ok h
  exact safe_bind (safe_removePrefix (by simp)) fun _ _ _ => safe_pure _ _

/-- The check for a will looks at the flags only. -/
theorem alwaysSafe_checkNoWill (flags : UInt8) : AlwaysSafe (checkNoWill flags) :=
  .bind (alwaysSafe_failIf _ _) fun _ => alwaysSafe_failIf _ _

/-- The user name is read by its length. -/
theorem alwaysSafe_readUserName (flags : UInt8) : AlwaysSafe (readUserName flags) :=
  .ite (alwaysSafe_readLengthPrefixed _ _) (.pure _)

/-- The password is read by its length. -/
theorem alwaysSafe_readPassword (flags : UInt8) : AlwaysSafe (readPassword flags) := by
  refine .ite (.bind (alwaysSafe_readBytes _ _) fun _ buf => ?_) (.pure _)
  refine safe_checked fun hlen => ?_
  refine safe_bind (safe_substr (by omega)) fun _ rest h => ?_
  rw [run_substr (by omega)] at h
  cases h
  exact safe_bind (safe_removePrefix (by omega)) fun _ _ _ => safe_pure _ _

/-- A v3.1.1 CONNECT is read without going past the end, whatever the bytes are. -/
theorem alwaysSafe_decode_v311Connect : AlwaysSafe V311.ConnectPacket.decode := by
  have hwill : ∀ flags, AlwaysSafe (V311.ConnectPacket.readWill flags) := fun flags =>
    .ite (.bind (alwaysSafe_failIf _ _) fun _ => .bind (alwaysSafe_readLengthPrefixed _ _) fun _ =>
      .bind (alwaysSafe_readLengthPrefixed _ _) fun _ => .pure _)
      (.bind (alwaysSafe_checkNoWill _) fun _ => .pure _)
  exact .bind (alwaysSafe_readFixedHeaderWithCheck _ _) fun _ =>
    .bind (alwaysSafe_readRemainingLength _) fun _ =>
    .bind (alwaysSafe_checkRemainingLength _ _) fun _ =>
    .bind (alwaysSafe_readBytes _ _) fun _ => .bind (alwaysSafe_failIf _ _) fun _ =>
    .bind alwaysSafe_readConnectFlags fun _ => .bind (alwaysSafe_readBytes _ _) fun _ =>
    .bind (alwaysSafe_readLengthPrefixed _ _) fun _ => .bind (hwill _) fun _ =>
    .bind (alwaysSafe_readUserName _) fun _ => .bind (alwaysSafe_readPassword _) fun _ => .pure _

/-- A v5 CONNECT is read without going past the end. -/
theorem alwaysSafe_decode_v5Connect : AlwaysSafe V5.ConnectPacket.decode := by
  have hwill : ∀ flags, AlwaysSafe (V5.ConnectPacket.readWill flags) := fun flags =>
    .ite (.bind (alwaysSafe_failIf _ _) fun _ => .bind (alwaysSafe_readProperties _ _) fun _ =>
      .bind (alwaysSafe_readLengthPrefixed _ _) fun _ =>
      .bind (alwaysSafe_readLengthPrefixed _ _) fun _ => .pure _)
      (.bind (alwaysSafe_checkNoWill _) fun _ => .pure _)
  exact .bind (alwaysSafe_readFixedHeaderWithCheck _ _) fun _ =>
    .bind (alwaysSafe_readRemainingLength _) fun _ =>
    .bind (alwaysSafe_checkRemainingLength _ _) fun _ =>
    .bind (alwaysSafe_readBytes _ _) fun _ => .bind (alwaysSafe_failIf _ _) fun _ =>
    .bind alwaysSafe_readConnectFlags fun _ => .bind (alwaysSafe_readBytes _ _) fun _ =>
    .bind (alwaysSafe_readProperties _ _) fun _ =>
    .bind (alwaysSafe_readLengthPrefixed _ _) fun _ => .bind (hwill _) fun _ =>
    .bind (alwaysSafe_readUserName _) fun _ => .bind (alwaysSafe_readPassword _) fun _ => .pure _

/-! ### The other packets without exceptions -/

/-- Read the first byte of a buffer that is not empty without consuming it. -/
private theorem safe_front_bind {α : Type} {f : UInt8 → Decoder α} {b : UInt8} {rest : List UInt8}
    (hf : Safe (f b) (b :: rest)) : Safe (front >>= f) (b :: rest) := by
  refine safe_bind (by simp [Safe]) fun b' rest' h => ?_
  cases h
  exact hf

/-- A v3.1.1 CONNACK is read without going past the end. -/
theorem alwaysSafe_decode_v311Connack : AlwaysSafe V311.ConnackPacket.decode := by
  refine .bind (alwaysSafe_readFixedHeaderWithCheck _ _) fun _ =>
    .bind (alwaysSafe_readByte _) fun _ => .bind (alwaysSafe_failIf _ _) fun _ buf => ?_
  refine safe_checked fun hlen => ?_
  obtain ⟨flags, code, rfl⟩ := List.length_eq_two.mp (not_not.mp hlen)
  refine safe_front_bind (safe_bind (safe_removePrefix (by simp)) fun _ rest h => ?_)
  rw [run_removePrefix_one_cons] at h
  cases h
  refine safe_bind (alwaysSafe_failIf _ _ _) fun _ rest h => ?_
  obtain ⟨-, rfl⟩ := run_failIf_ok h
  exact safe_front_bind (safe_bind (alwaysSafe_failIf _ _ _) fun _ _ _ => safe_pure _ _)

/-- PINGREQ, PINGRESP and the v3.1.1 DISCONNECT -/
theorem alwaysSafe_decode_twoByte (type : ControlPacketType) :
    AlwaysSafe (TwoBytePacket.decode type) := by
  refine .bind (alwaysSafe_readFixedHeaderWithCheck _ _) fun _ buf => ?_
  refine safe_checked fun hne => ?_
  obtain ⟨b, rest, rfl⟩ := List.exists_cons_of_ne_nil hne
  exact safe_front_bind (safe_bind (alwaysSafe_failIf _ _ _) fun _ _ _ => safe_pure _ _)

/-- The v3.1.1 responses to a PUBLISH and UNSUBACK -/
theorem alwaysSafe_decode_v311Ack (type : ControlPacketType) (pb : PacketIdBytes) :
    AlwaysSafe (V311.AckPacket.decode type pb) :=
  .bind (alwaysSafe_readFixedHeaderWithCheck _ _) fun _ => .bind (alwaysSafe_readByte _) fun _ =>
    .bind (alwaysSafe_failIf _ _) fun _ => .bind .remaining fun _ =>
    .bind (alwaysSafe_failIf _ _) fun _ => .pure _

/-- The packet identifier is read only for QoS 1 and 2, by its width. -/
theorem alwaysSafe_readPublishPacketId (pb : PacketIdBytes) (fixedHeader : UInt8) :
    AlwaysSafe (readPublishPacketId pb fixedHeader) := by
  unfold readPublishPacketId
  split
  · exact .pure _
  · exact alwaysSafe_readBytes _ _
  · exact alwaysSafe_readBytes _ _
  · exact .fail _

/-- The payload is what is left. -/
theorem alwaysSafe_readPayloads : AlwaysSafe readPayloads := by
  intro buf
  refine safe_bind (safe_remaining buf) fun b rest h => ?_
  cases h
  exact safe_bind (safe_removePrefix (by omega)) fun _ _ _ => safe_pure _ _

/-- A v3.1.1 PUBLISH -/
theorem alwaysSafe_decode_v311Publish (pb : PacketIdBytes) :
    AlwaysSafe (V311.PublishPacket.decode pb) :=
  .bind (alwaysSafe_readFixedHeaderWithCheck _ _) fun _ =>
    .bind (alwaysSafe_readRemainingLength _) fun _ =>
    .bind (alwaysSafe_checkRemainingLength _ _) fun _ =>
    .bind (alwaysSafe_readLengthPrefixed _ _) fun _ =>
    .bind (alwaysSafe_readPublishPacketId _ _) fun _ => .bind alwaysSafe_readPayloads fun _ =>
    .pure _

/-- A v5 PUBLISH -/
theorem alwaysSafe_decode_v5Publish (pb : PacketIdBytes) :
    AlwaysSafe (V5.PublishPacket.decode pb) :=
  .bind (alwaysSafe_readByte _) fun _ => .bind (alwaysSafe_readRemainingLength _) fun _ =>
    .bind (alwaysSafe_readLengthPrefixed _ _) fun _ =>
    .bind (alwaysSafe_readPublishPacketId _ _) fun _ =>
    .bind (alwaysSafe_readProperties _ _) fun _ => .bind alwaysSafe_readPayloads fun _ => .pure _

/-- A topic filter with its QoS -/
theorem alwaysSafe_readEntry_v311Subscribe : AlwaysSafe V311.SubscribePacket.readEntry := by
  refine .bind (alwaysSafe_readLengthPrefixed _ _) fun _ buf => ?_
  refine safe_checked fun hne => ?_
  obtain ⟨b, rest, rfl⟩ := List.exists_cons_of_ne_nil hne
  refine safe_front_bind (safe_bind (alwaysSafe_failIf _ _ _) fun _ rest h => ?_)
  obtain ⟨-, rfl⟩ := run_failIf_ok h
  exact safe_bind (safe_removePrefix (by simp)) fun _ _ _ => safe_pure _ _

/-- A topic filter with its subscription options -/
theorem alwaysSafe_readEntry_v5Subscribe : AlwaysSafe V5.SubscribePacket.readEntry := by
  refine .bind (alwaysSafe_readLengthPrefixed _ _) fun _ buf => ?_
  refine safe_checked fun hne => ?_
  obtain ⟨b, rest, rfl⟩ := List.exists_cons_of_ne_nil hne
  refine safe_front_bind (safe_bind (alwaysSafe_failIf _ _ _) fun _ rest h => ?_)
  obtain ⟨-, rfl⟩ := run_failIf_ok h
  refine safe_bind (alwaysSafe_failIf _ _ _) fun _ rest h => ?_
  obtain ⟨-, rfl⟩ := run_failIf_ok h
  exact safe_bind (safe_removePrefix (by simp)) fun _ _ _ => safe_pure _ _

/-- A topic filter alone -/
theorem alwaysSafe_readEntry_unsubscribe : AlwaysSafe V311.UnsubscribePacket.readEntry :=
  .bind (alwaysSafe_readLengthPrefixed _ _) fun _ => .pure _

/-- The v3.1.1 packets that end in entries. -/
private theorem alwaysSafe_v311_entries {α β : Type} {type : ControlPacketType}
    {pb : PacketIdBytes} {readEntry : Decoder α} (h : AlwaysSafe readEntry)
    {g : UInt8 → Nat × Buffer → Buffer → List α → β} :
    AlwaysSafe (do
      let fixedHeader ← readFixedHeaderWithCheck type malformedPacket
      let rl ← readRemainingLength malformedPacket
      checkRemainingLength rl.1 malformedPacket
      let packetIdBuf ← readBytes pb.bytes malformedPacket
      checkEntries
      let entries ← many readEntry
      pure (g fixedHeader rl packetIdBuf entries)) :=
  .bind (alwaysSafe_readFixedHeaderWithCheck _ _) fun _ =>
    .bind (alwaysSafe_readRemainingLength _) fun _ =>
    .bind (alwaysSafe_checkRemainingLength _ _) fun _ => .bind (alwaysSafe_readBytes _ _) fun _ =>
    .bind alwaysSafe_checkEntries fun _ => .bind (.many h) fun _ => .pure _

/-- The v5.0 packets that end in entries. -/
private theorem alwaysSafe_v5_entries {α β : Type} {type : ControlPacketType}
    {loc : PropertyLocation} {pb : PacketIdBytes} {readEntry : Decoder α} (h : AlwaysSafe readEntry)
    {g : UInt8 → Nat × Buffer → Buffer → Nat × Buffer × Properties → List α → β} :
    AlwaysSafe (do
      let fixedHeader ← readFixedHeaderWithCheck type malformedPacket
      let rl ← readRemainingLength malformedPacket
      checkRemainingLength rl.1 malformedPacket
      let packetIdBuf ← readBytes pb.bytes malformedPacket
      let props ← readProperties loc malformedPacket
      checkEntries
      let entries ← many readEntry
      pure (g fixedHeader rl packetIdBuf props entries)) :=
  .bind (alwaysSafe_readFixedHeaderWithCheck _ _) fun _ =>
    .bind (alwaysSafe_readRemainingLength _) fun _ =>
    .bind (alwaysSafe_checkRemainingLength _ _) fun _ => .bind (alwaysSafe_readBytes _ _) fun _ =>
    .bind (alwaysSafe_readProperties _ _) fun _ =>
    .bind alwaysSafe_checkEntries fun _ => .bind (.many h) fun _ => .pure _

/-- Every v3.1.1 packet is read without going past the end. -/
theorem alwaysSafe_decodeV311 (pb : PacketIdBytes) (cpt : ControlPacketType) :
    AlwaysSafe (decodeV311 pb cpt) := by
  cases cpt with
  | connect => exact .map _ alwaysSafe_decode_v311Connect
  | connack => exact .map _ alwaysSafe_decode_v311Connack
  | publish => exact .map _ (alwaysSafe_decode_v311Publish pb)
  | puback | pubrec | pubrel | pubcomp | unsuback =>
    exact .map _ (alwaysSafe_decode_v311Ack _ pb)
  | subscribe => exact .map _ (alwaysSafe_v311_entries alwaysSafe_readEntry_v311Subscribe)
  | suback => exact .map _ (alwaysSafe_v311_entries (alwaysSafe_readCode _))
  | unsubscribe =>
    exact .map _ (alwaysSafe_v311_entries alwaysSafe_readEntry_unsubscribe)
  | pingreq | pingresp | disconnect => exact .map _ (alwaysSafe_decode_twoByte _)
  | auth => exact .fail _

/-! ### Complete frames -/

/-- A complete frame as `recv_packet_builder` hands it over: a header byte, a
    variable byte integer (minimal or not) and as many bytes as it says. -/
def IsFrame (header : UInt8) (payload buf : List UInt8) : Prop :=
  ∃ rest, buf = header :: rest ∧ variableBytesToVal rest = some (payload.length, payload)

/-- After the header byte the remaining length is read and the payload is left. -/
private theorem safe_frame_bind {α : Type} {f : Nat × List UInt8 → Decoder α} {ec : ErrorCode}
    {rest payload : List UInt8} (h : variableBytesToVal rest = some (payload.length, payload))
    (hf : ∀ lengthBuf, Safe (f (payload.length, lengthBuf)) payload) :
    Safe (readRemainingLength ec >>= f) rest := by
  refine safe_bind (alwaysSafe_readRemainingLength _ _) fun rl mid hrun => ?_
  rw [run_readRemainingLength, h] at hrun
  cases hrun
  exact hf _

/-- A reason code is there when the remaining length says so. -/
private theorem safe_reasonTail {loc : PropertyLocation} {codes : List UInt8} {n noCode noProps : Nat}
    {buf : List UInt8} (h : n ≠ noCode → buf ≠ []) :
    Safe (V5.ReasonTail.decode loc codes n noCode noProps) buf := by
  refine safe_ite (fun _ => ?_) (fun hn => ?_)
  · exact safe_bind (alwaysSafe_checkEnd _) fun _ _ _ => safe_pure _ _
  · obtain ⟨b, rest, rfl⟩ := List.exists_cons_of_ne_nil (h hn)
    refine safe_front_bind (safe_bind (safe_removePrefix (by simp)) fun _ mid _ => ?_)
    refine safe_bind (alwaysSafe_failIf _ _ _) fun _ mid _ => ?_
    refine safe_ite (fun _ => ?_) (fun _ => ?_)
    · exact safe_bind (alwaysSafe_checkEnd _) fun _ _ _ => safe_pure _ _
    · exact safe_bind (alwaysSafe_readProperties _ _ _) fun _ _ _ =>
        safe_bind (alwaysSafe_checkEnd _) fun _ _ _ => safe_pure _ _

/-- The v5 responses to a PUBLISH read their reason code and properties only if the remaining length
    leaves bytes for them. -/
theorem safe_decode_pubResponse {header : UInt8} {payload buf : List UInt8}
    (h : IsFrame header payload buf) (loc : PropertyLocation) (codes : List UInt8)
    (pb : PacketIdBytes) : Safe (V5.PubResponsePacket.decode loc codes pb) buf := by
  obtain ⟨rest, rfl, hlen⟩ := h
  refine safe_bind (alwaysSafe_readByte _ _) fun b mid hb => ?_
  rw [run_readByte_cons] at hb
  cases hb
  refine safe_frame_bind hlen fun lengthBuf => ?_
  refine safe_bind (alwaysSafe_readBytes _ _ _) fun packetIdBuf mid hmid => ?_
  rw [run_readBytes] at hmid
  split at hmid
  · exact nomatch hmid
  · rename_i hle
    cases hmid
    refine safe_bind (safe_reasonTail fun hne => ?_) fun _ _ _ => safe_pure _ _
    -- a longer packet has a byte after the packet identifier
    intro hnil
    exact hne (by have := List.drop_eq_nil_iff.mp hnil; omega)

/-- DISCONNECT and AUTH read their reason code and properties only if the remaining length leaves
    bytes for them. -/
theorem safe_decode_reason {header : UInt8} {payload buf : List UInt8}
    (h : IsFrame header payload buf) (loc : PropertyLocation) (codes : List UInt8) :
    Safe (V5.ReasonPacket.decode loc codes) buf := by
  obtain ⟨rest, rfl, hlen⟩ := h
  refine safe_bind (alwaysSafe_readByte _ _) fun b mid hb => ?_
  rw [run_readByte_cons] at hb
  cases hb
  refine safe_frame_bind hlen fun lengthBuf => ?_
  refine safe_bind (safe_reasonTail fun hne => ?_) fun _ _ _ => safe_pure _ _
  rintro rfl
  exact hne rfl

/-- The frames on which the v5.0 CONNACK decoder takes a reason code from an empty buffer. -/
def ConnackOverrun (header : UInt8) (payload : List UInt8) : Prop :=
  header = 0b00100000 ∧ ∃ flags, payload = [flags] ∧ flags &&& 0b11111110 = 0

set_option maxRecDepth 4000 in
/-- Only one fixed header is that of a CONNACK. -/
private theorem getControlPacketTypeWithCheck_connack :
    ∀ b : UInt8, getControlPacketTypeWithCheck b = some .connack ↔ b = 0b00100000 := by
  decide

/-- A v5 CONNACK reads its reason code unless the frame ends with the flags. -/
theorem safe_decode_v5Connack_iff {header : UInt8} {payload buf : List UInt8}
    (h : IsFrame header payload buf) :
    Safe V5.ConnackPacket.decode buf ↔ ¬ ConnackOverrun header payload := by
  obtain ⟨rest, rfl, hlen⟩ := h
  constructor
  · -- the run ends at `front` of the empty buffer
    rintro hsafe ⟨rfl, flags, rfl, hflags⟩
    refine hsafe ?_
    rw [V5.ConnackPacket.decode, run_bind_of_ok (run_readFixedHeaderWithCheck rfl _ _), run_bind,
      run_readRemainingLength, hlen]
    simp only
    rw [run_bind_of_ok (run_checkRemainingLength rfl _), run_bind_of_ok (run_readByte_cons _ _ _),
      run_bind_of_ok (run_failIf_of_not (by simpa using hflags) _ _),
      run_bind_of_error run_front_nil]
  · intro hno
    refine safe_bind (alwaysSafe_readFixedHeaderWithCheck _ _ _) fun b mid hb => ?_
    obtain ⟨b', mid', hb', hcheck⟩ := run_bind_ok hb
    rw [run_readByte_cons] at hb'
    cases hb'
    obtain ⟨_, _, hcheck, hpure⟩ := run_bind_ok hcheck
    obtain ⟨htype, rfl⟩ := run_failIf_ok hcheck
    cases hpure
    have hheader := (getControlPacketTypeWithCheck_connack header).mp (not_not.mp htype)
    refine safe_frame_bind hlen fun lengthBuf => ?_
    refine safe_bind (alwaysSafe_checkRemainingLength _ _ _) fun _ mid hmid => ?_
    rw [run_checkRemainingLength rfl] at hmid
    cases hmid
    refine safe_bind (alwaysSafe_readByte _ _) fun flags mid hflags => ?_
    -- the frame has at least the byte of the flags, and its end is reached only behind it
    cases payload with
    | nil => cases hflags
    | cons flags payload =>
      rw [run_readByte_cons] at hflags
      cases hflags
      refine safe_bind (alwaysSafe_failIf _ _ _) fun _ mid hmid => ?_
      obtain ⟨hbits, rfl⟩ := run_failIf_ok hmid
      cases mid with
      | nil => exact absurd ⟨hheader, flags, rfl, not_not.mp hbits⟩ hno
      | cons code payload =>
        refine safe_front_bind (safe_bind (safe_removePrefix (by simp)) fun _ _ _ => ?_)
        exact safe_bind (alwaysSafe_failIf _ _ _) fun _ _ _ =>
          safe_bind (alwaysSafe_readProperties _ _ _) fun _ _ _ =>
          safe_bind (alwaysSafe_checkEnd _) fun _ _ _ => safe_pure _ _

/-- What is done with the packet does not matter to its reading. -/
theorem safe_map_iff {α β : Type} {r : Decoder α} {g : α → β} {buf : List UInt8} :
    Safe (g <$> r) buf ↔ Safe r buf := by
  rw [Safe, Safe, run_map]
  cases r.run buf with
  | error e => simp
  | ok p => simp

/-- Of the v5 packets only CONNACK can be read past the end. -/
theorem safe_decodeV5_iff {header : UInt8} {payload buf : List UInt8}
    (h : IsFrame header payload buf) (pb : PacketIdBytes) (cpt : ControlPacketType)
    (hcpt : getControlPacketType header = some cpt) :
    Safe (decodeV5 pb cpt) buf ↔ ¬ ConnackOverrun header payload := by
  by_cases hconnack : cpt = .connack
  · subst hconnack
    exact safe_map_iff.trans (safe_decode_v5Connack_iff h)
  · -- no other type has the header of CONNACK
    have hno : ¬ ConnackOverrun header payload := by
      rintro ⟨rfl, -⟩
      exact hconnack (Option.some.inj hcpt).symm
    refine iff_of_true ?_ hno
    -- each type has a decoder that reads behind its own checks
    cases cpt with
    | connect => exact AlwaysSafe.map _ alwaysSafe_decode_v5Connect buf
    | connack => exact absurd rfl hconnack
    | publish => exact AlwaysSafe.map _ (alwaysSafe_decode_v5Publish pb) buf
    | puback | pubrec | pubrel | pubcomp => exact safe_map_iff.mpr (safe_decode_pubResponse h _ _ pb)
    | subscribe =>
      exact AlwaysSafe.map _ (alwaysSafe_v5_entries alwaysSafe_readEntry_v5Subscribe) buf
    | suback | unsuback =>
      exact AlwaysSafe.map _ (alwaysSafe_v5_entries (alwaysSafe_readCode _)) buf
    | unsubscribe =>
      exact AlwaysSafe.map _ (alwaysSafe_v5_entries alwaysSafe_readEntry_unsubscribe) buf
    | pingreq | pingresp => exact AlwaysSafe.map _ (alwaysSafe_decode_twoByte _) buf
    | disconnect | auth => exact safe_map_iff.mpr (safe_decode_reason h _ _)

/-- `get_protocol_version` on a frame: the byte after six, if there are six. -/
theorem run_getProtocolVersion {header : UInt8} {payload buf : List UInt8}
    (h : IsFrame header payload buf) :
    getProtocolVersion.run buf =
      if 6 ≤ payload.length then (getAt 6).run payload else .ok (0, payload) := by
  obtain ⟨rest, rfl, hlen⟩ := h
  rw [getProtocolVersion, run_bind_of_ok (run_removePrefix_one_cons _ _), run_bind,
    run_insertAdvanceVariableLength, hlen]
  simp only
  rw [run_bind_of_ok (run_remaining _), run_ite]
  rfl

/-- The version is read from the seventh byte of a CONNECT, where six bytes are not enough. -/
theorem safe_getProtocolVersion_iff {header : UInt8} {payload buf : List UInt8}
    (h : IsFrame header payload buf) :
    Safe getProtocolVersion buf ↔ payload.length ≠ 6 := by
  rw [Safe, run_getProtocolVersion h]
  by_cases h6 : 6 ≤ payload.length
  · rw [if_pos h6]
    by_cases h7 : 6 < payload.length
    · simp [run, getAt, List.getElem?_eq_getElem h7]
      omega
    · have hlen : payload.length = 6 := by omega
      simp [run, getAt, hlen]
  · rw [if_neg h6]
    exact iff_of_true (by simp) (by omega)

/-- A CONNECT of a version that is not known yet -/
theorem safe_decodeUndeterminedConnect_iff {header : UInt8} {payload buf : List UInt8}
    (h : IsFrame header payload buf) (pb : PacketIdBytes) :
    Safe (decodeUndeterminedConnect pb) buf ↔ payload.length ≠ 6 := by
  rw [← safe_getProtocolVersion_iff h]
  constructor
  · intro hsafe hver
    refine hsafe ?_
    have hon : (onBuffer buf getProtocolVersion).run buf = .error .outOfBounds := by
      unfold run at hver ⊢
      simp only [onBuffer, hver]
    rw [decodeUndeterminedConnect, run_bind_of_ok (run_remaining _), run_bind_of_error hon]
  · intro hver
    refine safe_bind (safe_remaining buf) fun b mid hb => ?_
    cases hb
    refine safe_bind (safe_onBuffer hver) fun version mid _ => ?_
    exact safe_ite (fun _ => alwaysSafe_decodeV311 pb .connect _) fun _ =>
      safe_ite (fun _ => AlwaysSafe.map _ alwaysSafe_decode_v5Connect _) fun _ => safe_fail _ _

/-- The frames on which a decoder reads past the end of its buffer. -/
def ReadsPastEnd (ver : ProtocolVersion) (header : UInt8) (payload : List UInt8) : Prop :=
  (ver = .v5 ∧ ConnackOverrun header payload) ∨
    (ver = .undetermined ∧ getControlPacketType header = some .connect ∧ payload.length = 6)

/-- Decoding a complete frame is index-safe for every protocol version and packet
    identifier width, except on the v5.0 CONNACK that ends after its flags and on
    the CONNECT of six bytes whose version is still undetermined. -/
theorem bufferToPacketVariant_safe_iff (pb : PacketIdBytes) (ver : ProtocolVersion)
    {header : UInt8} {payload buf : List UInt8} (h : IsFrame header payload buf) :
    Safe (bufferToPacketVariant pb ver) buf ↔ ¬ ReadsPastEnd ver header payload := by
  obtain ⟨rest, hbuf, hlen⟩ := id h
  obtain ⟨pre, rfl, hpre, -⟩ := variableBytesToVal_eq_append hlen
  have hge : ¬ buf.length < 2 := by
    have := List.length_pos_iff.mpr hpre
    simp only [hbuf, List.length_cons, List.length_append]
    omega
  have hget : (getAt 0 : Decoder UInt8).run buf = .ok (header, buf) := by rw [hbuf]; rfl
  rw [Safe, bufferToPacketVariant, run_bind_of_ok (run_remaining _),
    run_bind_of_ok (run_failIf_of_not hge _ _), run_bind_of_ok hget]
  -- the version decides which packets are read
  cases hcpt : getControlPacketType header with
  | none =>
    refine iff_of_true (by simp) ?_
    rintro (⟨-, rfl, -⟩ | ⟨-, hc, -⟩)
    · cases hcpt
    · rw [hcpt] at hc
      cases hc
  | some cpt =>
    cases ver with
    | v311 => exact iff_of_true (alwaysSafe_decodeV311 pb cpt buf) (by simp [ReadsPastEnd])
    | v5 =>
      have := safe_decodeV5_iff h pb cpt hcpt
      simpa [Safe, ReadsPastEnd] using this
    | undetermined =>
      have hundet := safe_decodeUndeterminedConnect_iff h pb
      simp only [Safe] at hundet
      rw [run_ite]
      by_cases hconnect : cpt = .connect
      · subst hconnect
        simpa [ReadsPastEnd, hcpt] using hundet
      · rw [if_neg hconnect]
        exact iff_of_true (by simp) (by simp [ReadsPastEnd, hcpt, hconnect])

/-- A frame with nothing wrong: the v5.0 CONNACK of a new session. -/
theorem bufferToPacketVariant_safe_connack :
    IsFrame 0x20 [0, 0, 0] [0x20, 3, 0, 0, 0] ∧
      Safe (bufferToPacketVariant .two .v5) [0x20, 3, 0, 0, 0] := by
  have h : IsFrame 0x20 [0, 0, 0] [0x20, 3, 0, 0, 0] := ⟨[3, 0, 0, 0], rfl, rfl⟩
  refine ⟨h, (bufferToPacketVariant_safe_iff .two .v5 h).mpr ?_⟩
  rintro (⟨-, -, flags, hflags, -⟩ | ⟨hver, -⟩)
  · simp at hflags
  · exact nomatch hver

/-- Not every complete frame is decoded inside its buffer. -/
theorem bufferToPacketVariant_reads_past_end :
    ¬ ∀ (pb : PacketIdBytes) (ver : ProtocolVersion) (header : UInt8) (payload buf : List UInt8),
      IsFrame header payload buf → Safe (bufferToPacketVariant pb ver) buf := by
  intro h
  exact h .two .v5 0x20 [0] [0x20, 1, 0] ⟨[1, 0], rfl, rfl⟩ rfl

end AsyncMqtt
