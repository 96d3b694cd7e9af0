import AsyncMqtt.Spec.ConstructCorrect
import AsyncMqtt.Spec.Line

/-!
# Refusing a CONNECT that cannot be decoded

A server that receives a CONNECT which the decoder rejects has to answer with a CONNACK
that says why, and to stay disconnected. `process_recv_packet` tries to: it enters the
state `connecting`, because a CONNACK may only be sent there, and calls `send`.

The answer comes out right for a v5.0 server and the errors with a `connect_reason_code`.
It does not for the errors of the properties, which have a `disconnect_reason_code`; for
a v3.1.1 server, which puts the reason codes of v5.0 into a return code; and for a server
whose version is undetermined, whose own version check stops the answer.

## Key results

- `connectError_of_decode`: the reason codes that the decoder of CONNECT can report
- `Connection.connect_refused_iff`: when a bad CONNECT is answered and refused
-/

namespace AsyncMqtt

open ByteReader

/-! ### The errors of the decoder -/

/-- An error that is not a `connect_reason_code`, or one of the two that the decoder of
    CONNECT knows. -/
def ErrorCode.IsConnectError (ec : ErrorCode) : Prop :=
  ec.category = .connectReasonCode →
    ec = .connect ConnectReasonCode.malformedPacket ∨
      ec = .connect ConnectReasonCode.unsupportedProtocolVersion

/-- A malformed packet is an error of a CONNECT. -/
theorem isConnectError_malformed : connectMalformedPacket.IsConnectError := fun _ => .inl rfl

/-- An unsupported version is an error of a CONNECT. -/
theorem isConnectError_unsupported :
    (ErrorCode.connect ConnectReasonCode.unsupportedProtocolVersion).IsConnectError :=
  fun _ => .inr rfl

/-- A reason code of a DISCONNECT is an error of a CONNECT. -/
theorem isConnectError_disconnect (value : UInt8) : (ErrorCode.disconnect value).IsConnectError :=
  fun h => nomatch h

section

variable {P : ErrorCode → Prop} {ec : ErrorCode}

/-- A check fails with its error. -/
theorem failsWith_failIf (c : Prop) [Decidable c] (h : P ec) : FailsWith P (failIf c ec) :=
  .ite (.fail h) (.pure _)

/-- Reading a byte fails with its error. -/
theorem failsWith_readByte (h : P ec) : FailsWith P (readByte ec) :=
  .bind .remaining fun _ => .bind (failsWith_failIf _ h) fun _ => .bind .front fun _ =>
    .bind (.removePrefix 1) fun _ => .pure _

/-- Taking bytes does not fail with an error. -/
theorem failsWith_insertAdvance (n : Nat) : FailsWith P (insertAdvance n) :=
  .bind .remaining fun _ => .ite (.pure _) (.bind (.substr 0 n) fun _ =>
    .bind (.removePrefix n) fun _ => .pure _)

/-- Taking a number does not fail with an error. -/
theorem failsWith_insertAdvanceVariableLength : FailsWith P insertAdvanceVariableLength := by
  refine .bind .remaining fun buf => ?_
  refine .ite (.pure _) ?_
  split
  · exact .pure _
  · exact .bind (.substr _ _) fun _ => .bind (.removePrefix _) fun _ => .pure _

/-- Reading the remaining length fails with its error. -/
theorem failsWith_readRemainingLength (h : P ec) : FailsWith P (readRemainingLength ec) := by
  refine .bind failsWith_insertAdvanceVariableLength fun vl => ?_
  split
  · exact .pure _
  · exact .fail h

/-- Reading bytes fails with its error. -/
theorem failsWith_readBytes (n : Nat) (h : P ec) : FailsWith P (readBytes n ec) := by
  refine .bind (failsWith_insertAdvance n) fun bs => ?_
  split
  · exact .pure _
  · exact .fail h

/-- Reading a field fails with its error. -/
theorem failsWith_readLengthPrefixed (check : List UInt8 → Bool) (h : P ec) :
    FailsWith P (readLengthPrefixed check ec) :=
  .bind (failsWith_readBytes 2 h) fun _ => .bind .remaining fun _ =>
    .bind (failsWith_failIf _ h) fun _ => .bind (.substr _ _) fun _ =>
    .bind (failsWith_failIf _ h) fun _ => .bind (.removePrefix _) fun _ => .pure _

/-- `getProtocolVersion` reports no error. -/
theorem failsWith_getProtocolVersion : FailsWith P getProtocolVersion := by
  refine .bind (.removePrefix 1) fun _ => ?_
  refine .bind failsWith_insertAdvanceVariableLength fun vl => ?_
  split
  · exact .bind .remaining fun _ => .ite (.getAt 6) (.pure _)
  · exact .pure _

end

/-! ### Properties -/

/-- Looking at a field fails as a malformed packet. -/
theorem failsWith_peekLengthPrefixed :
    FailsWith ErrorCode.IsConnectError peekLengthPrefixed := by
  have hmalformed : malformedPacket.IsConnectError := isConnectError_disconnect _
  refine .bind .remaining fun buf => ?_
  refine .bind (failsWith_failIf _ hmalformed) fun _ => ?_
  have hload : FailsWith ErrorCode.IsConnectError (endianLoadFront 2) :=
    .bind .remaining fun _ => .ite (.pure _) (.bind (.removePrefix _) fun _ => .pure _)
  exact .bind hload fun _ => .bind (failsWith_failIf _ hmalformed) fun _ => .substr _ _

/-- The errors of the properties are not connect reason codes. -/
theorem failsWith_makePropertyVariant (loc : PropertyLocation) :
    FailsWith ErrorCode.IsConnectError (makePropertyVariant loc) := by
  have hmalformed : malformedPacket.IsConnectError := isConnectError_disconnect _
  have hprotocol : protocolError.IsConnectError := isConnectError_disconnect _
  -- the branches differ in the length, the identifier and the check only
  have hnBytes : ∀ n id check, (∀ buf, ∀ ec ∈ check buf, ErrorCode.IsConnectError ec) →
      FailsWith ErrorCode.IsConnectError (makeNBytesProperty n id check) := by
    intro n id check hcheck
    refine .bind .remaining fun buf => ?_
    refine .bind (failsWith_failIf _ hmalformed) fun _ => ?_
    refine .bind (.substr 0 n) fun bs => ?_
    split
    · next ec hec => exact .fail (hcheck bs ec hec)
    · exact .bind (.removePrefix n) fun _ => .pure _
  have hbinary : ∀ id check,
      FailsWith ErrorCode.IsConnectError (makeBinaryProperty id check) := fun id check =>
    .bind failsWith_peekLengthPrefixed fun _ => .bind (failsWith_failIf _ hmalformed) fun _ =>
      .bind (.removePrefix _) fun _ => .pure _
  -- the checks report a malformed packet or a protocol error
  have hpayloadFormat : ∀ buf, ∀ ec ∈ checkPayloadFormat buf, ec.IsConnectError := by
    intro buf ec hec
    unfold checkPayloadFormat at hec
    split at hec
    · exact nomatch hec
    · exact Option.some.inj hec ▸ hmalformed
  have hmaximumQos : ∀ buf, ∀ ec ∈ checkMaximumQos buf, ec.IsConnectError := by
    intro buf ec hec
    unfold checkMaximumQos at hec
    split at hec
    · exact Option.some.inj hec ▸ hprotocol
    · exact nomatch hec
  have hnonZero : ∀ buf, ∀ ec ∈ checkNonZero buf, ec.IsConnectError := by
    intro buf ec hec
    unfold checkNonZero at hec
    split at hec
    · exact Option.some.inj hec ▸ hprotocol
    · exact nomatch hec
  have hnone : ∀ _ : Buffer, ∀ ec ∈ (none : Option ErrorCode), ec.IsConnectError :=
    fun _ _ hec => nomatch hec
  refine .bind .remaining fun buf => ?_
  refine .bind (failsWith_failIf _ hmalformed) fun _ => ?_
  refine .bind .front fun b => ?_
  split
  · exact .fail hmalformed
  · next id _ =>
    refine .bind (failsWith_failIf _ hmalformed) fun _ => ?_
    refine .bind (.removePrefix 1) fun _ => ?_
    unfold makePropertyOfId
    split
    · exact hnBytes _ _ _ hpayloadFormat
    all_goals first
      | exact hnBytes _ _ _ hnone
      | exact hnBytes _ _ _ hmaximumQos
      | exact hnBytes _ _ _ hnonZero
      | exact hbinary _ _
      | skip
    -- the subscription identifier and the user property are left
    · refine .bind .remaining fun buf => ?_
      split
      · exact .fail hmalformed
      · exact .bind (failsWith_failIf _ hprotocol) fun _ => .bind (.removePrefix _) fun _ =>
          .pure _
    · exact .bind failsWith_peekLengthPrefixed fun _ => .bind (.removePrefix _) fun _ =>
        .bind failsWith_peekLengthPrefixed fun _ => .bind (failsWith_failIf _ hmalformed) fun _ =>
        .bind (failsWith_failIf _ hmalformed) fun _ => .bind (.removePrefix _) fun _ => .pure _

/-- Reading the properties fails with an error of a CONNECT. -/
theorem failsWith_readProperties (loc : PropertyLocation) :
    FailsWith ErrorCode.IsConnectError (readProperties loc connectMalformedPacket) := by
  refine .bind .remaining fun buf => ?_
  split
  · exact .fail isConnectError_malformed
  · exact .bind (.substr _ _) fun _ => .bind (.removePrefix _) fun _ => .bind .remaining fun _ =>
      .bind (failsWith_failIf _ isConnectError_malformed) fun _ => .bind (.substr _ _) fun _ =>
      .bind (.onBuffer (.many (failsWith_makePropertyVariant loc)) _) fun _ =>
      .bind (.removePrefix _) fun _ => .pure _

/-! ### CONNECT -/

/-- The check of the QoS of the will -/
theorem failsWith_checkWillQos (flags : UInt8) :
    FailsWith ErrorCode.IsConnectError (checkWillQos flags) :=
  failsWith_failIf _ isConnectError_malformed

/-- The check that there is no will -/
theorem failsWith_checkNoWill (flags : UInt8) :
    FailsWith ErrorCode.IsConnectError (checkNoWill flags) :=
  .bind (failsWith_failIf _ isConnectError_malformed) fun _ =>
    failsWith_failIf _ isConnectError_malformed

/-- Reading the flags of a CONNECT -/
theorem failsWith_readConnectFlags : FailsWith ErrorCode.IsConnectError readConnectFlags :=
  .bind .remaining fun _ => .bind (failsWith_failIf _ isConnectError_malformed) fun _ =>
    .bind .front fun _ => .bind (failsWith_failIf _ isConnectError_malformed) fun _ =>
    .bind (.removePrefix 1) fun _ => .pure _

/-- Reading the user name -/
theorem failsWith_readUserName (flags : UInt8) :
    FailsWith ErrorCode.IsConnectError (readUserName flags) :=
  .ite (failsWith_readLengthPrefixed _ isConnectError_malformed) (.pure _)

/-- Reading the password -/
theorem failsWith_readPassword (flags : UInt8) :
    FailsWith ErrorCode.IsConnectError (readPassword flags) :=
  .ite (.bind (failsWith_readBytes 2 isConnectError_malformed) fun _ => .bind .remaining fun _ =>
    .bind (failsWith_failIf _ isConnectError_malformed) fun _ => .bind (.substr _ _) fun _ =>
    .bind (.removePrefix _) fun _ => .pure _) (.pure _)

/-- The fixed header, the remaining length, and the protocol name and level. -/
theorem failsWith_connectStart {α : Type} {nameAndLevel : List UInt8}
    {f : UInt8 → Nat × List UInt8 → List UInt8 → Decoder α}
    (hf : ∀ a b c, FailsWith ErrorCode.IsConnectError (f a b c)) :
    FailsWith ErrorCode.IsConnectError (do
      let fixedHeader ← readFixedHeaderWithCheck .connect connectMalformedPacket
      let vl ← readRemainingLength connectMalformedPacket
      checkRemainingLength vl.1 connectMalformedPacket
      let bs ← readBytes 7 connectMalformedPacket
      failIf (bs ≠ nameAndLevel) (.connect ConnectReasonCode.unsupportedProtocolVersion)
      f fixedHeader vl bs) :=
  .bind (.bind (failsWith_readByte isConnectError_malformed) fun _ =>
      .bind (failsWith_failIf _ isConnectError_malformed) fun _ => .pure _) fun _ =>
    .bind (failsWith_readRemainingLength isConnectError_malformed) fun _ =>
    .bind (.bind .remaining fun _ => failsWith_failIf _ isConnectError_malformed) fun _ =>
    .bind (failsWith_readBytes 7 isConnectError_malformed) fun _ =>
    .bind (failsWith_failIf _ isConnectError_unsupported) fun _ => hf _ _ _

/-- A v3.1.1 CONNECT that cannot be read has an error of a CONNECT. -/
theorem failsWith_decode_v311Connect :
    FailsWith ErrorCode.IsConnectError V311.ConnectPacket.decode := by
  have hwill : ∀ flags,
      FailsWith ErrorCode.IsConnectError (V311.ConnectPacket.readWill flags) := fun flags =>
    .ite (.bind (failsWith_checkWillQos _) fun _ =>
      .bind (failsWith_readLengthPrefixed _ isConnectError_malformed) fun _ =>
      .bind (failsWith_readLengthPrefixed _ isConnectError_malformed) fun _ => .pure _)
      (.bind (failsWith_checkNoWill _) fun _ => .pure _)
  exact failsWith_connectStart fun _ _ _ => .bind failsWith_readConnectFlags fun _ =>
    .bind (failsWith_readBytes 2 isConnectError_malformed) fun _ =>
    .bind (failsWith_readLengthPrefixed _ isConnectError_malformed) fun _ =>
    .bind (hwill _) fun _ => .bind (failsWith_readUserName _) fun _ =>
    .bind (failsWith_readPassword _) fun _ => .pure _

/-- A v5 CONNECT that cannot be read has an error of a CONNECT. -/
theorem failsWith_decode_v5Connect :
    FailsWith ErrorCode.IsConnectError V5.ConnectPacket.decode := by
  have hwill : ∀ flags,
      FailsWith ErrorCode.IsConnectError (V5.ConnectPacket.readWill flags) := fun flags =>
    .ite (.bind (failsWith_checkWillQos _) fun _ => .bind (failsWith_readProperties .will) fun _ =>
      .bind (failsWith_readLengthPrefixed _ isConnectError_malformed) fun _ =>
      .bind (failsWith_readLengthPrefixed _ isConnectError_malformed) fun _ => .pure _)
      (.bind (failsWith_checkNoWill _) fun _ => .pure _)
  exact failsWith_connectStart fun _ _ _ => .bind failsWith_readConnectFlags fun _ =>
    .bind (failsWith_readBytes 2 isConnectError_malformed) fun _ =>
    .bind (failsWith_readProperties .connect) fun _ =>
    .bind (failsWith_readLengthPrefixed _ isConnectError_malformed) fun _ =>
    .bind (hwill _) fun _ => .bind (failsWith_readUserName _) fun _ =>
    .bind (failsWith_readPassword _) fun _ => .pure _

/-- The frame is a CONNECT by its first byte. -/
def isConnectFrame (frame : Buffer) : Bool :=
  frame.head?.bind getControlPacketType = some .connect

/-- A CONNECT is rejected with one of two connect reason codes, or with an error of
    another category. -/
theorem connectError_of_decode {pb : PacketIdBytes} {ver : ProtocolVersion} {frame : Buffer}
    {ec : ErrorCode} (hframe : isConnectFrame frame)
    (h : (bufferToPacketVariant pb ver).run frame = .error (.error ec)) : ec.IsConnectError := by
  obtain ⟨b, rest, rfl⟩ : ∃ b rest, frame = b :: rest := by
    cases frame with
    | nil => exact nomatch hframe
    | cons b rest => exact ⟨b, rest, rfl⟩
  have hb : getControlPacketType b = some .connect := of_decide_eq_true hframe
  have hv311 : FailsWith ErrorCode.IsConnectError (decodeV311 pb .connect) :=
    .map _ failsWith_decode_v311Connect
  have hv5 : FailsWith ErrorCode.IsConnectError (decodeV5 pb .connect) :=
    .map _ failsWith_decode_v5Connect
  have hundetermined : FailsWith ErrorCode.IsConnectError (decodeUndeterminedConnect pb) :=
    .bind .remaining fun _ => .bind (.onBuffer failsWith_getProtocolVersion _) fun _ =>
      .ite hv311 (.ite hv5 (.fail isConnectError_unsupported))
  cases rest with
  | nil =>
    -- a buffer of one byte is rejected before its type is looked at
    obtain rfl : malformedPacket = ec := Stop.error.inj (Except.error.inj h)
    exact isConnectError_disconnect _
  | cons b' rest =>
    rw [run_bufferToPacketVariant pb ver b (List.cons_ne_nil b' rest), hb] at h
    cases ver with
    | v311 => exact hv311 _ _ h
    | v5 => exact hv5 _ _ h
    | undetermined => exact hundetermined _ _ h

namespace Connection

variable {role : Role} {pb : PacketIdBytes}

/-! ### The answer -/

/-- The version that a server speaks with the sender of a CONNECT: its own, or the one of
    the CONNECT. -/
def spokenVersion (c : Connection role pb) (frame : Buffer) : Option ProtocolVersion :=
  match c.protocolVersion with
  | .undetermined =>
    match getProtocolVersion.run frame with
    | .ok (4, _) => some .v311
    | .ok (5, _) => some .v5
    | _ => none
  | ver => some ver

/-- A CONNECT is answered and refused: the only packet that is sent is a CONNACK of the
    version that the server speaks, its decoder accepts it and its code refuses the
    connection, and the connection stays disconnected. -/
def RefusesConnect (c : Connection role pb) (frame : Buffer) (s : Step role pb) : Prop :=
  (∃ pv, sends s.events = [pv] ∧ pv.type = .connack ∧
    (∀ ver, c.spokenVersion frame = some ver → pv.version = ver) ∧
    (∃ pv' rest, (bufferToPacketVariant pb pv.version).run pv.constBufferSequence.flatten =
      .ok (pv', rest)) ∧ pv.view.code ≠ 0) ∧
  s.conn.status = .disconnected

/-- The CONNACK for a v5.0 CONNECT can be decoded. -/
theorem decode_connackOf {value : UInt8} (h : value = ConnectReasonCode.malformedPacket ∨
    value = ConnectReasonCode.unsupportedProtocolVersion) (pb : PacketIdBytes) :
    (bufferToPacketVariant pb .v5).run (V5.connackOf false value).constBufferSequence.flatten =
      .ok (.v5Connack (V5.connackOf false value), []) := by
  rcases h with rfl | rfl <;> cases pb <;> rfl

/-- The reason codes of v5.0 are no return codes of v3.1.1. -/
theorem decode_connackPacket {value : UInt8} (h : value = ConnectReasonCode.malformedPacket ∨
    value = ConnectReasonCode.unsupportedProtocolVersion) (pb : PacketIdBytes) :
    (bufferToPacketVariant pb .v311).run
      (V311.connackPacket false value).constBufferSequence.flatten =
        .error (.error malformedPacket) := by
  rcases h with rfl | rfl <;> cases pb <;> rfl

/-- A CONNECT that is refused is answered. -/
theorem RefusesConnect.sends_ne_nil {c : Connection role pb} {frame : Buffer} {s : Step role pb}
    (h : c.RefusesConnect frame s) : sends s.events ≠ [] := by
  obtain ⟨⟨pv, hsends, -⟩, -⟩ := h
  rw [hsends]
  exact List.cons_ne_nil pv []

/-- A DISCONNECT is not sent while the connection is not there. -/
theorem sends_disconnectV5 {c : Connection role pb} (hstatus : c.status = .disconnected)
    (reasonCode : UInt8) : sends (c.disconnectV5 reasonCode).events = [] := by
  have hrefused : ¬ c.passesChecks (.v5Disconnect (V5.disconnectOf reasonCode)) := by
    rw [passesChecks, sendAllowed]
    simp [PacketVariant.type, hstatus]
  rw [disconnectV5, Step.events_emit, sends_append, (send_line_refused hrefused).2]
  rfl

/-- What `recv` does with a frame that the decoder rejects. -/
theorem recv_of_rejected {c c₀ : Connection role pb} {is : List UInt8} {frame : Buffer}
    {ec : ErrorCode} (hc₀ : c₀ = { c with rpb := (c.rpb.recv is).1 })
    (hframe : (c.rpb.recv is).2.1 = some (.packet frame))
    (hrejected : (bufferToPacketVariant pb c.protocolVersion).run frame = .error (.error ec)) :
    (c.recv is).1 =
      if c.maximumPacketSizeRecv < frame.length then
        c₀.disconnectV5 DisconnectReasonCode.packetTooLarge
      else c₀.processRecvError ec := by
  subst hc₀
  unfold recv
  rcases hrecv : c.rpb.recv is with ⟨rpb, out, rest⟩
  rw [hrecv] at hframe
  simp only at hframe
  subst hframe
  simp only [processRecvPacket]
  split
  · rfl
  · rw [hrejected]

/-- What `send` does with the CONNACK that refuses a CONNECT. -/
theorem send_refusal {c : Connection role pb} (hrole : canSendAsServer role)
    (hstatus : c.status = .connecting) {value : UInt8} (hvalue : value ≠ 0) :
    if c.protocolVersion ≠ .undetermined ∧ (c.refusal value).size ≤ c.maximumPacketSizeSend then
      sends (c.send (c.refusal value)).events =
          c.refusal value :: c.storedFit c.maximumPacketSizeSend ∧
        (c.send (c.refusal value)).conn.status = .disconnected
    else sends (c.send (c.refusal value)).events = [] := by
  -- the CONNACK passes the checks if the version is known and the packet is not too large
  have hpass : c.passesChecks (c.refusal value) ↔
      c.protocolVersion ≠ .undetermined ∧
        (c.refusal value).size ≤ c.maximumPacketSizeSend := by
    unfold passesChecks sendAllowed validateMaximumPacketSize versionCheck refusal
    cases hver : c.protocolVersion <;>
      simp [hrole, hstatus, PacketVariant.isServerSendable, PacketVariant.isClientSendable,
        PacketVariant.type, PacketVariant.version]
  split
  · next hfits =>
    have htype : (c.refusal value).type ≠ .publish := by
      rw [refusal_type]
      rintro ⟨⟩
    -- a CONNACK with an error does not accept
    have haccepts : (c.refusal value).acceptsConnection = false := by
      unfold refusal
      split <;> exact decide_eq_false hvalue
    obtain ⟨hline, hsends⟩ := send_line htype (hpass.mpr hfits)
    rw [refusal_type, if_pos rfl] at hsends
    have hstopped := congrArg Line.status hline
    rw [Line.afterSend, refusal_type] at hstopped
    simp only [haccepts] at hstopped
    exact ⟨hsends, hstopped⟩
  · next hfits => exact (send_line_refused fun h => hfits (hpass.mp h)).2

/-- A CONNECT that is rejected with a connect reason code: the answer is right on a v5.0
    server, when it fits and no stored packet follows it. -/
theorem processRecvError_refuses_iff {c : Connection role pb} {frame : Buffer} {ec : ErrorCode}
    (hrole : canSendAsServer role) (hstatus : c.status = .disconnected)
    (hcategory : ec.category = .connectReasonCode) (hec : ec.IsConnectError) :
    c.RefusesConnect frame (c.processRecvError ec) ↔
      c.protocolVersion = .v5 ∧ 5 ≤ c.maximumPacketSizeSend ∧
        ∀ e ∈ c.store.elems, c.maximumPacketSizeSend < e.size := by
  obtain ⟨value, c₁, hc₁, hs, hvalue⟩ : ∃ value c₁, c₁ = { c with status := .connecting } ∧
      c.processRecvError ec = (c₁.send (c₁.refusal value)).emit (.error (.connect value)) ∧
      (value = ConnectReasonCode.malformedPacket ∨
        value = ConnectReasonCode.unsupportedProtocolVersion) := by
    refine ⟨UInt8.ofNat ec.value, _, rfl, ?_, ?_⟩
    · rw [processRecvError, if_pos ⟨hstatus, hcategory⟩]
      rfl
    · rcases hec hcategory with rfl | rfl
      · exact .inl rfl
      · exact .inr rfl
  have hcode : value ≠ 0 := by
    rcases hvalue with rfl | rfl <;> decide
  have hsent := send_refusal hrole (by rw [hc₁] : c₁.status = .connecting) hcode
  have hsends : sends (c.processRecvError ec).events = sends (c₁.send (c₁.refusal value)).events := by
    rw [hs, Step.events_emit, sends_append]
    exact List.append_nil _
  have hver₁ : c₁.protocolVersion = c.protocolVersion := by rw [hc₁]
  split at hsent
  · next hfits =>
    obtain ⟨hsent, hstopped⟩ := hsent
    rw [hsent] at hsends
    cases hver : c.protocolVersion with
    | undetermined => exact absurd (hver₁.trans hver) hfits.1
    | v311 =>
      -- the CONNACK that is sent has a code that v3.1.1 does not know
      refine iff_of_false ?_ (fun h => by cases h.1)
      rintro ⟨⟨pv, hpv, -, -, ⟨pv', rest, hdecode⟩, -⟩, -⟩
      obtain rfl : c₁.refusal value = pv := (List.cons.inj (hsends.symm.trans hpv)).1
      have hrefusal : c₁.refusal value = .v311Connack (V311.connackPacket false value) := by
        rw [refusal, hver₁, hver]
        rfl
      rw [hrefusal] at hdecode
      cases (decode_connackPacket hvalue pb).symm.trans hdecode
    | v5 =>
      have hrefusal : c₁.refusal value = .v5Connack (V5.connackOf false value) := by
        rw [refusal, hver₁, hver]
        rfl
      have hstored : c₁.storedFit c₁.maximumPacketSizeSend = [] ↔
          ∀ e ∈ c.store.elems, c.maximumPacketSizeSend < e.size := by
        rw [hc₁]
        simp [storedFit, List.filter_eq_nil_iff]
      have hsize : 5 ≤ c.maximumPacketSizeSend := by
        have hle := hfits.2
        rw [hrefusal, hc₁] at hle
        exact hle
      constructor
      · rintro ⟨⟨pv, hpv, -⟩, -⟩
        exact ⟨rfl, hsize, hstored.mp (List.cons.inj (hsends.symm.trans hpv)).2⟩
      · rintro ⟨-, -, hlarge⟩
        rw [hstored.mpr hlarge] at hsends
        refine ⟨⟨_, hsends, c₁.refusal_type value, ?_, ?_, ?_⟩, ?_⟩
        · intro ver hspoken
          rw [spokenVersion, hver] at hspoken
          rw [hrefusal]
          exact Option.some.inj hspoken
        · rw [hrefusal]
          exact ⟨_, _, decode_connackOf hvalue pb⟩
        · rw [hrefusal]
          exact hcode
        · rw [hs, Step.conn_emit]
          exact hstopped
  · next hfits =>
    refine iff_of_false (fun h => h.sends_ne_nil (hsends.trans hsent)) ?_
    rintro ⟨hver, hsize, -⟩
    apply hfits
    have hrefusal : c₁.refusal value = .v5Connack (V5.connackOf false value) := by
      rw [refusal, hver₁, hver]
      rfl
    rw [hrefusal, hver₁, hver, hc₁]
    exact ⟨by rintro ⟨⟩, hsize⟩

/-- A server that is disconnected answers and refuses a CONNECT that it cannot decode just
    when it speaks v5.0, the error is a connect reason code, the frame and the answer are
    not too large, and no stored packet would follow the answer. -/
theorem connect_refused_iff {c : Connection role pb} {is : List UInt8} {frame : Buffer}
    {ec : ErrorCode} (hrole : canSendAsServer role) (hstatus : c.status = .disconnected)
    (hframe : (c.rpb.recv is).2.1 = some (.packet frame)) (hconnect : isConnectFrame frame)
    (hrejected : (bufferToPacketVariant pb c.protocolVersion).run frame = .error (.error ec)) :
    c.RefusesConnect frame (c.recv is).1 ↔
      c.protocolVersion = .v5 ∧ ec.category = .connectReasonCode ∧
        frame.length ≤ c.maximumPacketSizeRecv ∧ 5 ≤ c.maximumPacketSizeSend ∧
        ∀ e ∈ c.store.elems, c.maximumPacketSizeSend < e.size := by
  have hec := connectError_of_decode hconnect hrejected
  obtain ⟨c₀, hc₀⟩ : ∃ c₀ : Connection role pb, c₀ = { c with rpb := (c.rpb.recv is).1 } := ⟨_, rfl⟩
  have hstatus₀ : c₀.status = .disconnected := by rw [hc₀, ← hstatus]
  have hrefuses₀ : ∀ s, c.RefusesConnect frame s ↔ c₀.RefusesConnect frame s := by
    intro s
    rw [hc₀]
    rfl
  rw [recv_of_rejected hc₀ hframe hrejected]
  split
  -- a packet that is too large is answered with a DISCONNECT, which is not sent while disconnected
  · next hlarge =>
    refine iff_of_false (fun h => h.sends_ne_nil (sends_disconnectV5 hstatus₀ _)) ?_
    rintro ⟨-, -, hle, -⟩
    omega
  · next hlarge =>
    have hle : frame.length ≤ c.maximumPacketSizeRecv := by omega
    by_cases hcategory : ec.category = .connectReasonCode
    · rw [hrefuses₀, processRecvError_refuses_iff hrole hstatus₀ hcategory hec, hc₀]
      simp only [hcategory, hle, true_and]
    · -- the connection is closed without an answer
      refine iff_of_false (fun h => h.sends_ne_nil ?_) (fun h => hcategory h.2.1)
      have hnot : ¬ (c₀.status = .connected ∧ c₀.protocolVersion = .v5) := by
        rw [hstatus₀]
        exact fun h => nomatch h.1
      rw [processRecvError, if_neg fun h => hcategory h.2, if_neg hnot]
      rfl

/-- A v5.0 server that gets a CONNECT with the level of v3.1.1 refuses it. -/
theorem connect_refused_level :
    (make .server .two .v5).RefusesConnect
      [0x10, 0x0c, 0, 4, 0x4d, 0x51, 0x54, 0x54, 4, 2, 0, 0, 0, 0]
      ((make .server .two .v5).recv
        [0x10, 0x0c, 0, 4, 0x4d, 0x51, 0x54, 0x54, 4, 2, 0, 0, 0, 0]).1 :=
  (@connect_refused_iff .server .two _ _ _
    (.connect ConnectReasonCode.unsupportedProtocolVersion) rfl rfl rfl rfl rfl).mpr
    ⟨rfl, rfl, by decide, by decide, nofun⟩

/-- Bad CONNECTs that are not refused: of level 5 on a v3.1.1 server, of level 3 on one
    whose version is undetermined, and with Receive Maximum 0 on a v5.0 server. -/
theorem connect_not_refused :
    (¬ (make .server .two .v311).RefusesConnect
      [0x10, 0x0c, 0, 4, 0x4d, 0x51, 0x54, 0x54, 5, 2, 0, 0, 0, 0]
      ((make .server .two .v311).recv
        [0x10, 0x0c, 0, 4, 0x4d, 0x51, 0x54, 0x54, 5, 2, 0, 0, 0, 0]).1) ∧
    (¬ (make .server .two .undetermined).RefusesConnect
      [0x10, 0x0c, 0, 4, 0x4d, 0x51, 0x54, 0x54, 3, 2, 0, 0, 0, 0]
      ((make .server .two .undetermined).recv
        [0x10, 0x0c, 0, 4, 0x4d, 0x51, 0x54, 0x54, 3, 2, 0, 0, 0, 0]).1) ∧
    ¬ (make .server .two .v5).RefusesConnect
      [0x10, 0x10, 0, 4, 0x4d, 0x51, 0x54, 0x54, 5, 2, 0, 0, 3, 0x21, 0, 0, 0, 0]
      ((make .server .two .v5).recv
        [0x10, 0x10, 0, 4, 0x4d, 0x51, 0x54, 0x54, 5, 2, 0, 0, 3, 0x21, 0, 0, 0, 0]).1 := by
  refine ⟨?_, fun h => h.sends_ne_nil rfl, fun h => h.sends_ne_nil rfl⟩
  rintro ⟨⟨pv, hpv, -, -, ⟨pv', rest, hdecode⟩, -⟩, -⟩
  obtain rfl : PacketVariant.v311Connack
      (V311.connackPacket false ConnectReasonCode.unsupportedProtocolVersion) = pv :=
    (List.cons.inj hpv).1
  exact nomatch (decode_connackPacket (.inr rfl) .two).symm.trans hdecode

end Connection

end AsyncMqtt
