import AsyncMqtt.Spec.PropertyDecode
import AsyncMqtt.Spec.RecvCases

/-!
# What a received packet can be

The decoder of a connection with a protocol version gives packets of that version only,
and a receive maximum has two bytes.

## Key results

- `Connection.received_version`: the version of a received packet
- `Connection.received_props`: what holds of the properties of a received CONNECT or CONNACK
-/

namespace AsyncMqtt

open ByteReader

variable {pb : PacketIdBytes}

/-! ### Version -/

theorem decodeV311_version {cpt : ControlPacketType} {buf rest : List UInt8}
    {pv : PacketVariant pb} (h : (decodeV311 pb cpt).run buf = .ok (pv, rest)) :
    pv.version = .v311 := by
  cases cpt with
  | auth => exact nomatch h
  | _ =>
    obtain ⟨_, -, rfl⟩ := run_map_ok h
    rfl

theorem decodeV5_version {cpt : ControlPacketType} {buf rest : List UInt8}
    {pv : PacketVariant pb} (h : (decodeV5 pb cpt).run buf = .ok (pv, rest)) :
    pv.version = .v5 := by
  cases cpt with
  | _ =>
    obtain ⟨_, -, rfl⟩ := run_map_ok h
    rfl

/-- What is accepted is accepted by the decoder of a version and a control packet type; if
    the version is not determined, it is a CONNECT. -/
theorem bufferToPacketVariant_ok {ver : ProtocolVersion} {buf rest : List UInt8}
    {pv : PacketVariant pb} (h : (bufferToPacketVariant pb ver).run buf = .ok (pv, rest)) :
    ∃ cpt buf', (ver = .undetermined → cpt = .connect) ∧
      ((ver ≠ .v5 ∧ (decodeV311 pb cpt).run buf' = .ok (pv, rest)) ∨
        (ver ≠ .v311 ∧ (decodeV5 pb cpt).run buf' = .ok (pv, rest))) := by
  rw [bufferToPacketVariant] at h
  obtain ⟨_, _, -, h⟩ := run_bind_ok h
  obtain ⟨_, _, -, h⟩ := run_bind_ok h
  obtain ⟨b, buf', -, h⟩ := run_bind_ok h
  split at h
  · cases h
  · next cpt _ =>
    cases ver with
    | v311 => exact ⟨cpt, buf', by rintro ⟨⟩, .inl ⟨by rintro ⟨⟩, h⟩⟩
    | v5 => exact ⟨cpt, buf', by rintro ⟨⟩, .inr ⟨by rintro ⟨⟩, h⟩⟩
    -- an undetermined version is settled by the CONNECT itself
    | undetermined =>
      dsimp only at h
      split at h
      · rw [decodeUndeterminedConnect] at h
        obtain ⟨_, _, -, h⟩ := run_bind_ok h
        obtain ⟨_, buf'', -, h⟩ := run_bind_ok h
        split at h
        · exact ⟨.connect, buf'', fun _ => rfl, .inl ⟨by rintro ⟨⟩, h⟩⟩
        · split at h
          · exact ⟨.connect, buf'', fun _ => rfl, .inr ⟨by rintro ⟨⟩, h⟩⟩
          · cases h
      · cases h

/-! ### Receive maximum -/

/-- A receive maximum has two bytes. -/
def Property.Bounded (prop : Property) : Prop := prop.id = .receiveMaximum → prop.val < 2 ^ 16

/-- The maxima of a CONNECT and a CONNACK that have two bytes. -/
theorem makePropertyOfId_val_lt {id : PropertyId} {buf rest : List UInt8} {prop : Property}
    (h : (makePropertyOfId id).run buf = .ok (prop, rest))
    (hid : prop.id = .receiveMaximum ∨ prop.id = .topicAliasMaximum) : prop.val < 2 ^ 16 := by
  obtain rfl := makePropertyOfId_id h
  have htwo : ∃ check, (makeNBytesProperty 2 prop.id check).run buf = .ok (prop, rest) := by
    rcases hid with hid | hid
    · rw [hid] at h ⊢
      exact ⟨checkNonZero, h⟩
    · rw [hid] at h ⊢
      exact ⟨fun _ => none, h⟩
  obtain ⟨_, h⟩ := htwo
  obtain ⟨bs, -, hlen, -, heq⟩ := run_makeNBytesProperty_eq_ok.mp h
  have hval : prop.val = endianLoad bs.length bs := by rw [heq, Property.val]
  rw [hval, hlen]
  exact endianLoad_lt 2 bs

/-! What holds of every property that is made holds of the properties of a packet. -/

section

variable {P : Property → Prop}
  (hP : ∀ {id : PropertyId} {buf rest : List UInt8} {prop : Property},
    (makePropertyOfId id).run buf = .ok (prop, rest) → P prop)
include hP

theorem makePropertyVariant_forall {loc : PropertyLocation} {buf rest : List UInt8}
    {prop : Property} (h : (makePropertyVariant loc).run buf = .ok (prop, rest)) :
    P prop := by
  rw [makePropertyVariant] at h
  obtain ⟨_, _, -, h⟩ := run_bind_ok h
  obtain ⟨_, _, -, h⟩ := run_bind_ok h
  obtain ⟨_, _, -, h⟩ := run_bind_ok h
  split at h
  · cases h
  · obtain ⟨_, _, -, h⟩ := run_bind_ok h
    obtain ⟨_, _, -, h⟩ := run_bind_ok h
    exact hP h

theorem readProperties_forall {loc : PropertyLocation} {ec : ErrorCode} {buf rest : List UInt8}
    {r : Nat × Buffer × Properties} (h : (readProperties loc ec).run buf = .ok (r, rest)) :
    ∀ prop ∈ r.2.2, P prop := by
  rw [readProperties] at h
  obtain ⟨_, _, -, h⟩ := run_bind_ok h
  split at h
  · cases h
  · obtain ⟨_, _, -, h⟩ := run_bind_ok h
    obtain ⟨_, _, -, h⟩ := run_bind_ok h
    obtain ⟨_, _, -, h⟩ := run_bind_ok h
    obtain ⟨_, _, -, h⟩ := run_bind_ok h
    obtain ⟨_, _, -, h⟩ := run_bind_ok h
    obtain ⟨props, _, hprops, h⟩ := run_bind_ok h
    obtain ⟨_, _, -, h⟩ := run_bind_ok h
    cases h
    obtain ⟨-, _, hmany⟩ := run_onBuffer_ok hprops
    exact run_many_forall (fun _ _ _ => makePropertyVariant_forall hP) hmany

theorem decode_connect_forall {buf rest : List UInt8} {p : V5.ConnectPacket}
    (h : V5.ConnectPacket.decode.run buf = .ok (p, rest)) : ∀ prop ∈ p.props, P prop := by
  rw [V5.ConnectPacket.decode] at h
  obtain ⟨_, _, -, h⟩ := run_bind_ok h
  obtain ⟨_, _, -, h⟩ := run_bind_ok h
  obtain ⟨_, _, -, h⟩ := run_bind_ok h
  obtain ⟨_, _, -, h⟩ := run_bind_ok h
  obtain ⟨_, _, -, h⟩ := run_bind_ok h
  obtain ⟨_, _, -, h⟩ := run_bind_ok h
  obtain ⟨_, _, -, h⟩ := run_bind_ok h
  obtain ⟨_, _, hprops, h⟩ := run_bind_ok h
  obtain ⟨_, _, -, h⟩ := run_bind_ok h
  obtain ⟨_, _, -, h⟩ := run_bind_ok h
  obtain ⟨_, _, -, h⟩ := run_bind_ok h
  obtain ⟨_, _, -, h⟩ := run_bind_ok h
  cases h
  exact readProperties_forall hP hprops

theorem decode_connack_forall {buf rest : List UInt8} {p : V5.ConnackPacket}
    (h : V5.ConnackPacket.decode.run buf = .ok (p, rest)) : ∀ prop ∈ p.props, P prop := by
  rw [V5.ConnackPacket.decode] at h
  obtain ⟨_, _, -, h⟩ := run_bind_ok h
  obtain ⟨_, _, -, h⟩ := run_bind_ok h
  obtain ⟨_, _, -, h⟩ := run_bind_ok h
  obtain ⟨_, _, -, h⟩ := run_bind_ok h
  obtain ⟨_, _, -, h⟩ := run_bind_ok h
  obtain ⟨_, _, -, h⟩ := run_bind_ok h
  obtain ⟨_, _, -, h⟩ := run_bind_ok h
  obtain ⟨_, _, -, h⟩ := run_bind_ok h
  obtain ⟨_, _, hprops, h⟩ := run_bind_ok h
  obtain ⟨_, _, -, h⟩ := run_bind_ok h
  cases h
  exact readProperties_forall hP hprops

end

/-! ### Received packets -/

namespace Connection

variable {role : Role} {c : Connection role pb} {is : List UInt8} {pv : PacketVariant pb}

theorem received_ok (h : c.received is = some pv) :
    ∃ buf rest, (bufferToPacketVariant pb c.protocolVersion).run buf = .ok (pv, rest) := by
  unfold received at h
  split at h
  · next buf _ =>
    split at h
    · exact nomatch h
    · split at h
      · next pv' rest hrun =>
        obtain rfl := Option.some.inj h
        exact ⟨buf, rest, hrun⟩
      · exact nomatch h
  · exact nomatch h

/-- A received packet has the version of the connection, if that is determined. -/
theorem received_version (h : c.received is = some pv)
    (hver : c.protocolVersion ≠ .undetermined) : pv.version = c.protocolVersion := by
  obtain ⟨_, _, hrun⟩ := received_ok h
  obtain ⟨_, _, -, ⟨hne, hrun⟩ | ⟨hne, hrun⟩⟩ := bufferToPacketVariant_ok hrun
  · rw [decodeV311_version hrun]
    cases hc : c.protocolVersion <;> simp_all
  · rw [decodeV5_version hrun]
    cases hc : c.protocolVersion <;> simp_all

/-- Without a version only a CONNECT is received. -/
theorem received_undetermined (h : c.received is = some pv)
    (hver : c.protocolVersion = .undetermined) : pv.type = .connect := by
  obtain ⟨_, _, hrun⟩ := received_ok h
  obtain ⟨_, _, hconnect, ⟨-, hrun⟩ | ⟨-, hrun⟩⟩ := bufferToPacketVariant_ok hrun
  · obtain rfl := hconnect hver
    obtain ⟨_, -, rfl⟩ := run_map_ok hrun
    rfl
  · obtain rfl := hconnect hver
    obtain ⟨_, -, rfl⟩ := run_map_ok hrun
    rfl

/-- What holds of every property that is made holds of those of a received CONNECT or CONNACK. -/
theorem received_props {P : Property → Prop}
    (hP : ∀ {id : PropertyId} {buf rest : List UInt8} {prop : Property},
      (makePropertyOfId id).run buf = .ok (prop, rest) → P prop)
    (h : c.received is = some pv) (htype : pv.type = .connect ∨ pv.type = .connack) :
    ∀ prop ∈ pv.view.props, P prop := by
  obtain ⟨_, _, hrun⟩ := received_ok h
  obtain ⟨cpt, _, -, ⟨-, hrun⟩ | ⟨-, hrun⟩⟩ := bufferToPacketVariant_ok hrun
  -- a packet of v3.1.1 has no properties
  · have hprops : pv.view.props = [] := by
      have hver := decodeV311_version hrun
      cases pv <;> first | rfl | exact nomatch hver
    rw [hprops]
    exact nofun
  -- of the others only CONNECT and CONNACK are looked at here
  · cases cpt with
    | connect =>
      obtain ⟨_, hp, rfl⟩ := run_map_ok hrun
      exact decode_connect_forall hP hp
    | connack =>
      obtain ⟨_, hp, rfl⟩ := run_map_ok hrun
      exact decode_connack_forall hP hp
    | _ =>
      obtain ⟨_, -, rfl⟩ := run_map_ok hrun
      rcases htype with htype | htype <;> exact nomatch htype

/-- Only v5.0 has a receive maximum. -/
theorem receiveMaximum_of_v311 (h : pv.version = .v311) (init : Option Nat) :
    pv.receiveMaximum init = init := by
  cases pv <;> first | rfl | exact nomatch h

end Connection

end AsyncMqtt
