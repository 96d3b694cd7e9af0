import AsyncMqtt.Spec.RoundTripV5

/-!
# v5.0 with four-byte packet identifiers

The packets that carry a packet identifier, with `PacketIdBytes` 4. Nothing changes for most of
them. The decoders of PUBACK, PUBREC, PUBREL and PUBCOMP compare the remaining length with 3 to see
that there are no properties; here a packet with a reason code and no properties has 5, and the
decoder goes on to a property length that is not there.

## Key results

- `V5.IdCall.round_trip_iff_four`: the constructor calls whose packet comes back
-/

namespace AsyncMqtt

namespace V5

/-- A v5.0 packet with a four-byte packet identifier comes back from the wire as itself exactly for
    the calls that `IdCall.RoundTrips` describes. -/
theorem IdCall.round_trip_iff_four (c : IdCall .four) (v : PacketVariant .four)
    (h : c.build = .ok v) (hlen : v.remainingLength ≤ 268435455) (hentries : v.HasEntries)
    (hprops : v.PropsRoundTrip) : v.RoundTrips .v5 ↔ c.RoundTrips :=
  c.roundTrips_iff h hlen hentries hprops

/-- A PUBREC with a reason code and a user property meets the condition. -/
theorem pubrec_with_user_property_round_trip :
    ∃ v : PacketVariant .four, IdCall.build (.pubrec ⟨1, by decide⟩
        (.codeProps 0x10 [.user [0, 1] [0x61] [0, 1] [0x62]])) = .ok v ∧ v.RoundTrips .v5 := by
  refine ⟨_, rfl, ?_⟩
  refine (IdCall.round_trip_iff_four (.pubrec ⟨1, by decide⟩
    (.codeProps 0x10 [.user [0, 1] [0x61] [0, 1] [0x62]])) _ rfl (by decide) trivial ?_).mpr ?_
  · intro x hx
    obtain rfl := List.mem_singleton.mp hx
    show (makeProperties .pubrec).run [38, 0, 1, 0x61, 0, 1, 0x62] =
      .ok ([.user [0, 1] [0x61] [0, 1] [0x62]], [])
    decide
  · refine ⟨?_, fun hbare => nomatch hbare.2⟩
    rintro c ⟨⟩
    decide

/-- A PUBACK with the reason code 0 and no properties is not decoded. -/
theorem puback_bare_code_not_decoded :
    ¬ ∀ (c : IdCall .four) (v : PacketVariant .four), c.build = .ok v →
      v.remainingLength ≤ 268435455 → v.HasEntries → v.PropsRoundTrip → v.RoundTrips .v5 := by
  intro h
  have hround := h (.puback ⟨1, by decide⟩ (.code 0)) _ rfl (by decide) trivial (by
    intro x hx
    obtain rfl := List.mem_singleton.mp hx
    rfl)
  obtain ⟨q, rest, hrun, -⟩ := hround
  exact nomatch hrun

end V5

end AsyncMqtt
