import AsyncMqtt.Spec.FramingCorrect
import AsyncMqtt.Spec.RecvCases
import AsyncMqtt.Spec.SendCases

/-!
# Receiving does not depend on chunking

The bytes of a stream reach `recv` in chunks. The packet builder hands over the same
frames for every cutting, and since nothing but `recv` touches the builder of a
connection, the connection makes the same calls and ends in the same state.

## Key results

- `Connection.call_rpb`: only `recv` changes the packet builder
- `Connection.take_eq_push`: a call of `recv` does what its bytes do one by one
- `Connection.recv_independent_of_chunks`: the result for every cutting
-/

namespace AsyncMqtt

open Chunked

namespace Connection

variable {role : Role} {pb : PacketIdBytes}

/-! ### The packet builder of a connection -/

theorem Quiet.rpb {c c' : Connection role pb} (h : Quiet c c') : c'.rpb = c.rpb := by
  obtain ⟨_, _, _, _, _, -, rfl⟩ := h
  rfl

theorem PublishOutcome.rpb {c : Connection role pb} {pv : PacketVariant pb} {r : Sent role pb}
    (h : PublishOutcome c pv r) : r.step.conn.rpb = c.rpb := by
  cases h with
  | stopped _ hs =>
    obtain ⟨tas, m, hconn, -, -⟩ := hs.conn
    rw [hconn]
  | plain _ pv' _ _ _ _ hconn => rw [hconn]
  | failed _ ec hc₁ hr =>
    have hrpb : (c.publishEntered pv).rpb = c.rpb := by rw [publishEntered_eq]
    obtain ⟨m, hm, -⟩ := failRelease_conn _ ec pv.packetId
    rw [hr, hm, hc₁]
    exact hrpb
  | entered _ _ pv' _ _ _ _ hconn => rw [hconn, publishEntered_eq]

theorem sendStored_rpb (c : Connection role pb) : c.sendStored.conn.rpb = c.rpb := by
  rw [sendStored_conn]

theorem send_rpb (pv : PacketVariant pb) (c : Connection role pb) :
    (c.send pv).conn.rpb = c.rpb := by
  cases send_cases pv c with
  | quiet h => exact h.1.rpb
  | tooLarge _ _ _ _ hconn => rw [hconn]
  | connect _ _ _ _ hc₁ hconn => rw [hconn.rpb, hc₁]
  | connack _ _ _ _ hc₁ hconn => rw [hconn.rpb, sendStored_rpb, hc₁]
  | pubrecRefused _ _ hconn => exact hconn.rpb
  | pubrel _ _ _ _ _ hconn => exact hconn.rpb
  | subscribe _ _ hconn => exact hconn.rpb
  | unsubscribe _ _ hconn => exact hconn.rpb
  | publish _ _ h hconn => rw [hconn.rpb, h.rpb]

theorem resumeSession_rpb (sessionPresent : Bool) (c : Connection role pb) :
    (c.resumeSession sessionPresent).conn.rpb = c.rpb := by
  unfold resumeSession
  split
  · exact c.sendStored_rpb
  · rfl

theorem RecvOutcome.rpb {c : Connection role pb} {pv : PacketVariant pb} {s : Step role pb}
    (h : RecvOutcome c pv s) : s.conn.rpb = c.rpb := by
  cases h with
  | quiet h => exact h.1.rpb
  | connect _ _ _ _ hconn => rw [hconn]
  | connack _ _ _ hc₁ hconn => rw [hconn, resumeSession_rpb, hc₁]
  | publish _ hconn => exact hconn.rpb
  | publishDelivered _ _ _ hconn => exact hconn.rpb
  | publishRejected _ _ _ _ _ _ hconn => exact hconn.rpb
  | puback _ _ _ hconn => rw [hconn]
  | pubrecFailed _ _ _ _ hconn => rw [hconn]
  | pubrec _ _ _ _ hc₁ hr hconn =>
    rw [hconn, hr, respondIf]
    split
    · exact (send_rpb _ _).trans (by rw [hc₁])
    · rw [hc₁]
  | pubrel _ hconn => exact hconn.rpb
  | pubcomp _ _ _ hconn => rw [hconn]
  | suback _ _ hconn => rw [hconn]
  | unsuback _ _ hconn => rw [hconn]

/-- The builder after `recv` is the one that took the bytes. -/
theorem recv_rpb (is : List UInt8) (c : Connection role pb) :
    (c.recv is).1.conn.rpb = (c.rpb.recv is).1 := by
  rcases recv_cases is (c := c) rfl with h | ⟨pv, -, h⟩ | ⟨value, c₁, -, -, hc₁, hs⟩
  · exact h.1.rpb
  · exact h.rpb
  · rw [hs, Step.conn_emit, send_rpb, hc₁]

/-- The packet builder belongs to `recv`. -/
theorem call_rpb (op : Op pb) (c : Connection role pb) :
    (c.call op).conn.rpb = match op with
      | .recv is => (c.rpb.recv is).1
      | _ => c.rpb := by
  cases op with
  | recv is => exact recv_rpb is c
  | send pv => exact send_rpb pv c
  | notifyTimerFired kind => exact (notifyTimerFired_quiet kind c).1.rpb
  | notifyClosed => rw [call, notifyClosed_conn]
  | restorePackets pvs =>
    obtain ⟨m, st, a, b, d, heq⟩ := c.restorePackets_eq pvs
    rw [call, heq]
  | releasePacketId packetId => rw [call, releasePacketId_conn]
  | setPingreqSendInterval duration =>
    rw [call, setPingreqSendInterval]
    split <;> rfl
  | _ => rfl

theorem Reachable.wellFormed {c : Connection role pb} (h : c.Reachable) : c.rpb.WellFormed := by
  refine h.induction (P := fun c => c.rpb.WellFormed)
    (fun _ => RecvPacketBuilder.wellFormed_initialized) fun c op h => ?_
  rw [call_rpb]
  split
  · exact h.recv _
  · exact h

/-! ### One byte at a time -/

/-- A call of `recv`: the state and the calls it makes, and what is left of the stream. -/
def take (c : Connection role pb) (is : List UInt8) :
    (Connection role pb × List (Event pb)) × List UInt8 :=
  (((c.recv is).1.conn, (c.recv is).1.events), (c.recv is).2)

/-- What a connection does with one byte. -/
def push (c : Connection role pb) (byte : UInt8) : Connection role pb × List (Event pb) :=
  (c.take [byte]).1

theorem recv_cons {c : Connection role pb} (h : c.rpb.WellFormed) (byte : UInt8)
    (is : List UInt8) :
    c.take (byte :: is) =
      match (c.rpb.recv [byte]).2.1 with
      | none => ((c.push byte).1.take is)
      | some _ => (c.push byte, is) := by
  have hcons := RecvPacketBuilder.recv_cons h byte is
  unfold take push take recv
  rcases hone : c.rpb.recv [byte] with ⟨rpb, out, rest⟩
  rw [hone] at hcons
  cases out with
  | none =>
    simp only at hcons ⊢
    rw [hcons]
  | some ep =>
    simp only at hcons ⊢
    rw [hcons]

/-- A byte that completes no frame makes no calls. -/
theorem push_events {c : Connection role pb} {byte : UInt8}
    (h : (c.rpb.recv [byte]).2.1 = none) : (c.push byte).2 = [] := by
  unfold push take recv
  rcases hone : c.rpb.recv [byte] with ⟨rpb, out, rest⟩
  rw [hone] at h
  cases h
  rfl

/-- A call of `recv` takes at least one byte and stops at the first frame; it does what
    its bytes do one by one. -/
theorem take_eq_push {c : Connection role pb} (h : c.rpb.WellFormed) {is : List UInt8}
    (hne : is ≠ []) :
    ∃ used rest, is = used ++ rest ∧ used ≠ [] ∧ c.take is = (feed push c used, rest) ∧
      ∀ k < used.length, (feed RecvPacketBuilder.push c.rpb (used.take k)).2 = [] := by
  have hfirst (rpb : RecvPacketBuilder) (byte : UInt8) : ∀ k < [byte].length,
      (feed RecvPacketBuilder.push rpb ([byte].take k)).2 = [] := by
    intro k hk
    obtain rfl : k = 0 := Nat.lt_one_iff.mp hk
    rfl
  -- the induction is on the bytes: the first one ends the packet, or it is pushed and the rest is
  -- taken
  induction is generalizing c with
  | nil => exact absurd rfl hne
  | cons byte is ih =>
    have hpush : (c.push byte).1.rpb = (c.rpb.push byte).1 := recv_rpb [byte] c
    have hcons := recv_cons h byte is
    cases hout : (c.rpb.recv [byte]).2.1 with
    | some ep =>
      rw [hout] at hcons
      refine ⟨[byte], is, rfl, List.cons_ne_nil _ _, ?_, hfirst c.rpb byte⟩
      rw [hcons, feed, feed, List.append_nil]
    | none =>
      rw [hout] at hcons
      -- the last byte is in the builder
      by_cases his : is = []
      · subst his
        refine ⟨[byte], [], rfl, List.cons_ne_nil _ _, ?_, hfirst c.rpb byte⟩
        rw [hcons, feed, feed, List.append_nil, push_events hout]
        rfl
      · obtain ⟨used, rest, hsplit, hused, htake, hrest⟩ :=
          ih (by rw [hpush]; exact RecvPacketBuilder.push_wellFormed h byte) his
        refine ⟨byte :: used, rest, by rw [hsplit]; rfl, List.cons_ne_nil _ _, ?_, ?_⟩
        · rw [hcons, feed, push_events hout]
          exact htake
        -- no packet has ended before the last byte used
        · intro k hk
          cases k with
          | zero => rfl
          | succ k =>
            have hnone : (c.rpb.push byte).2 = [] := congrArg Option.toList hout
            rw [List.take_succ_cons, feed, hnone, ← hpush]
            exact hrest k (Nat.lt_of_succ_lt_succ hk)

theorem push_wellFormed {c : Connection role pb} (h : c.rpb.WellFormed) (byte : UInt8) :
    (c.push byte).1.rpb.WellFormed := by
  have hpush : (c.push byte).1.rpb = (c.rpb.push byte).1 := recv_rpb [byte] c
  rw [hpush]
  exact RecvPacketBuilder.push_wellFormed h byte

/-- Chunks that are used up in turn do what their bytes do one by one. -/
theorem drainChunks_eq_push {c : Connection role pb} (h : c.rpb.WellFormed)
    (chunks : List (List UInt8)) : drainChunks take c chunks = feed push c chunks.flatten := by
  refine drainChunks_eq_feed (P := fun c => c.rpb.WellFormed)
    (fun _ byte h => push_wellFormed h byte) (fun c is h hne => ?_) h chunks
  obtain ⟨used, rest, hsplit, hused, htake, -⟩ := take_eq_push h hne
  exact ⟨used, rest, hsplit, hused, htake⟩

end Connection

namespace RecvPacketBuilder

/-- A call of `recv`: the builder, what it hands over and what is left of the stream. -/
def take (rpb : RecvPacketBuilder) (is : List UInt8) :
    (RecvPacketBuilder × List ErrorPacket) × List UInt8 :=
  (((rpb.recv is).1, (rpb.recv is).2.1.toList), (rpb.recv is).2.2)

/-- Reads that are used up in turn do what their bytes do one by one. -/
theorem drainChunks_eq_push (chunks : List (List UInt8)) :
    drainChunks take initialized chunks = feed push initialized chunks.flatten := by
  refine drainChunks_eq_feed (P := WellFormed) (fun _ byte h => push_wellFormed h byte)
    (fun rpb is h hne => ?_) wellFormed_initialized chunks
  obtain ⟨used, rest, out, hsplit, hused, hrecv, hout, -⟩ := recv_eq_push h hne
  refine ⟨used, rest, hsplit, hused, ?_⟩
  rw [take, hrecv, ← hout]

/-- The builder hands over the frames of the whole stream. -/
theorem drainChunks_eq_frames (chunks : List (List UInt8)) :
    (drainChunks take initialized chunks).2 = Framing.frames chunks.flatten := by
  rw [drainChunks_eq_push, Framing.feed_eq_frames]

end RecvPacketBuilder

namespace Connection

variable {role : Role} {pb : PacketIdBytes}

/-- Receiving does not depend on how the stream is cut: the packet builder hands over the
    frames of the reference, any two cuttings lead to the same calls and the same state,
    and each call of `recv` takes at least one byte, none after the first frame that it
    completes, and finds room in the header buffer for every byte that it puts there. -/
theorem recv_independent_of_chunks (c : Connection role pb) (hc : c.Reachable) :
    (∀ chunks, (drainChunks RecvPacketBuilder.take .initialized chunks).2 =
      Framing.frames chunks.flatten) ∧
    (∀ chunks chunks', chunks.flatten = chunks'.flatten →
      drainChunks take c chunks = drainChunks take c chunks') ∧
    ∀ is, is ≠ [] → ∃ used rest, is = used ++ rest ∧ used ≠ [] ∧ (c.recv is).2 = rest ∧
      (∀ k < used.length, (feed RecvPacketBuilder.push c.rpb (used.take k)).2 = []) ∧
      ∀ k, let rpb := (feed RecvPacketBuilder.push c.rpb (used.take k)).1
        rpb.headerRemainingLengthBuf.length ≤ 5 ∧
        (rpb.readState ≠ .payload → rpb.headerRemainingLengthBuf.length < 5) := by
  have h := hc.wellFormed
  refine ⟨RecvPacketBuilder.drainChunks_eq_frames, fun chunks chunks' heq => ?_, fun is hne => ?_⟩
  · rw [drainChunks_eq_push h, drainChunks_eq_push h, heq]
  · obtain ⟨used, rest, hsplit, hused, htake, hfirst⟩ := take_eq_push h hne
    refine ⟨used, rest, hsplit, hused, congrArg Prod.snd htake, hfirst, fun k => ?_⟩
    have hk := h.feed (used.take k)
    exact ⟨hk.header_le, hk.header_lt⟩

/-- A PINGREQ in two chunks, followed by a length of four bytes that all continue. -/
theorem recv_independent_of_chunks_pingreq :
    drainChunks take (make .server .two .v311) [[0xC0], [0x00, 0x10, 0x80, 0x80], [0x80, 0x80]] =
      drainChunks take (make .server .two .v311) [[0xC0, 0x00, 0x10, 0x80, 0x80, 0x80, 0x80]] :=
  (recv_independent_of_chunks _ ⟨.v311, [], rfl⟩).2.1 _ _ rfl

end Connection

end AsyncMqtt
