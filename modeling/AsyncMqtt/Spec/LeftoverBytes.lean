import AsyncMqtt.Spec.ChunkingCorrect
import AsyncMqtt.Spec.RecvSignals

/-!
# Bytes that are left over when a connection ends

`notify_closed` leaves the packet builder alone. If the old network connection broke in the
middle of a packet, the bytes of this packet are still there, and the first packet of the
new one begins with them.

## Key results

- `RecvPacketBuilder.Holds`: the builder is determined by the bytes that it holds
- `Connection.leftover_bytes`: what the next connection sees of them
- `Connection.connect_misread`: a CONNECT that is refused because of one such byte
-/

namespace AsyncMqtt

open Chunked

namespace RecvPacketBuilder

/-- The bytes of the packet that is not complete yet. -/
def unfinished (rpb : RecvPacketBuilder) : List UInt8 :=
  match rpb.readState with
  | .payload => rpb.rawBuf
  | _ => rpb.headerRemainingLengthBuf

/-- A byte that completes nothing is kept. -/
theorem unfinished_push {rpb : RecvPacketBuilder} (h : rpb.WellFormed) {byte : UInt8}
    (hnone : (rpb.push byte).2 = []) :
    (rpb.push byte).1.unfinished = rpb.unfinished ++ [byte] := by
  have hout : (rpb.recv [byte]).2.1 = none := by
    cases hout : (rpb.recv [byte]).2.1 with
    | none => rfl
    | some ep =>
      rw [push, hout] at hnone
      cases hnone
  show (rpb.recv [byte]).1.unfinished = _
  unfold recv at hout ⊢
  -- the byte is read in one of the three states, and none of them is at its end
  cases hread : rpb.readState with
  | fixedHeader =>
    rw [h.fixedHeader hread]
    rfl
  | remainingLength =>
    simp only [hread] at hout ⊢
    split
    · split
      · next hend hzero =>
        rw [if_pos hend, if_pos hzero] at hout
        cases hout
      · simp [recv, unfinished, hread]
    · split
      · next hcont hlast =>
        rw [if_neg hcont, if_pos hlast] at hout
        cases hout
      · simp [recv, unfinished, hread]
  | payload =>
    obtain ⟨hpos, -⟩ := h.payload hread
    have htake : [byte].take rpb.remainingLength = [byte] :=
      List.take_of_length_le (by simp only [List.length_singleton]; omega)
    simp only [hread] at hout ⊢
    split
    · next hlast =>
      rw [if_pos hlast] at hout
      cases hout
    · simp [unfinished, hread, htake]

theorem unfinished_feed {rpb : RecvPacketBuilder} (h : rpb.WellFormed) {bytes : List UInt8}
    (hnone : (feed push rpb bytes).2 = []) :
    (feed push rpb bytes).1.unfinished = rpb.unfinished ++ bytes := by
  induction bytes generalizing rpb with
  | nil => exact (List.append_nil _).symm
  | cons byte bytes ih =>
    rw [feed] at hnone
    obtain ⟨hbyte, hbytes⟩ := List.append_eq_nil_iff.mp hnone
    rw [feed, ih (push_wellFormed h byte) hbytes, unfinished_push h hbyte, List.append_assoc]
    rfl

/-- After a frame or an error the builder is as it was at the beginning. -/
theorem push_complete {rpb : RecvPacketBuilder} {byte : UInt8} (h : (rpb.push byte).2 ≠ []) :
    (rpb.push byte).1 = initialized := by
  have hout : (rpb.recv [byte]).2.1 ≠ none := by
    intro hout
    rw [push, hout] at h
    exact h rfl
  show (rpb.recv [byte]).1 = initialized
  unfold recv at hout ⊢
  -- a packet ends with a length of zero, with a length that is too large, or with its payload
  cases hread : rpb.readState with
  | fixedHeader =>
    rw [hread] at hout
    exact absurd rfl hout
  | remainingLength =>
    simp only [hread] at hout ⊢
    split
    · next hend =>
      rw [if_pos hend] at hout
      split
      · rfl
      · next hne =>
        rw [if_neg hne] at hout
        exact absurd rfl hout
    · next hcont =>
      rw [if_neg hcont] at hout
      split
      · rfl
      · next hne =>
        rw [if_neg hne] at hout
        exact absurd rfl hout
  | payload =>
    simp only [hread] at hout ⊢
    split
    · rfl
    · next hne =>
      rw [if_neg hne] at hout
      exact absurd rfl hout

/-- The builder holds a packet that is not complete, and nothing else: its bytes lead from
    the initial state to this one. -/
structure Holds (rpb : RecvPacketBuilder) : Prop where
  wellFormed : rpb.WellFormed
  refeed : feed push initialized rpb.unfinished = (rpb, [])

theorem holds_initialized : Holds initialized := ⟨wellFormed_initialized, rfl⟩

theorem Holds.push {rpb : RecvPacketBuilder} (h : rpb.Holds) (byte : UInt8) :
    (rpb.push byte).1.Holds := by
  by_cases hnone : (rpb.push byte).2 = []
  · refine ⟨push_wellFormed h.wellFormed byte, ?_⟩
    rw [unfinished_push h.wellFormed hnone, feed_append, h.refeed, feed, feed, hnone]
    rfl
  · rw [push_complete hnone]
    exact holds_initialized

theorem Holds.recv {rpb : RecvPacketBuilder} (h : rpb.Holds) (is : List UInt8) :
    (rpb.recv is).1.Holds := by
  by_cases hne : is = []
  · subst hne
    exact h
  · obtain ⟨used, rest, out, -, -, hrecv, -⟩ := recv_eq_push h.wellFormed hne
    rw [hrecv]
    exact feed_invariant (P := Holds) (fun _ byte h => h.push byte) h used

/-- A call that completes nothing takes all bytes. -/
theorem recv_unfinished {rpb : RecvPacketBuilder} (h : rpb.WellFormed) {is : List UInt8}
    (hnone : (rpb.recv is).2.1 = none) : feed push rpb is = ((rpb.recv is).1, []) := by
  by_cases hne : is = []
  · subst hne
    rfl
  · obtain ⟨used, rest, out, hsplit, -, hrecv, hout, hrest, -⟩ := recv_eq_push h hne
    rw [hrecv] at hnone ⊢
    obtain rfl : out = none := hnone
    obtain rfl := hrest rfl
    rw [List.append_nil] at hsplit
    subst hsplit
    exact Prod.ext rfl hout

/-- What the builder hands over goes on from the bytes that it holds. -/
theorem Holds.feed_frames {rpb : RecvPacketBuilder} (h : rpb.Holds) (bytes : List UInt8) :
    (feed RecvPacketBuilder.push rpb bytes).2 = Framing.frames (rpb.unfinished ++ bytes) := by
  rw [← Framing.feed_eq_frames, feed_append, h.refeed, List.nil_append]

end RecvPacketBuilder

namespace Connection

variable {role : Role} {pb : PacketIdBytes}

theorem Reachable.holds {c : Connection role pb} (h : c.Reachable) : c.rpb.Holds := by
  refine h.induction (P := fun c => c.rpb.Holds)
    (fun _ => RecvPacketBuilder.holds_initialized) fun c op h => ?_
  rw [call_rpb]
  split
  · exact h.recv _
  · exact h

/-- A call of `recv` that completes nothing changes the builder only. -/
theorem recv_unfinished {c : Connection role pb} {is : List UInt8}
    (hnone : (c.rpb.recv is).2.1 = none) :
    (c.recv is).1 = ⟨{ c with rpb := (c.rpb.recv is).1 }, []⟩ := by
  unfold recv
  rcases hrecv : c.rpb.recv is with ⟨rpb, out, rest⟩
  rw [hrecv] at hnone
  obtain rfl : out = none := hnone
  rfl

/-- What a sequence of calls leads to, and the calls that it makes to the owner. -/
def observed (c : Connection role pb) (ops : List (Op pb)) : Connection role pb × List (Event pb) :=
  (c.run ops, Run.trace next (fun c op => (c.call op).events) c ops)

/-- Two ends of a network connection that differ in the bytes of a packet that is not
    complete: the state after `notify_closed` differs in the builder only, what is received
    afterwards is read as the rest of that packet, and everything is the same from then on
    exactly if the bytes were the same. -/
theorem leftover_bytes (c : Connection role pb) (hc : c.Reachable) (tail tail' : List UInt8)
    (htail : (c.rpb.recv tail).2.1 = none) (htail' : (c.rpb.recv tail').2.1 = none) :
    let a := (c.recv tail).1.conn.notifyClosed
    let b := (c.recv tail').1.conn.notifyClosed
    b.conn = { a.conn with rpb := b.conn.rpb } ∧
    (∀ bytes, (feed RecvPacketBuilder.push a.conn.rpb bytes).2 =
      Framing.frames (c.rpb.unfinished ++ tail ++ bytes)) ∧
    ((a.events = b.events ∧ ∀ ops, a.conn.observed ops = b.conn.observed ops) ↔ tail = tail') := by
  intro a b
  -- the builder is not touched by the end of the connection
  have hrpb : ∀ is, (c.recv is).1.conn.notifyClosed.conn.rpb = (c.rpb.recv is).1 := by
    intro is
    rw [notifyClosed_conn]
    exact recv_rpb is c
  -- the bytes of an unfinished packet are all in the builder
  have hunfinished : ∀ {is}, (c.rpb.recv is).2.1 = none →
      (c.rpb.recv is).1.unfinished = c.rpb.unfinished ++ is := by
    intro is hnone
    have hfeed := RecvPacketBuilder.recv_unfinished hc.wellFormed hnone
    have happend := RecvPacketBuilder.unfinished_feed hc.wellFormed (congrArg Prod.snd hfeed)
    rwa [hfeed] at happend
  -- the two states differ in their builders only
  refine ⟨?_, fun bytes => ?_, fun h => ?_, fun h => ?_⟩
  · show (c.recv tail').1.conn.notifyClosed.conn = _
    simp only [a, b, notifyClosed_conn, recv_unfinished htail, recv_unfinished htail']
  · rw [show a.conn.rpb = (c.rpb.recv tail).1 from hrpb tail, (hc.holds.recv tail).feed_frames,
      hunfinished htail]
  · -- the builder is a part of the state
    have hstate : a.conn = b.conn := congrArg Prod.fst (h.2 [])
    have hsame : (c.rpb.recv tail).1 = (c.rpb.recv tail').1 := by
      rw [← hrpb tail, ← hrpb tail']
      exact congrArg rpb hstate
    have hleft := congrArg RecvPacketBuilder.unfinished hsame
    rw [hunfinished htail, hunfinished htail'] at hleft
    exact List.append_cancel_left hleft
  · subst h
    exact ⟨rfl, fun _ => rfl⟩

/-- A server has got the first byte of a packet, and none. -/
theorem leftover_bytes_one :
    let c := make .server .two .v311
    ¬ ((c.recv [0x30]).1.conn.notifyClosed.events = (c.recv []).1.conn.notifyClosed.events ∧
      ∀ ops, (c.recv [0x30]).1.conn.notifyClosed.conn.observed ops =
        (c.recv []).1.conn.notifyClosed.conn.observed ops) := by
  intro c h
  have heq := (leftover_bytes c ⟨.v311, [], rfl⟩ [0x30] [] rfl rfl).2.2.mp h
  exact nomatch heq

/-- The peer breaks off after one byte. The CONNECT of the next connection is not received:
    it is taken for a part of that packet. -/
theorem connect_misread :
    let connect : List UInt8 := [0x10, 0x0C, 0, 4, 0x4D, 0x51, 0x54, 0x54, 4, 2, 0, 10, 0, 0]
    let c := make .server .two .v311
    (receives ((c.recv []).1.conn.notifyClosed.conn.recv connect).1.events).map (·.type) =
      [.connect] ∧
    ((c.recv [0x30]).1.conn.notifyClosed.conn.recv connect).1.events = [] := by
  decide

end Connection

end AsyncMqtt
