import AsyncMqtt.Spec.ExchangeBegin
import AsyncMqtt.Spec.ExchangeCalls
import AsyncMqtt.Spec.ExchangeRecv

/-!
# One direction of a line

What a party sends and the other receives, as a sender and a receiver that keep to the order
of the messages. The calls of a party and the packets that it receives are steps of the
direction in which it sends and of the one in which it receives.

## Key results

- `Connection.CallTurn.sends`, `Connection.CallTurn.hears`: a call of the application
- `Connection.RecvTurn.sends`, `Connection.RecvTurn.hears`: the receipt of a packet
- `Direction.Ordered.resume`: the stored packets are sent again
-/

namespace AsyncMqtt

open Delivery

/-- What one party keeps, and of it the other has handled, what is on the line about it in the
    one direction and in the other, and what was offered and delivered so far. -/
structure Direction where
  kept : List (Outgoing Nat Message)
  handled : Nat → Bool
  forward : List (Outgoing Nat Message)
  backward : List (Reply Nat)
  offered : List Message
  delivered : List Message

namespace Direction

/-- The direction with what no party sees of it -/
def state (d : Direction) (emitting accepting : Bool) : State Nat Message where
  kept := d.kept
  handled := d.handled
  forward := d.forward
  backward := d.backward
  offered := d.offered
  delivered := d.delivered
  emitting := emitting
  accepting := accepting

/-- The direction keeps to the order of the messages. -/
def Ordered (d : Direction) (sender receiver : Prop) : Prop :=
  ∃ emitting accepting, Follows Message.once (d.state emitting accepting) sender receiver

variable {d : Direction} {sender receiver sender' receiver' : Prop}

/-- Weaker conditions on the parties -/
theorem Ordered.change (h : d.Ordered sender receiver) (hs : sender' → sender)
    (hr : sender' ∨ d.forward ≠ [] → receiver' → receiver) : d.Ordered sender' receiver' := by
  obtain ⟨emitting, accepting, h⟩ := h
  exact ⟨emitting, accepting, h.change hs hr⟩

/-- All that is kept is sent again. -/
theorem Ordered.resume (h : d.Ordered sender receiver) (hforward : d.forward = [])
    (hbackward : d.backward = []) : { d with forward := d.kept }.Ordered sender' receiver' := by
  obtain ⟨emitting, accepting, h⟩ := h
  exact ⟨true, true, h.resume hforward hbackward⟩

/-- The line breaks. -/
theorem Ordered.cut (h : d.Ordered sender receiver) (hs : ¬ sender') :
    { d with forward := [], backward := [] }.Ordered sender' receiver' := by
  obtain ⟨emitting, accepting, h⟩ := h
  exact ⟨emitting, false, h.cut hs⟩

/-! ### What the order comes to -/

/-- The messages with QoS 2 are delivered in their order, and at most once. -/
theorem Ordered.once_prefix (h : d.Ordered sender receiver) :
    d.delivered.filter Message.once <+: d.offered.filter Message.once := by
  obtain ⟨emitting, accepting, h⟩ := h
  exact h.reachable.once_prefix

/-- What is not delivered is kept. -/
theorem Ordered.nothing_lost (h : d.Ordered sender receiver) :
    ∃ first later, d.offered = first ++ later ∧ first.Sublist d.delivered ∧
      later.Sublist (messages d.kept) := by
  obtain ⟨emitting, accepting, h⟩ := h
  exact h.reachable.nothing_lost

/-- Nothing is delivered that was not offered. -/
theorem Ordered.delivered_offered (h : d.Ordered sender receiver) {m : Message}
    (hm : m ∈ d.delivered) : m ∈ d.offered := by
  obtain ⟨emitting, accepting, h⟩ := h
  exact h.reachable.delivered_offered hm

/-- With nothing on the line all messages have been delivered. -/
theorem Ordered.all_delivered (h : d.Ordered sender receiver) (hs : sender) (hr : receiver)
    (hforward : messages d.forward = []) :
    d.offered.Sublist d.delivered ∧
      d.delivered.filter Message.once = d.offered.filter Message.once := by
  obtain ⟨emitting, accepting, h⟩ := h
  exact h.reachable.all_delivered (h.accepting (.inl hs) hr) (h.emitting hs) hforward

/-- With both ends up and nothing on the line, nothing is kept. -/
theorem Ordered.settled (h : d.Ordered sender receiver) (hs : sender) (hr : receiver)
    (hforward : d.forward = []) (hbackward : d.backward = []) : d.kept = [] := by
  obtain ⟨emitting, accepting, h⟩ := h
  exact h.settled hs hr hforward hbackward

/-- A free identifier is nowhere on the line. -/
theorem Ordered.free (h : d.Ordered sender receiver) {k : Nat} (hk : ∀ o ∈ d.kept, o.key ≠ k) :
    (∀ o ∈ d.forward, o.key ≠ k) ∧ (∀ r ∈ d.backward, r.key ≠ k) ∧ d.handled k = false := by
  obtain ⟨emitting, accepting, h⟩ := h
  exact h.reachable.free hk

/-- A reply on the line is awaited. -/
theorem Ordered.awaited (h : d.Ordered sender receiver) {r : Reply Nat} (hr : r ∈ d.backward) :
    ∃ o ∈ d.kept, o.awaits Message.once = r := by
  obtain ⟨emitting, accepting, h⟩ := h
  exact h.reachable.awaited hr

end Direction

namespace PacketVariant

variable {pb : PacketIdBytes} {pv : PacketVariant pb}

/-- No packet is both sent for a message and an answer. -/
theorem reply?_of_outgoing {o : Outgoing Nat Message} (h : pv.outgoing? = some o) :
    pv.reply? = none := by
  unfold outgoing? at h
  unfold reply?
  split at h
  · next htype => rw [htype]
  · next htype => rw [htype]
  · cases h

/-- A packet with a reply has no message. -/
theorem outgoing?_of_reply {r : Reply Nat} (h : pv.reply? = some r) : pv.outgoing? = none := by
  cases ho : pv.outgoing? with
  | none => rfl
  | some o =>
    rw [reply?_of_outgoing ho] at h
    cases h

/-- The messages of a packet and of the others -/
theorem outgoings_cons (pv : PacketVariant pb) (rest : List (PacketVariant pb)) :
    outgoings (pv :: rest) = pv.outgoing?.toList ++ outgoings rest := by
  rw [outgoings, List.filterMap_cons]
  cases pv.outgoing? <;> rfl

/-- The replies of a packet and of the others -/
theorem replies_cons (pv : PacketVariant pb) (rest : List (PacketVariant pb)) :
    replies (pv :: rest) = pv.reply?.toList ++ replies rest := by
  rw [replies, List.filterMap_cons]
  cases pv.reply? <;> rfl

end PacketVariant

namespace Connection

variable {role : Role} {pb : PacketIdBytes} {c : Connection role pb} {pv : PacketVariant pb}
  {rest : List (PacketVariant pb)} {d : Direction} {sender receiver : Prop} {t : Traffic}
  {ms : List Message}

/-! ### Calls -/

/-- A call of the application, in the direction in which the party sends -/
theorem CallTurn.sends {live : Prop} [Decidable live] (h : CallTurn c ms t)
    (hd : d.Ordered sender receiver) (hkept : d.kept = c.kept)
    (hsender : sender ↔ live ∧ c.status = .connected) :
    { d with
      kept := t.kept
      offered := d.offered ++ ms
      forward := if live then d.forward ++ t.outgoings else d.forward }.Ordered sender receiver := by
  obtain ⟨emitting, accepting, hd⟩ := hd
  cases h with
  | aside =>
    -- nothing is kept that was not kept before
    refine ⟨emitting, accepting, ?_⟩
    simp only [idle, List.append_nil, ite_self]
    rw [← hkept]
    exact hd
  -- the message is kept, and it is sent if the connection is there
  | @offer k m hfree =>
    have hsent : decide (live ∧ c.status = .connected) = true ↔ sender :=
      decide_eq_true_iff.trans hsender.symm
    have hoffer := hd.offer (hkept ▸ hfree) m hsent
    refine ⟨emitting && decide (live ∧ c.status = .connected), accepting, ?_⟩
    have hforward : (if live then
          d.forward ++ (if c.status = .connected then [Outgoing.message k m] else [])
        else d.forward) =
        if decide (live ∧ c.status = .connected) = true then d.forward ++ [.message k m]
        else d.forward := by
      by_cases hl : live <;> by_cases hs : c.status = .connected <;> simp [hl, hs]
    dsimp only
    rw [hforward, ← hkept]
    exact hoffer

/-- In the other direction nothing happens. -/
theorem CallTurn.hears (h : CallTurn c ms t) :
    t.handled = c.handled ∧ t.replies = [] ∧ t.deliveries = [] := by
  cases h <;> exact ⟨rfl, rfl, rfl⟩

/-- A call that offers nothing keeps what is kept. -/
theorem CallTurn.kept (h : CallTurn c ms t) (hms : ms = []) : t.kept = c.kept := by
  cases h with
  | aside => rfl
  | offer m hfree => cases hms

/-- Without a connection nothing is sent. -/
theorem CallTurn.silent (h : CallTurn c ms t) (hstatus : c.status ≠ .connected) :
    t.outgoings = [] ∧ t.replies = [] := by
  cases h with
  | aside => exact ⟨rfl, rfl⟩
  | offer m hfree => exact ⟨if_neg hstatus, rfl⟩

/-! ### Packets that arrive -/

/-- A packet that is received without a connection is not answered. -/
theorem RecvTurn.silent (h : RecvTurn c pv t) (hstatus : c.status ≠ .connected) :
    t.outgoings = [] ∧ t.replies = [] := by
  cases h with
  | aside ho hr => exact ⟨rfl, rfl⟩
  | lost hs => exact ⟨rfl, rfl⟩
  | message ho hs | release ho hs => exact absurd hs hstatus
  | answered hr hs => exact absurd hs hstatus
  | unexpected hr hnone => exact ⟨rfl, rfl⟩

/-- A packet that is received without a connection changes nothing that is kept. -/
theorem RecvTurn.kept (h : RecvTurn c pv t) (hstatus : c.status ≠ .connected) : t.kept = c.kept := by
  cases h with
  | answered hr hs => exact absurd hs hstatus
  | aside | lost | message | release | unexpected => rfl

/-- What belongs to no message is not answered. -/
theorem RecvTurn.unanswered (h : RecvTurn c pv t) (ho : pv.outgoing? = none) : t.replies = [] := by
  cases h with
  | message ho' | release ho' => cases ho'.symm.trans ho
  | aside | lost | answered | unexpected => rfl

/-- The receipt of a packet, in the direction in which it was sent -/
theorem RecvTurn.hears (h : RecvTurn c pv t) (hd : d.Ordered sender receiver)
    (hforward : d.forward = outgoings (pv :: rest)) (hhandled : d.handled = c.handled)
    (hup : c.status = .connected → receiver)
    (hdown : c.status ≠ .connected → pv.outgoing? ≠ none → ¬ receiver) :
    { d with
      handled := t.handled
      forward := outgoings rest
      backward := d.backward ++ t.replies
      delivered := d.delivered ++ t.deliveries }.Ordered sender receiver := by
  rw [PacketVariant.outgoings_cons] at hforward
  obtain ⟨emitting, accepting, hd⟩ := hd
  -- a packet without a message or release leaves the line as it is
  have hsame : pv.outgoing? = none →
      { d with
        handled := c.handled
        forward := outgoings rest
        backward := d.backward ++ []
        delivered := d.delivered ++ [] }.Ordered sender receiver := by
    intro ho
    rw [ho] at hforward
    have hforward : d.forward = outgoings rest := hforward
    refine ⟨emitting, accepting, ?_⟩
    rw [List.append_nil, List.append_nil, ← hhandled, ← hforward]
    exact hd
  cases h with
  | aside ho hr => exact hsame ho
  | unexpected hr hnone => exact hsame (PacketVariant.outgoing?_of_reply hr)
  | answered hr hstatus => exact hsame (PacketVariant.outgoing?_of_reply hr)
  -- without a connection the receiver drops what it gets
  | lost hstatus =>
    cases ho : pv.outgoing? with
    | none => exact hsame ho
    | some o =>
      rw [ho] at hforward
      have hsub : (outgoings rest).Sublist (d.state emitting accepting).forward := by
        change (outgoings rest).Sublist d.forward
        rw [hforward]
        exact List.sublist_append_right _ _
      refine ⟨emitting, false, ?_⟩
      have hlose := hd.loseForward hsub (hdown hstatus (by rw [ho]; exact Option.some_ne_none o))
      simp only [idle, List.append_nil, ← hhandled]
      exact hlose
  -- the message is delivered, unless it was handled before
  | @message k m ho hstatus =>
    rw [ho] at hforward
    have hdeliver := hd.deliver (k := k) (m := m) hforward (hup hstatus)
    refine ⟨emitting, accepting, ?_⟩
    have hdelivered : d.delivered ++ (if m.once && d.handled k then [] else [m]) =
        if m.once && d.handled k then d.delivered else d.delivered ++ [m] := by
      split
      · exact List.append_nil _
      · rfl
    simp only [← hhandled, hdelivered]
    exact hdeliver
  -- the release ends the exchange at the receiver
  | @release k ho hstatus =>
    rw [ho] at hforward
    have hrelease := hd.release (k := k) hforward
    refine ⟨emitting, accepting, ?_⟩
    simp only [idle, ← hhandled, List.append_nil]
    exact hrelease

/-- The receipt of a packet, in the direction in which its answer goes -/
theorem RecvTurn.sends {live : Prop} (h : RecvTurn c pv t) (hd : d.Ordered sender receiver)
    (hbackward : d.backward = replies (pv :: rest)) (hkept : d.kept = c.kept)
    (hup : sender ↔ live ∧ c.status = .connected) (hlive : live) :
    { d with
      kept := t.kept
      backward := replies rest
      forward := d.forward ++ t.outgoings }.Ordered sender receiver := by
  rw [PacketVariant.replies_cons] at hbackward
  obtain ⟨emitting, accepting, hd⟩ := hd
  have hsame : pv.reply? = none → { d with
      kept := c.kept
      backward := replies rest
      forward := d.forward ++ [] }.Ordered sender receiver := by
    intro hr
    rw [hr] at hbackward
    have hbackward : d.backward = replies rest := hbackward
    refine ⟨emitting, accepting, ?_⟩
    rw [List.append_nil, ← hkept, ← hbackward]
    exact hd
  cases h with
  | aside ho hr => exact hsame hr
  | message ho hstatus => exact hsame (PacketVariant.reply?_of_outgoing ho)
  | release ho hstatus => exact hsame (PacketVariant.reply?_of_outgoing ho)
  | lost hstatus =>
    have hsub : (replies rest).Sublist (d.state emitting accepting).backward := by
      change (replies rest).Sublist d.backward
      rw [hbackward]
      exact List.sublist_append_right _ _
    refine ⟨emitting, accepting, ?_⟩
    simp only [idle, List.append_nil, ← hkept]
    exact hd.loseBackward hsub fun hs => hstatus (hup.mp hs).2
  | @answered r hr hstatus =>
    rw [hr] at hbackward
    refine ⟨emitting, accepting, ?_⟩
    have hanswered := hd.answered (r := r) hbackward (hup.mpr ⟨hlive, hstatus⟩)
    simp only [← hkept]
    exact hanswered
  | @unexpected r hr hnone =>
    -- what is on the line is awaited
    rw [hr] at hbackward
    have hmem : r ∈ (d.state emitting accepting).backward := by
      change r ∈ d.backward
      rw [hbackward]
      exact List.mem_cons_self
    obtain ⟨o, ho, hawaits⟩ := hd.reachable.awaited hmem
    have ho : o ∈ c.kept := by
      rw [← hkept]
      exact ho
    exact absurd hawaits (hnone o ho)

end Connection

end AsyncMqtt
