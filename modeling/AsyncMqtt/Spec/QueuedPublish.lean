import AsyncMqtt.ForStd.Run
import AsyncMqtt.Spec.EndpointSteps

/-!
# The packet identifiers of queued PUBLISHes

A PUBLISH that exceeds the receive maximum waits in `publish_queue_`. Its packet identifier should
be its own until it is sent: in use, and not one for which the connection expects a response.

But the connection has already noted that it waits for a response to this PUBLISH when it finds
that the maximum is reached. It gives the identifier back and leaves the note, and the endpoint
takes the identifier again. From then on the identifier of the queued PUBLISH is one that a
response, or the end of the network connection, releases.

## Key results

- `Endpoint.ownsIds_iff_orderly`: the identifiers are their own exactly in the runs in which nothing
  is queued
- `Endpoint.queued_with_response`: a client that exceeds a receive maximum of one
-/

namespace AsyncMqtt

namespace Connection

variable {role : Role} {pb : PacketIdBytes}

/-- The connection waits for a response with this packet identifier. -/
def awaits (c : Connection role pb) (packetId : Nat) : Bool :=
  packetId ∈ c.pidPuback || packetId ∈ c.pidPubrec || packetId ∈ c.pidPubcomp ||
    packetId ∈ c.pidSuback || packetId ∈ c.pidUnsuback

/-- A PUBLISH that has entered the session waits for a response. -/
theorem publishEntered_awaits {c : Connection role pb} (pv : PacketVariant pb) :
    (c.publishEntered pv).awaits pv.packetId := by
  unfold publishEntered waitAck awaits
  split <;> simp

end Connection

namespace Endpoint

variable {role : Role} {pb : PacketIdBytes} {ep : Endpoint role pb}

/-- The identifiers of the PUBLISHes that wait are in use, the connection waits for no response
    with one of them, and no two of them are the same. -/
structure OwnsIds (ep : Endpoint role pb) : Prop where
  used : ∀ p ∈ ep.publishQueue, ep.con.pidMan.isUsedId p.packetId
  awaited : ∀ p ∈ ep.publishQueue, ep.con.awaits p.packetId = false
  nodup : (ep.publishQueue.map V5.PublishPacket.packetId).Nodup

/-- The PUBLISH is queued: it exceeds the receive maximum. -/
def queues (ep : Endpoint role pb) : Input pb → Bool
  | .asyncSend (.v5Publish p) false =>
    ! ep.isResending && p.packetId ≠ 0 && ep.con.exceedsMaximum p
  | _ => false

/-- The step of a run leads to no queued PUBLISH. -/
def Orderly (ep : Endpoint role pb) (i : Input pb) : Prop := ep.queues i = false

/-! ### A PUBLISH that is queued -/

/-- The connection waits for a response to the PUBLISH that has just been queued. -/
theorem not_ownsIds_of_queues {i : Input pb} (h : ep.queues i) : ¬ OwnsIds (ep.step i) := by
  unfold queues at h
  split at h
  · next p =>
    simp only [Bool.and_eq_true, Bool.not_eq_true', decide_eq_true_eq] at h
    obtain ⟨⟨hloop, hid⟩, hexceeds⟩ := h
    obtain ⟨tas, m, hsend⟩ := asyncSend_of_exceedsMaximum hexceeds hid
    have hstep : ep.step (.asyncSend (.v5Publish p) false) =
        ep.asyncSend (.v5Publish p) false := step_of_not_resending hloop _
    intro howns
    rw [hstep, hsend] at howns
    have howned := howns.awaited p (List.mem_append_right _ (List.mem_singleton_self p))
    exact Bool.false_ne_true (howned.symm.trans (Connection.publishEntered_awaits (.v5Publish p)))
  · exact absurd h Bool.false_ne_true

/-! ### Runs without one -/

/-- Nothing is queued, and no operation that waits has an error to handle. -/
structure Unqueued (ep : Endpoint role pb) : Prop where
  publishQueue : ep.publishQueue = []
  noError : ∀ op ∈ ep.sendOps, ∀ ec, .error ec ∉ op.events

namespace Unqueued

theorem make (ver : ProtocolVersion) : Unqueued (Endpoint.make role pb ver) :=
  ⟨rfl, fun _ hop => absurd hop List.not_mem_nil⟩

theorem ownsIds (h : Unqueued ep) : OwnsIds ep where
  used p hp := nomatch h.publishQueue ▸ hp
  awaited p hp := nomatch h.publishQueue ▸ hp
  nodup := by rw [h.publishQueue]; exact List.nodup_nil

theorem keeps {ep' : Endpoint role pb} (h : Unqueued ep) (hkeeps : Keeps ep ep') :
    Unqueued ep' := by
  refine ⟨hkeeps.publishQueue.trans h.publishQueue, fun op hop ec => ?_⟩
  obtain ⟨op', hop', hevents, -⟩ := hkeeps.sendOps op hop
  exact hevents ▸ h.noError op' hop' ec

/-- `send_op` works through events without errors. -/
theorem processSend (h : Unqueued ep) {es : List (Event pb)} (hes : ∀ ec, .error ec ∉ es)
    (op : SendOp pb) : Unqueued (ep.processSend es op) := by
  refine ⟨(publishQueue_of_not_exceeded (fun _ => hes _) ep).trans h.publishQueue, ?_⟩
  obtain ⟨_, _, _, ops, _, heq, hops⟩ := Sending.processSend es op ep
  rw [heq]
  intro op' hop' ec
  rcases List.mem_append.mp hop' with hold | hnew
  · exact h.noError op' hold ec
  · exact fun he => hes ec ((hops op' hnew).1.subset he)

/-- A packet is refused, but not because of the receive maximum. -/
theorem refused (h : Unqueued ep) {es : List (Event pb)} (hes : ∀ e ∈ es, e.isRefusal = true)
    {op : SendOp pb} (hne : op.asVariant = false → .error Connection.maximumExceeded ∉ es) :
    Unqueued (ep.processSend es op) := by
  refine ⟨(publishQueue_of_not_exceeded hne ep).trans h.publishQueue, ?_⟩
  rw [sendOps_of_refusals hes]
  exact h.noError

/-- `async_send` of a packet that is not queued. -/
theorem asyncSend (h : Unqueued ep) {p : PacketVariant pb} {v : Bool}
    (horderly : ∀ q, p = .v5Publish q → v = false → q.packetId ≠ 0 →
      ¬ ep.con.exceedsMaximum q) : Unqueued (ep.asyncSend p v) := by
  have hcon : Unqueued { ep with con := (ep.con.send p).conn } := ⟨h.publishQueue, h.noError⟩
  by_cases herror : ∃ ec, .error ec ∈ (ep.con.send p).events
  · obtain ⟨ec, hec⟩ := herror
    have hrefused := Connection.refusals_of_error hec
    by_cases hexceeds : v = false ∧ .error Connection.maximumExceeded ∈ (ep.con.send p).events
    · obtain ⟨hv, hmax⟩ := hexceeds
      obtain ⟨q, rfl, hq⟩ := Connection.exceedsMaximum_of_error hmax
      -- no identifier is given back, and the one of the packet can not be registered
      have hid : q.packetId = 0 := by
        by_contra hid
        exact horderly q rfl hv hid hq
      have hused := Connection.publishEnters_isUsedId (Connection.exceedsMaximum_enters hq).1
      have hregister : ∀ c : Connection role pb, c.pidMan = ep.con.pidMan →
          c.registerPacketId q.packetId = (false, c) :=
        fun c hc => Connection.registerPacketId_of_used (hc ▸ hused)
      rw [Endpoint.asyncSend, Connection.send_of_exceedsMaximum hq, Sent.failRelease,
        if_neg (not_not.mpr hid), hv, Connection.publishEntered_eq]
      simp only [Sent.fail, Endpoint.processSend, sendError, Connection.maximumExceeded, if_true,
        hregister]
      exact ⟨h.publishQueue, h.noError⟩
    · exact hcon.refused hrefused fun hv hmem => hexceeds ⟨hv, hmem⟩
  · exact hcon.processSend (fun ec hec => herror ⟨ec, hec⟩) _

theorem step (h : Unqueued ep) {i : Input pb} (hi : Orderly ep i) : Unqueued (ep.step i) := by
  cases hloop : ep.isResending with
  | true =>
    -- while the queue is worked through there is nothing in it
    rcases step_of_resending hloop i with heq | ⟨-, op, vacancy, -, -, heq⟩
    · rw [heq]
      exact h
    · rw [heq, resend, h.publishQueue]
      exact ⟨h.publishQueue, h.noError⟩
  | false =>
    rw [step_of_not_resending hloop]
    -- a PUBLISH that is sent, a write that ends, and the other inputs
    by_cases hsend : ∃ p v, i = .asyncSend p v
    · obtain ⟨p, v, rfl⟩ := hsend
      refine h.asyncSend fun q hp hv hid hq => ?_
      subst hp hv
      simp [Orderly, queues, hloop, hid, hq] at hi
    · by_cases hwritten : ∃ k, i = .sendWritten k none
      · obtain ⟨k, rfl⟩ := hwritten
        unfold react resumeSend
        dsimp only
        split
        · exact h
        · next op hop =>
          split
          · have hrest : Unqueued { ep with sendOps := ep.sendOps.eraseIdx k } :=
              ⟨h.publishQueue, fun o ho => h.noError o (List.mem_of_mem_eraseIdx ho)⟩
            exact hrest.processSend (h.noError op (List.mem_of_getElem? hop)) op
          · exact h
      · exact h.keeps (keeps_react (fun p v hi => hsend ⟨p, v, hi⟩)
          fun k hi => hwritten ⟨k, hi⟩)

end Unqueued

/-- The PUBLISHes that wait own their identifiers in every state of a run, if and only if no
    PUBLISH is queued. -/
theorem ownsIds_iff_orderly (ver : ProtocolVersion) (is : List (Input pb)) :
    (∀ k ≤ is.length, OwnsIds (Run.final step (make role pb ver) (is.take k))) ↔
      Run.All step Orderly (make role pb ver) is := by
  constructor
  · intro h j i hi
    by_contra hqueues
    have hj : j < is.length := (List.getElem?_eq_some_iff.mp hi).1
    have howns := h (j + 1) hj
    rw [Run.final_take_succ step hi] at howns
    exact not_ownsIds_of_queues (Bool.of_not_eq_false hqueues) howns
  · intro h k hk
    have hunqueued : Unqueued (Run.final step (make role pb ver) (is.take k)) :=
      Run.final_invariant (fun ep i hi hep => hep.step hi) (.make ver) (h.take k)
    exact hunqueued.ownsIds

/-- A client connects to a server that takes one PUBLISH at a time, and sends two. -/
def sendsTwo (c : V5.ConnectPacket) (p q : V5.PublishPacket .two) : List (Input .two) :=
  [.opened, .asyncSend (.v5Connect c) false, .sendWritten 0 none, .asyncRecv none,
    .read [0x20, 6, 0, 0, 3, 0x21, 0, 1], .passOn (.registerPacketId ⟨1, by decide⟩),
    .passOn (.registerPacketId ⟨2, by decide⟩), .asyncSend (.v5Publish p) false, .sendWritten 0 none,
    .asyncSend (.v5Publish q) false]

/-- The second is queued, and the connection waits for a PUBACK with its identifier. -/
theorem queued_with_response :
    ∃ c p q, V5.connectPacket true 0 [] none none none [] = .ok c ∧
      V5.publishPacket .two 1 [0x61] [[0x62]] 2 [] = .ok p ∧
      V5.publishPacket .two 2 [0x61] [[0x62]] 2 [] = .ok q ∧
      ¬ OwnsIds (Run.final step (make .client .two .v5) (sendsTwo c p q)) := by
  refine ⟨_, _, _, rfl, rfl, rfl, fun h => absurd h.awaited ?_⟩
  decide

/-- When the network connection has ended, the identifier of the second is free, and a SUBSCRIBE
    that takes it waits for a SUBACK. -/
theorem queued_identifier_free :
    ∃ c p q r, V5.connectPacket true 0 [] none none none [] = .ok c ∧
      V5.publishPacket .two 1 [0x61] [[0x62]] 2 [] = .ok p ∧
      V5.publishPacket .two 2 [0x61] [[0x62]] 2 [] = .ok q ∧
      V5.subscribePacket .two 2 [⟨⟨[0x61]⟩, 0⟩] [] = .ok r ∧
      let is := sendsTwo c p q ++ [.asyncClose, .streamClosed]
      let again : List (Input .two) := [.opened, .asyncSend (.v5Connect c) false, .sendWritten 0 none,
        .asyncRecv none, .read [0x20, 3, 0, 0, 0], .passOn (.registerPacketId ⟨2, by decide⟩),
        .asyncSend (.v5Subscribe r) false]
      let ep := Run.final step (make .client .two .v5) is
      ep.publishQueue.map V5.PublishPacket.packetId = [2] ∧ ep.con.pidMan.isUsedId 2 = false ∧
        (Run.final step ep again).publishQueue.map V5.PublishPacket.packetId = [2] ∧
        2 ∈ (Run.final step ep again).con.pidSuback := by
  refine ⟨_, _, _, _, rfl, rfl, rfl, rfl, ?_⟩
  decide

end Endpoint

end AsyncMqtt
