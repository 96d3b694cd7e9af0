import AsyncMqtt.Native.Endpoint
import AsyncMqtt.Spec.SendEvents

/-!
# What the operations of an endpoint touch

The endpoint works through a list of events until it has to wait. What follows is which parts of
it may have changed by then: timers only, what belongs to `recv_op`, or what belongs to a `send_op`.

## Key results

- `Endpoint.Sending.processSend`: `send_op` working through its events
- `Endpoint.Receiving.processRecv`: `recv_op` working through its events
- `Endpoint.firing_timerFired`: the handler of a timer
- `Endpoint.keeps_react`: what can queue a PUBLISH or leave an operation waiting
-/

namespace AsyncMqtt

namespace Connection

variable {role : Role} {pb : PacketIdBytes}

/-- An identifier in use can not be registered. -/
theorem registerPacketId_of_used {c : Connection role pb} {packetId : Nat}
    (h : c.pidMan.isUsedId packetId) : c.registerPacketId packetId = (false, c) := by
  have hfind : c.pidMan.pool.find packetId = none := Option.isNone_iff_eq_none.mp h
  unfold registerPacketId PacketIdManager.registerId ValueAllocator.use
  rw [hfind]

/-- One that has been given back can. -/
theorem registerId_releaseId {m : PacketIdManager pb} {packetId : Nat}
    (h : m.isUsedId packetId) : ((m.releaseId packetId).registerId packetId).1 = true := by
  cases huse : (m.releaseId packetId).registerId packetId with
  | mk ok m' =>
    cases ok with
    | true => rfl
    | false =>
      -- what was given back is vacant, so that it would not have been refused
      have hvacant := ValueAllocator.mem_deallocate_self (ValueAllocator.isUsed_iff.mp h)
      exact absurd hvacant (ValueAllocator.use_false huse).2

end Connection

namespace Endpoint

variable {role : Role} {pb : PacketIdBytes} {ep ep' ep'' : Endpoint role pb}

/-! ### Timers -/

/-- Only timers have been touched. -/
def Timed (ep ep' : Endpoint role pb) : Prop :=
  ∃ armed out, ep' = { ep with armed := armed, out := ep.out ++ out }

namespace Timed

/-- Nothing has been touched. -/
theorem refl (ep : Endpoint role pb) : Timed ep ep := ⟨ep.armed, [], by simp⟩

/-- The output grows, and the last setting of a timer counts. -/
theorem trans (h : Timed ep ep') (h' : Timed ep' ep'') : Timed ep ep'' := by
  obtain ⟨armed, out, rfl⟩ := h
  obtain ⟨armed', out', rfl⟩ := h'
  exact ⟨armed', out ++ out', by simp⟩

/-- A line of output -/
theorem emit (ep : Endpoint role pb) (o : EndpointOutput pb) : Timed ep (ep.emit o) :=
  ⟨ep.armed, [o], rfl⟩

/-- An assertion adds to the output if it fails. -/
theorem assert (ep : Endpoint role pb) (cond : Bool) : Timed ep (ep.assert cond) := by
  unfold Endpoint.assert
  split
  · exact refl ep
  · exact emit ep _

/-- Timers are armed or no longer armed. -/
theorem update (ep : Endpoint role pb) (armed : TimerKind → Bool) :
    Timed ep { ep with armed := armed } :=
  ⟨armed, [], by simp⟩

/-- The timer is cancelled before it is armed again. -/
theorem resetPingreqSendTimer (ep : Endpoint role pb) (ms : Option Nat) :
    Timed ep (ep.resetPingreqSendTimer ms) := by
  unfold Endpoint.resetPingreqSendTimer
  split
  · exact (update ep _).trans (update _ _)
  · exact update ep _

/-- The same for the timer of the server -/
theorem resetPingreqRecvTimer (ep : Endpoint role pb) (ms : Option Nat) :
    Timed ep (ep.resetPingreqRecvTimer ms) := by
  unfold Endpoint.resetPingreqRecvTimer
  split
  · exact (update ep _).trans (update _ _)
  · exact update ep _

/-- The timer for the PINGRESP is armed only with a time. -/
theorem resetPingrespRecvTimer (ep : Endpoint role pb) (ms : Option Nat) :
    Timed ep (ep.resetPingrespRecvTimer ms) := by
  unfold Endpoint.resetPingrespRecvTimer
  split
  · exact (update ep _).trans (update _ _)
  · exact refl ep

/-- `send_op` sets the timers of a client, and an assertion excludes the others. -/
theorem sendTimer (ep : Endpoint role pb) (op : TimerOp) (kind : TimerKind) (ms : Option Nat) :
    Timed ep (ep.sendTimer op kind ms) := by
  unfold Endpoint.sendTimer
  split
  · exact resetPingreqSendTimer ep ms
  · exact update ep _
  · exact update ep _
  · exact resetPingrespRecvTimer ep ms
  · exact assert ep _
  · exact assert ep _

/-- `recv_op` sets all timers but does not cancel every one of them. -/
theorem recvTimer (ep : Endpoint role pb) (op : TimerOp) (kind : TimerKind) (ms : Option Nat) :
    Timed ep (ep.recvTimer op kind ms) := by
  unfold Endpoint.recvTimer
  split
  · exact resetPingreqSendTimer ep ms
  · exact update ep _
  · exact resetPingreqRecvTimer ep ms
  · exact update ep _
  · exact resetPingrespRecvTimer ep ms
  · exact assert ep _

/-- The handler of a timer may set the timers other than its own. -/
theorem handlerTimer (ep : Endpoint role pb) (own : TimerKind) (op : TimerOp) (kind : TimerKind)
    (ms : Option Nat) : Timed ep (ep.handlerTimer own op kind ms) := by
  unfold Endpoint.handlerTimer
  split
  · exact resetPingreqRecvTimer ep ms
  · exact update ep _
  · exact resetPingrespRecvTimer ep ms
  · exact update ep _
  · exact update ep _
  · exact assert ep _

/-- The events of `notify_closed` cancel timers. -/
theorem closeEvent (ep : Endpoint role pb) (e : Event pb) : Timed ep (ep.closeEvent e) := by
  unfold Endpoint.closeEvent
  split
  · exact (assert ep _).trans (update _ _)
  · exact refl ep
  · exact assert ep _

/-- The events of a new interval set one timer. -/
theorem intervalEvent (ep : Endpoint role pb) (e : Event pb) : Timed ep (ep.intervalEvent e) := by
  unfold Endpoint.intervalEvent
  split
  · exact resetPingreqSendTimer ep _
  · exact update ep _
  · exact assert ep _

/-- Events that touch only timers, one after another -/
theorem foldl {f : Endpoint role pb → Event pb → Endpoint role pb}
    (hf : ∀ ep e, Timed ep (f ep e)) (es : List (Event pb)) (ep : Endpoint role pb) :
    Timed ep (es.foldl f ep) := by
  induction es generalizing ep with
  -- the induction is on the events, and what is left of them starts where the first one ended
  | nil => exact refl ep
  | cons e es ih => exact (hf ep e).trans (ih _)

/-- The handler of the timer for the PINGREQ sends and sets timers, event by event. -/
theorem pingreqSendHandler :
    ∀ (es : List (Event pb)) (ep : Endpoint role pb), Timed ep (ep.pingreqSendHandler es)
  | [], ep => refl ep
  | .timerOp .reset .pingreqSend ms :: es, ep =>
    (resetPingreqSendTimer ep ms).trans (pingreqSendHandler es _)
  | .timerOp .cancel .pingreqSend _ :: es, ep =>
    (update ep _).trans (pingreqSendHandler es _)
  | .timerOp .reset .pingrespRecv ms :: es, ep =>
    (resetPingrespRecvTimer ep ms).trans (pingreqSendHandler es _)
  | .send _ release :: es, ep =>
    ((assert ep release.isNone).trans (emit _ _)).trans (pingreqSendHandler es _)
  | .timerOp .cancel .pingrespRecv _ :: es, ep | .timerOp .reset .pingreqRecv _ :: es, ep
  | .timerOp .cancel .pingreqRecv _ :: es, ep | .error _ :: es, ep | .close :: es, ep
  | .packetIdRelease _ :: es, ep | .receive _ :: es, ep | .threw _ :: es, ep
  | .outOfBounds :: es, ep => (assert ep false).trans (pingreqSendHandler es _)

end Timed

/-! ### Receiving -/

/-- Only what belongs to `recv_op`, the timers and the status have been touched. -/
def Receiving (ep ep' : Endpoint role pb) : Prop :=
  ∃ status recvEvents recvOp armed out, ep' = { ep with
    status := status, recvEvents := recvEvents, recvOp := recvOp, armed := armed
    out := ep.out ++ out }

/-- `recv_op` may touch the timers. -/
theorem Timed.receiving (h : Timed ep ep') : Receiving ep ep' := by
  obtain ⟨armed, out, rfl⟩ := h
  exact ⟨_, _, _, armed, out, rfl⟩

namespace Receiving

/-- Nothing has been touched. -/
theorem refl (ep : Endpoint role pb) : Receiving ep ep := (Timed.refl ep).receiving

/-- The output grows, and the last state of the operation counts. -/
theorem trans (h : Receiving ep ep') (h' : Receiving ep' ep'') : Receiving ep ep'' := by
  obtain ⟨_, _, _, _, out, rfl⟩ := h
  obtain ⟨status, recvEvents, recvOp, armed, out', rfl⟩ := h'
  exact ⟨status, recvEvents, recvOp, armed, out ++ out', by simp⟩

/-- The operation is left in a state. -/
theorem update (ep : Endpoint role pb) (recvEvents : List (Event pb))
    (recvOp : Option (RecvOp pb)) :
    Receiving ep { ep with recvEvents := recvEvents, recvOp := recvOp } :=
  ⟨ep.status, recvEvents, recvOp, ep.armed, [], by simp⟩

/-- A close that begins changes the status. -/
theorem asyncClose (ep : Endpoint role pb) : Receiving ep ep.asyncClose.1 := by
  unfold Endpoint.asyncClose
  split
  · exact ⟨.closing, ep.recvEvents, ep.recvOp, ep.armed, [], by simp⟩
  · exact refl ep
  · exact refl ep

/-- The operation goes on with what is left in the buffer. -/
theorem checkBuf (ep : Endpoint role pb) (op : RecvOp pb) : Receiving ep (ep.checkBuf op) :=
  update ep ep.recvEvents _

/-- The operation ends with an output. -/
theorem recvComplete (ep : Endpoint role pb) (ec : Option EndpointError)
    (p : Option (PacketVariant pb)) : Receiving ep (ep.recvComplete ec p) :=
  (update ep ep.recvEvents none).trans (Timed.emit _ _).receiving

/-- The operation ends, or goes on to read when the packet is filtered out. -/
theorem recvFinish (ep : Endpoint role pb) (op : RecvOp pb) : Receiving ep (ep.recvFinish op) := by
  -- an error, nothing received, or a packet that may have to be filtered
  unfold Endpoint.recvFinish
  split
  · exact recvComplete ep _ _
  · exact (Timed.assert ep _).receiving.trans (recvComplete _ _ _)
  · split
    · exact checkBuf ep _
    · split
      · exact update ep ep.recvEvents _
      · exact recvComplete ep _ _

/-- After its events the operation waits for more bytes or ends. -/
theorem recvProcessed (ep : Endpoint role pb) (op : RecvOp pb) :
    Receiving ep (ep.recvProcessed op) := by
  unfold Endpoint.recvProcessed
  split
  · exact checkBuf ep op
  · exact (Timed.assert ep _).receiving.trans (recvFinish _ op)

/-- An error of the stream closes the endpoint if it is not closed. -/
theorem recvError (ep : Endpoint role pb) (op : RecvOp pb) (ec : EndpointError) :
    Receiving ep (ep.recvError op ec) := by
  unfold Endpoint.recvError
  split
  · exact recvComplete ep _ _
  -- the close is done at once if nothing has to be closed
  · have hclose := asyncClose ep
    rcases hc : ep.asyncClose with ⟨ep', closed⟩
    rw [hc] at hclose
    cases closed with
    | true => exact hclose.trans (recvFinish ep' _)
    | false => exact hclose.trans (update ep' ep'.recvEvents _)

/-- `recv_op` works through its events until it has to wait for a write or a close. -/
theorem processRecv (es : List (Event pb)) (op : RecvOp pb) (ep : Endpoint role pb) :
    Receiving ep (ep.processRecv es op) := by
  -- the induction is on the events: each one is handled, or the operation is left waiting
  induction es generalizing op ep with
  | nil => exact (update ep [] ep.recvOp).trans (recvProcessed _ op)
  | cons e es ih =>
    cases e with
    | error ec => exact ih _ ep
    | close =>
      rw [Endpoint.processRecv]
      have hclose := asyncClose ep
      rcases hc : ep.asyncClose with ⟨ep', closed⟩
      rw [hc] at hclose
      cases closed with
      | true => exact hclose.trans (ih op ep')
      | false => exact hclose.trans (update ep' es _)
    | send p release =>
      exact ((Timed.assert ep _).trans (Timed.emit _ _)).receiving.trans (update _ es _)
    | packetIdRelease packetId => exact ih _ ep
    | receive p => exact (Timed.assert ep _).receiving.trans (ih _ _)
    | timerOp o kind ms => exact (Timed.recvTimer ep o kind ms).receiving.trans (ih op _)
    | threw x => exact update ep es none
    | outOfBounds => exact update ep es none

end Receiving

/-! ### Sending -/

/-- Only what belongs to a `send_op` and the timers have been touched: the identifiers and the queue
    by `register_packet_id` and `enqueue_publish`. The operations that wait now satisfy `P`. -/
def Sending (P : SendOp pb → Prop) (ep ep' : Endpoint role pb) : Prop :=
  ∃ m queued armed ops out, ep' = { ep with
    con := { ep.con with pidMan := m }, publishQueue := ep.publishQueue ++ queued, armed := armed
    sendOps := ep.sendOps ++ ops, out := ep.out ++ out } ∧ ∀ op ∈ ops, P op

/-- `send_op` may touch the timers. -/
theorem Timed.sending (h : Timed ep ep') (P : SendOp pb → Prop) : Sending P ep ep' := by
  obtain ⟨armed, out, rfl⟩ := h
  exact ⟨ep.con.pidMan, [], armed, [], out, by simp, fun _ hop => absurd hop List.not_mem_nil⟩

namespace Sending

variable {P Q : SendOp pb → Prop}

/-- The operations that wait after both steps are those of the first and of the second. -/
theorem trans (h : Sending P ep ep') (h' : Sending P ep' ep'') : Sending P ep ep'' := by
  obtain ⟨m, queued, armed, ops, out, rfl, hops⟩ := h
  obtain ⟨m', queued', armed', ops', out', rfl, hops'⟩ := h'
  refine ⟨m', queued ++ queued', armed', ops ++ ops', out ++ out', by simp, fun op hop => ?_⟩
  exact (List.mem_append.mp hop).elim (hops op) (hops' op)

/-- A weaker condition on the operations -/
theorem imp (h : Sending P ep ep') (hPQ : ∀ op, P op → Q op) : Sending Q ep ep' := by
  obtain ⟨m, queued, armed, ops, out, rfl, hops⟩ := h
  exact ⟨m, queued, armed, ops, out, rfl, fun op hop => hPQ op (hops op hop)⟩

/-- An operation is left waiting. -/
theorem push (ep : Endpoint role pb) {op : SendOp pb} (h : P op) :
    Sending P ep { ep with sendOps := ep.sendOps ++ [op] } := by
  refine ⟨ep.con.pidMan, [], ep.armed, [op], [], by simp, fun op' hop => ?_⟩
  exact List.mem_singleton.mp hop ▸ h

/-- The PUBLISH is queued if the peer has no room for it, or others are queued already. -/
theorem enqueuePublish (ep : Endpoint role pb) (p : V5.PublishPacket pb) :
    Sending P ep (ep.enqueuePublish p) := by
  unfold Endpoint.enqueuePublish
  split
  · exact ⟨ep.con.pidMan, [p], ep.armed, [], [], by simp, fun _ hop => absurd hop List.not_mem_nil⟩
  · exact (Timed.refl ep).sending P

/-- An error ends the operation, unless it is that of the receive maximum: then the PUBLISH is
    queued under its identifier. -/
theorem sendError (ep : Endpoint role pb) (ec : ErrorCode) (op : SendOp pb) :
    Sending P ep (ep.sendError ec op).2 := by
  -- the identifier is registered again, which changes the manager only
  have hregister : ∀ packetId, Sending P ep { ep with con := (ep.con.registerPacketId packetId).2 } :=
    fun packetId => ⟨(ep.con.pidMan.registerId packetId).2, [], ep.armed, [], [],
      by simp [Connection.registerPacketId], fun _ hop => absurd hop List.not_mem_nil⟩
  unfold Endpoint.sendError
  split
  · next p _ _ =>
    split
    · have hcon := hregister p.packetId
      rcases hr : ep.con.registerPacketId p.packetId with ⟨ok, con⟩
      rw [hr] at hcon
      cases ok with
      | true => exact hcon.trans (enqueuePublish _ p)
      | false => exact hcon.trans ((Timed.assert { ep with con := con } false).sending P)
    · exact (Timed.refl ep).sending P
  · exact (Timed.refl ep).sending P

/-- `send_op` works through its events until it has to wait. An operation that waits has some of the
    events left. -/
theorem processSend (es : List (Event pb)) (op : SendOp pb) (ep : Endpoint role pb) :
    Sending (fun o => o.events <:+ es ∧ o.packet = op.packet) ep (ep.processSend es op) := by
  -- the induction is on the events, and the operation may be another one after an error
  induction es generalizing op ep with
  | nil => exact (Timed.emit ep _).sending _
  | cons e es ih =>
    -- what waits with the events that are left waits with some of all events
    have hcons : ∀ {op'} {ep' : Endpoint role pb}, op'.packet = op.packet →
        Sending (fun o => o.events <:+ e :: es ∧ o.packet = op.packet) ep'
          (Endpoint.processSend es op' ep') := by
      intro op' ep' hpacket
      refine (ih op' ep').imp fun o ho => ⟨ho.1.trans (List.suffix_cons e es), ?_⟩
      exact ho.2.trans hpacket
    cases e with
    | error ec =>
      refine (sendError ep ec op).trans (hcons ?_)
      unfold Endpoint.sendError
      split
      · split
        · split <;> rfl
        · rfl
      · rfl
    | close => exact push ep ⟨List.suffix_cons _ es, rfl⟩
    | send p release =>
      exact ((Timed.emit ep _).sending _).trans (push _ ⟨List.suffix_cons _ es, rfl⟩)
    | packetIdRelease packetId => exact hcons rfl
    | receive p => exact ((Timed.assert ep _).sending _).trans (hcons rfl)
    | timerOp o kind ms => exact ((Timed.sendTimer ep o kind ms).sending _).trans (hcons rfl)
    | threw x => exact (Timed.refl ep).sending _
    | outOfBounds => exact (Timed.refl ep).sending _

end Sending

/-- A packet that is refused leaves no operation waiting. -/
theorem sendOps_of_refusals {es : List (Event pb)} (h : ∀ e ∈ es, e.isRefusal = true)
    (op : SendOp pb) (ep : Endpoint role pb) : (ep.processSend es op).sendOps = ep.sendOps := by
  induction es generalizing op ep with
  | nil => rfl
  | cons e es ih =>
    -- the events of a refusal are errors and identifiers that are given back
    have hrest : ∀ e ∈ es, e.isRefusal = true := fun e he => h e (List.mem_cons_of_mem _ he)
    have he := h e (List.mem_cons_self ..)
    cases e with
    | error ec =>
      rw [processSend, ih hrest]
      unfold sendError
      split
      · split
        · split
          · unfold enqueuePublish
            split <;> rfl
          · rfl
        · rfl
      · rfl
    | packetIdRelease packetId => exact ih hrest op ep
    | threw x => rfl
    | _ => exact nomatch he

/-- Only the receive maximum lets a PUBLISH be queued. -/
theorem publishQueue_of_not_exceeded {es : List (Event pb)} {op : SendOp pb}
    (h : op.asVariant = false → .error Connection.maximumExceeded ∉ es) (ep : Endpoint role pb) :
    (ep.processSend es op).publishQueue = ep.publishQueue := by
  induction es generalizing op ep with
  | nil => rfl
  | cons e es ih =>
    -- the error of the receive maximum is not among the events that are left either
    have hrest : op.asVariant = false → .error Connection.maximumExceeded ∉ es :=
      fun hv he => h hv (List.mem_cons_of_mem e he)
    -- timers do not matter to the queue
    have htimer : ∀ {ep' : Endpoint role pb}, Timed ep ep' →
        (ep'.processSend es op).publishQueue = ep.publishQueue := by
      rintro _ ⟨armed, out, rfl⟩
      exact ih hrest _
    cases e with
    | error ec =>
      have hop : { op with decidedError := some (.code ec) }.asVariant = false →
          .error Connection.maximumExceeded ∉ es := hrest
      rw [processSend]
      unfold sendError
      split
      · next hv =>
        -- the error is another one, so that nothing is queued
        have hec : ec ≠ .disconnect DisconnectReasonCode.receiveMaximumExceeded :=
          fun heq => h hv (heq ▸ List.mem_cons_self ..)
        rw [if_neg hec]
        exact ih hop ep
      · exact ih hop ep
    | packetIdRelease packetId => exact ih hrest ep
    | receive p => exact htimer (Timed.assert ep false)
    | timerOp o kind ms => exact htimer (Timed.sendTimer ep o kind ms)
    | _ => rfl

/-- The PUBLISH is queued, and what its connection has noted of it stays. -/
theorem asyncSend_of_exceedsMaximum {p : V5.PublishPacket pb} (h : ep.con.exceedsMaximum p)
    (hid : p.packetId ≠ 0) :
    ∃ tas m, ep.asyncSend (.v5Publish p) false =
      { ep with
        con := { ep.con.publishEntered (.v5Publish p) with topicAliasSend := tas, pidMan := m }
        publishQueue := ep.publishQueue ++ [p]
        out := ep.out ++ [.sendCompleted (.v5Publish p) (some .packetEnqueued)] } := by
  -- the PUBLISH was entered, but the connection gives its identifier back when it refuses it
  obtain ⟨henters, hmax⟩ := Connection.exceedsMaximum_enters h
  have hused : ep.con.pidMan.isUsedId p.packetId := Connection.publishEnters_isUsedId henters
  have hqos : Connection.isQos12 p.opts := (Connection.publishEnters_qos henters).2
  have hmax : ep.con.publishSendMax = some ep.con.publishSendCount := by
    simpa [Connection.sendMaximumReached] using hmax
  have hregister := Connection.registerId_releaseId hused
  rcases hr : (ep.con.pidMan.releaseId p.packetId).registerId p.packetId with ⟨ok, m⟩
  rw [hr] at hregister
  obtain rfl : ok = true := hregister
  -- a PUBLISH that is refused for this reason finds no room
  have hvacancy : ∀ c : Connection role pb, c.publishSendMax = ep.con.publishSendMax →
      c.publishSendCount = ep.con.publishSendCount →
      c.getReceiveMaximumVacancyForSend = some 0 := by
    intro c hmax' hcount
    rw [Connection.getReceiveMaximumVacancyForSend, hmax', hcount, hmax]
    simp
  rw [asyncSend, Connection.send_of_exceedsMaximum_release h hid, Connection.publishEntered_eq]
  simp only [processSend, sendError, Connection.maximumExceeded, if_true,
    Connection.registerPacketId, hr, emit, enqueuePublish]
  rw [if_pos ⟨hqos, .inl (hvacancy _ rfl rfl)⟩]
  exact ⟨_, m, rfl⟩

/-! ### The other operations -/

/-- Only the timers, the status and the DISCONNECTs of timers have been touched. -/
def Firing (ep ep' : Endpoint role pb) : Prop :=
  ∃ status armed disconnects out, ep' = { ep with
    status := status, armed := armed, disconnects := disconnects, out := ep.out ++ out }

/-- A timer that fires may touch the timers. -/
theorem Timed.firing (h : Timed ep ep') : Firing ep ep' := by
  obtain ⟨armed, out, rfl⟩ := h
  exact ⟨ep.status, armed, ep.disconnects, out, rfl⟩

namespace Firing

/-- The output grows, and the last status counts. -/
theorem trans (h : Firing ep ep') (h' : Firing ep' ep'') : Firing ep ep'' := by
  obtain ⟨status, armed, disconnects, out, rfl⟩ := h
  obtain ⟨status', armed', disconnects', out', rfl⟩ := h'
  exact ⟨status', armed', disconnects', out ++ out', by simp⟩

/-- A close that begins changes the status. -/
theorem asyncClose (ep : Endpoint role pb) : Firing ep ep.asyncClose.1 := by
  unfold Endpoint.asyncClose
  split
  · exact ⟨.closing, ep.armed, ep.disconnects, [], by simp⟩
  · exact (Timed.refl ep).firing
  · exact (Timed.refl ep).firing

/-- The DISCONNECT of a timer is counted until it is written. -/
theorem timerDisconnect (ep : Endpoint role pb) (p : PacketVariant pb) (last : Bool) :
    Firing ep (ep.timerDisconnect p last) := by
  unfold Endpoint.timerDisconnect
  have hassert := ((Timed.assert ep (p.version = .v5 ∧ p.type = .disconnect)).trans
    (Timed.assert _ last)).firing
  generalize (ep.assert (p.version = .v5 ∧ p.type = .disconnect)).assert last = ep' at hassert
  exact hassert.trans ⟨ep'.status, ep'.armed, _, [.asyncWritePacket p], rfl⟩

/-- The handler of a timer that waits for the peer sends a DISCONNECT or closes, event by event. -/
theorem recvTimerHandler (own : TimerKind) :
    ∀ (es : List (Event pb)) (ep : Endpoint role pb), Firing ep (ep.recvTimerHandler own es)
  | [], ep => (Timed.refl ep).firing
  | .timerOp op kind ms :: es, ep =>
    (Timed.handlerTimer ep own op kind ms).firing.trans (recvTimerHandler own es _)
  | [.send p _], ep => timerDisconnect ep p false
  | .send p _ :: _ :: es, ep => (timerDisconnect ep p _).trans (recvTimerHandler own es _)
  | .close :: es, ep => (asyncClose ep).trans (recvTimerHandler own es _)
  | .error _ :: es, ep | .packetIdRelease _ :: es, ep | .receive _ :: es, ep
  | .threw _ :: es, ep | .outOfBounds :: es, ep =>
    (Timed.assert ep false).firing.trans (recvTimerHandler own es _)

end Firing

/-- The handler of a timer -/
theorem firing_timerFired (kind : TimerKind) (ep : Endpoint role pb) :
    Firing { ep with con := (ep.con.notifyTimerFired kind).conn } (ep.timerFired kind) := by
  cases kind with
  | pingreqSend => exact (Timed.pingreqSendHandler _ _).firing
  | pingreqRecv => exact Firing.recvTimerHandler _ _ _
  | pingrespRecv => exact Firing.recvTimerHandler _ _ _

/-- The connection is told of the end, and its events cancel timers. -/
theorem timed_notifyClosed (ep : Endpoint role pb) :
    Timed { ep with status := .closed, con := ep.con.notifyClosed.conn } ep.notifyClosed :=
  Timed.foldl Timed.closeEvent _ _

/-- The application sets the interval for the PINGREQ. -/
theorem timed_setPingreqSendInterval (duration : Nat) (ep : Endpoint role pb) :
    Timed { ep with con := (ep.con.setPingreqSendInterval duration).conn }
      (ep.setPingreqSendInterval duration) :=
  Timed.foldl Timed.intervalEvent _ _

/-- `recv_op` in the state `read_istream` -/
theorem receiving_readIstream (op : RecvOp pb) (ep : Endpoint role pb) :
    Receiving
      { ep with con := (ep.con.recv ep.readBuf).1.conn, readBuf := (ep.con.recv ep.readBuf).2 }
      (ep.readIstream op) := by
  unfold readIstream
  dsimp only
  -- no events are left from before, or they are worked through first
  split
  · exact Receiving.update _ ep.recvEvents _
  · exact Receiving.processRecv _ op _

/-- The stream has been closed. -/
theorem receiving_streamClosed (ep : Endpoint role pb) :
    Receiving ep.notifyClosed.sendClosed ep.streamClosed := by
  unfold streamClosed
  dsimp only
  -- the operation that has waited for the close goes on
  split
  · exact Receiving.refl _
  · split
    · exact Receiving.processRecv _ _ _
    · exact Receiving.recvFinish _ _
    · exact Receiving.refl _

/-! ### The queue and the operations that wait -/

/-- Nothing is queued, and the operations that wait are some of those that did, with the same
    events to handle. -/
structure Keeps (ep ep' : Endpoint role pb) : Prop where
  publishQueue : ep'.publishQueue = ep.publishQueue
  sendOps : ∀ op ∈ ep'.sendOps, ∃ op' ∈ ep.sendOps, op'.events = op.events ∧
    op'.packet = op.packet

namespace Keeps

/-- The queue and the operations are as before. -/
theorem of_eq (hqueue : ep'.publishQueue = ep.publishQueue) (hops : ep'.sendOps = ep.sendOps) :
    Keeps ep ep' :=
  ⟨hqueue, fun op hop => ⟨op, hops ▸ hop, rfl, rfl⟩⟩

/-- Nothing has been touched. -/
theorem refl (ep : Endpoint role pb) : Keeps ep ep := of_eq rfl rfl

/-- `recv_op` does not touch them. -/
theorem receiving (h : Keeps ep ep') (h' : Receiving ep' ep'') : Keeps ep ep'' := by
  obtain ⟨_, _, _, _, _, rfl⟩ := h'
  exact ⟨h.publishQueue, h.sendOps⟩

/-- The handlers of timers do not touch them. -/
theorem firing (h : Keeps ep ep') (h' : Firing ep' ep'') : Keeps ep ep'' := by
  obtain ⟨_, _, _, _, rfl⟩ := h'
  exact ⟨h.publishQueue, h.sendOps⟩

/-- `recv_op` goes on if it waits in the state. -/
theorem resumeRecv {state : RecvState} {f : RecvOp pb → Endpoint role pb → Endpoint role pb}
    (hf : ∀ op, Keeps ep (f op ep)) : Keeps ep (ep.resumeRecv state f) := by
  unfold Endpoint.resumeRecv
  split
  · exact refl ep
  · split
    · exact hf _
    · exact refl ep

/-- `recv_op` parses what was read. -/
theorem readIstream (op : RecvOp pb) (ep : Endpoint role pb) : Keeps ep (ep.readIstream op) := by
  obtain ⟨_, _, _, _, _, heq⟩ := receiving_readIstream op ep
  rw [heq]
  exact of_eq rfl rfl

/-- An operation of `send_op` that closes is one that waited, with the same events. -/
theorem sendClose {op : SendOp pb} {ec : Option EndpointError} {ops : List (SendOp pb)}
    (hop : op ∈ ep.sendOps) (hops : ∀ o ∈ ops, o ∈ ep.sendOps) :
    Keeps ep ({ ep with sendOps := ops }.sendClose op ec) := by
  have hold : ∀ o ∈ ops, ∃ op' ∈ ep.sendOps, op'.events = o.events ∧ op'.packet = o.packet :=
    fun o ho => ⟨o, hops o ho, rfl, rfl⟩
  unfold Endpoint.sendClose Endpoint.asyncClose
  cases ec with
  | some ec => exact ⟨rfl, hold⟩
  | none =>
    -- it is put behind the others while it waits for the stream
    have hpush : ∀ o ∈ ops ++ [{ op with state := .complete }],
        ∃ op' ∈ ep.sendOps, op'.events = o.events ∧ op'.packet = o.packet := by
      intro o ho
      rcases List.mem_append.mp ho with ho | ho
      · exact hold o ho
      · obtain rfl := List.mem_singleton.mp ho
        exact ⟨op, hop, rfl, rfl⟩
    dsimp only
    cases ep.status with
    | «open» => exact ⟨rfl, hpush⟩
    | closing => exact ⟨rfl, hpush⟩
    | closed => exact ⟨rfl, hold⟩

/-- The operations that waited for the close end, and the others are kept. -/
theorem streamClosed (ep : Endpoint role pb) : Keeps ep ep.streamClosed := by
  obtain ⟨armed, out, heq⟩ := timed_notifyClosed ep
  refine Keeps.receiving ?_ (receiving_streamClosed ep)
  rw [heq]
  exact ⟨rfl, fun op hop => ⟨op, List.mem_of_mem_filter hop, rfl, rfl⟩⟩

end Keeps

/-- Only a call of `async_send`, and an operation that goes on after a write, may queue a PUBLISH
    or wait with other events than before. -/
theorem keeps_react {i : Input pb} (hsend : ∀ p v, i ≠ .asyncSend p v)
    (hwritten : ∀ k, i ≠ .sendWritten k none) : Keeps ep (ep.react i) := by
  cases i with
  -- these two inputs are excluded
  | asyncSend p v => exact absurd rfl (hsend p v)
  | sendWritten k ec =>
    cases ec with
    | none => exact absurd rfl (hwritten k)
    | some ec =>
      unfold react resumeSend
      dsimp only
      split
      · exact .refl ep
      -- the operation ends with the error, and the others are kept
      · split
        · exact ⟨rfl, fun op hop => ⟨op, List.mem_of_mem_eraseIdx hop, rfl, rfl⟩⟩
        · exact .refl ep
  | sendWaited k ec =>
    unfold react resumeSend
    dsimp only
    split
    · exact .refl ep
    · next op hop =>
      split
      · exact Keeps.sendClose (List.mem_of_getElem? hop) fun o ho => List.mem_of_mem_eraseIdx ho
      · exact .refl ep
  | asyncRecv fil =>
    unfold react
    dsimp only
    split
    · exact (Keeps.refl ep).receiving (Receiving.checkBuf ep _)
    · exact .refl ep
  | readIstream => exact .resumeRecv fun op => .readIstream op ep
  | read data =>
    -- the bytes are added before the operation goes on
    have hread : ∀ op, Keeps ep ({ ep with readBuf := ep.readBuf ++ data }.readIstream op) := by
      intro op
      have h := Keeps.readIstream op { ep with readBuf := ep.readBuf ++ data }
      exact ⟨h.publishQueue, h.sendOps⟩
    exact .resumeRecv (f := fun op ep => { ep with readBuf := ep.readBuf ++ data }.readIstream op)
      hread
  | readError ec =>
    exact .resumeRecv fun op => (Keeps.refl ep).receiving (Receiving.recvError ep op ec)
  | recvWritten ec =>
    cases ec with
    | none =>
      exact .resumeRecv fun op => (Keeps.refl ep).receiving (Receiving.processRecv _ op ep)
    | some ec =>
      exact .resumeRecv fun op => (Keeps.refl ep).receiving (Receiving.recvError ep op ec)
  | resend => exact .refl ep
  | asyncClose => exact (Keeps.refl ep).receiving (Receiving.asyncClose ep)
  | streamClosed =>
    unfold react
    dsimp only
    split
    · exact .streamClosed ep
    · exact .refl ep
  | opened =>
    unfold react
    dsimp only
    split <;> exact .of_eq rfl rfl
  | expire kind =>
    unfold react
    dsimp only
    split <;> exact .of_eq rfl rfl
  | timerHandler =>
    unfold react
    dsimp only
    split
    · exact .refl ep
    · next kind kinds _ =>
      have h := firing_timerFired kind { ep with expired := kinds }
      obtain ⟨_, _, _, _, heq⟩ := h
      rw [heq]
      exact .of_eq rfl rfl
  | disconnectWritten =>
    unfold react
    dsimp only
    split
    · obtain ⟨_, _, _, _, _, heq⟩ := Receiving.asyncClose { ep with disconnects := ep.disconnects - 1 }
      rw [heq]
      exact .of_eq rfl rfl
    · exact .refl ep
  | setPingreqSendInterval duration =>
    obtain ⟨_, _, heq⟩ := timed_setPingreqSendInterval duration ep
    rw [react, heq]
    exact .of_eq rfl rfl
  | passOn op =>
    unfold react
    dsimp only
    split <;> exact .of_eq rfl rfl

/-! ### The loop of `send_publish_from_queue` -/

/-- `recv_op` is in the loop. -/
def isResending (ep : Endpoint role pb) : Bool :=
  match ep.recvOp.map RecvOp.state with
  | some (.resend _) => true
  | _ => false

/-- Outside of the loop every input is handled. -/
theorem step_of_not_resending (h : ep.isResending = false) (i : Input pb) :
    ep.step i = ep.react i := by
  unfold isResending at h
  unfold step
  split
  · rfl
  · next op hop =>
    split
    · next hstate => simp [hop, hstate] at h
    · next hstate _ => simp [hop, hstate] at h
    · rfl

/-- In the loop, nothing happens but its turns. -/
theorem step_of_resending (h : ep.isResending) (i : Input pb) :
    ep.step i = ep ∨ i = .resend ∧ ∃ op vacancy, ep.recvOp = some op ∧
      op.state = .resend vacancy ∧ ep.step i = ep.resend op vacancy := by
  unfold isResending at h
  unfold step
  split
  · next hop => simp [hop] at h
  · next op hop =>
    split
    · next hstate => exact .inr ⟨rfl, op, _, hop, hstate, rfl⟩
    · exact .inl rfl
    · next hne _ =>
      -- the state is known to be that of the loop
      simp only [hop, Option.map_some] at h
      split at h
      · next vacancy hstate => exact (hne vacancy (Option.some.inj hstate)).elim
      · exact nomatch h

end Endpoint

end AsyncMqtt
