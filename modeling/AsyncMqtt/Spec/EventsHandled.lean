import AsyncMqtt.ForStd.Run
import AsyncMqtt.Spec.AutoResponse
import AsyncMqtt.Spec.EndpointSteps

/-!
# The assertions of an endpoint

The operations of an endpoint have a branch for some of the calls that the connection makes, and
`BOOST_ASSERT(false)` for the others. What they take for granted does not always hold: a DISCONNECT
may be sent while a PINGRESP is awaited, the peer may not accept packets of the size of an answer,
events may be left over from an operation whose write has failed. `Endpoint.Prepared` says when a
step is none of these.

## Key results

- `Endpoint.Sound.processSend`, `Endpoint.processRecv_sound`: a list of events that is handled
- `Endpoint.no_assertion_fails`: no assertion fails in a run of prepared steps
- `Endpoint.disconnect_asserts`, `Endpoint.answer_asserts`: runs in which one does
-/

namespace AsyncMqtt

/-- `send_op` has a branch for the call. -/
def Event.handledBySend {pb : PacketIdBytes} : Event pb → Bool
  | .timerOp .reset .pingreqRecv _ | .timerOp .cancel .pingrespRecv _ | .receive _ => false
  | _ => true

/-- `recv_op` has a branch for the call. -/
def Event.handledByRecv {pb : PacketIdBytes} : Event pb → Bool
  | .timerOp .reset .pingrespRecv _ => false
  | .send _ release => release.isNone
  | _ => true

namespace Connection

variable {role : Role} {pb : PacketIdBytes} {c : Connection role pb}

/-! ### What the connection calls -/

/-- A packet that can be sent without a call that `send_op` does not handle: the connection does
    not end while a PINGRESP is awaited. -/
def HandlesSend (c : Connection role pb) (pv : PacketVariant pb) : Prop :=
  pv.cancelsTimers → c.passesChecks pv → c.pingrespRecvSet = false

/-- `send_op` can handle every event of a packet that is sent. -/
theorem send_handledBySend {pv : PacketVariant pb} (h : c.HandlesSend pv) :
    ∀ e ∈ (c.send pv).events, e.handledBySend := by
  intro e he
  have hsends := c.send_events pv e he
  cases e with
  -- a send only resets and cancels timers, and the pingresp timer is cancelled only by what it
  -- handles
  | timerOp op kind ms =>
    cases op with
    | reset => cases kind <;> first | rfl | exact hsends.elim
    | cancel =>
      cases kind with
      | pingreqSend => rfl
      | pingreqRecv => rfl
      | pingrespRecv =>
        obtain ⟨hcancels, hset⟩ := hsends
        by_cases hpass : c.passesChecks pv
        · exact absurd hset (by rw [isSet, h hcancels hpass]; exact Bool.false_ne_true)
        · -- a packet that is refused cancels nothing
          have hrefused := refusals_of_not_passes hpass _ he
          cases hrefused
  | receive p => exact hsends.elim
  | _ => rfl

/-- `recv_op` can handle every event of a step that responds. -/
theorem Responds.handledByRecv {s : Step role pb} (h : Responds c s) :
    ∀ e ∈ s.events, e.handledByRecv := by
  induction h with
  | update h => exact nofun
  | report c h =>
    intro e he
    obtain rfl := List.mem_singleton.mp he
    cases e <;> first | rfl | exact nomatch h
  | @answer c r h hping =>
    intro e he
    have hsends := c.send_events r e he
    cases e with
    | timerOp op kind ms =>
      cases op with
      | reset => cases kind <;> first | rfl | exact absurd hsends.1 hping
      | cancel => cases kind <;> rfl
    | send pv release =>
      -- what is sent is none of the packets whose identifier is given back
      cases release with
      | none => rfl
      | some packetId =>
        rcases hsends rfl with htype | htype | htype <;>
          simp [PacketVariant.isAnswer, htype] at h
    | _ => rfl
  | stored c =>
    intro e he
    rcases mem_sendStored he with ⟨pv, rfl⟩ | ⟨packetId, rfl⟩ <;> rfl
  | pingreqRecvOp c =>
    intro e he
    unfold Connection.pingreqRecvOp at he
    split at he
    · exact nomatch he
    · split at he <;> exact List.mem_singleton.mp he ▸ rfl
  | cancelTimers c =>
    intro e he
    obtain ⟨kind, -, rfl⟩ := mem_cancelTimers.mp he
    cases kind <;> rfl
  | interval c duration h =>
    intro e he
    unfold setPingreqSendInterval at he
    split at he <;> exact List.mem_singleton.mp he ▸ rfl
  | pingresp c => exact fun e he => List.mem_singleton.mp he ▸ rfl
  | trans h h' ih ih' =>
    intro e he
    exact (List.mem_append.mp he).elim (ih e) (ih' e)

/-- Giving identifiers back is reported, and nothing else. -/
theorem mem_releasePacketIds {ids : List Nat} {c : Connection role pb} {e : Event pb}
    (h : e ∈ (c.releasePacketIds ids).events) : ∃ packetId, e = .packetIdRelease packetId := by
  induction ids generalizing c with
  | nil => cases h
  | cons packetId ids ih =>
    rw [releasePacketIds, Step.events_andThen, List.mem_append] at h
    rcases h with h | h
    · unfold releasePacketId at h
      split at h
      · exact ⟨packetId, List.mem_singleton.mp h⟩
      · cases h
    · exact ih h

/-- When the connection has ended, timers are cancelled and packet identifiers released. -/
theorem mem_notifyClosed {e : Event pb} (h : e ∈ c.notifyClosed.events) :
    (∃ kind, e = .timerOp .cancel kind none) ∨ ∃ packetId, e = .packetIdRelease packetId := by
  unfold notifyClosed at h
  dsimp only at h
  rw [Step.events_andThen, List.mem_append] at h
  rcases h with h | h
  · right
    split at h
    · simp only [Step.events_andThen, List.mem_append, List.not_mem_nil, or_false] at h
      rcases h with h | h <;> exact mem_releasePacketIds h
    · simp only [Step.events_andThen, List.mem_append, List.not_mem_nil, or_false] at h
      rcases h with ((((h | h) | h) | h) | h) <;> exact mem_releasePacketIds h
  · left
    obtain ⟨kind, -, rfl⟩ := mem_cancelTimers.mp h
    exact ⟨kind, rfl⟩

/-- The DISCONNECT of a timer, after the timers have been cancelled. -/
theorem send_disconnect_events {reasonCode : UInt8} (h : canDisconnect c.line) :
    (c.send (.v5Disconnect (V5.disconnectOf reasonCode))).events =
      ({ c with status := .disconnected } : Connection role pb).cancelTimers.events ++
        [.send (.v5Disconnect (V5.disconnectOf reasonCode)) none, .close] := by
  obtain ⟨hallowed, hsize⟩ := Bool.and_eq_true_iff.mp (passesChecks_disconnect c reasonCode ▸ h)
  have hreset : ∀ c : Connection role pb, c.status = .disconnected → c.resetPingreqSend.events = [] := by
    intro c hstatus
    rw [resetPingreqSend, if_neg fun h => h.2.2 hstatus]
  have hok : (c.processSendActual (.v5Disconnect (V5.disconnectOf reasonCode))).ok = true := rfl
  rw [send_of_allowed hallowed hsize, if_pos hok, if_neg (by exact nofun), Step.events_andThen,
    processSendActual, sendDisconnect, hreset]
  · simp
  · rw [Step.conn_emit, Step.conn_emit, cancelTimers_conn]

/-- The PINGREQ of a timer. -/
theorem send_pingreq_events {pv : PacketVariant pb}
    (hpv : pv = .v311Pingreq (TwoBytePacket.make .pingreq) ∨
      pv = .v5Pingreq (TwoBytePacket.make .pingreq)) (hpass : c.passesChecks pv) :
    ∀ e ∈ (c.send pv).events, e = .send pv none ∨
      (∃ ms, e = .timerOp .reset .pingrespRecv ms) ∨ ∃ ms, e = .timerOp .reset .pingreqSend ms := by
  obtain ⟨hallowed, hsize⟩ := Bool.and_eq_true_iff.mp hpass
  have hping : ∀ e ∈ (c.sendPingreq pv).step.events, e = .send pv none ∨
      ∃ ms, e = .timerOp .reset .pingrespRecv ms := by
    intro e he
    unfold sendPingreq at he
    split at he
    · exact .inl (List.mem_singleton.mp he)
    · simp only [List.mem_cons, List.not_mem_nil, or_false] at he
      exact he.imp id fun he => ⟨_, he⟩
  have hactual : c.processSendActual pv = c.sendPingreq pv := by rcases hpv with rfl | rfl <;> rfl
  have htype : pv.type = .pingreq := by rcases hpv with rfl | rfl <;> rfl
  have hok : (c.sendPingreq pv).ok = true := by unfold sendPingreq; split <;> rfl
  intro e he
  rw [send_of_allowed hallowed hsize, hactual, if_pos hok, if_neg (by rw [htype]; rintro ⟨⟩),
    Step.events_andThen, List.mem_append] at he
  rcases he with he | he
  · exact (hping e he).imp id .inl
  · obtain ⟨-, ms, rfl⟩ := mem_resetPingreqSend he
    exact .inr (.inr ⟨_, rfl⟩)

/-- The timer that sends a PINGREQ sends it, if it fits. -/
theorem mem_pingreqSend (hrole : canSendAsClient role)
    (hfits : c.status = .connected → 2 ≤ c.maximumPacketSizeSend) :
    ∃ pv, ∀ e ∈ (c.notifyTimerFired .pingreqSend).events, e = .send pv none ∨
      (∃ ms, e = .timerOp .reset .pingrespRecv ms) ∨ ∃ ms, e = .timerOp .reset .pingreqSend ms := by
  have hpass : ∀ {pv : PacketVariant pb} {c : Connection role pb}, pv.type = .pingreq →
      pv.version = c.protocolVersion → c.status = .connected →
      pv.size ≤ c.maximumPacketSizeSend → c.passesChecks pv := by
    intro pv c htype hversion hstatus hsize
    simp [passesChecks, sendAllowed, PacketVariant.isClientSendable, htype, hrole, hstatus,
      versionCheck, hversion, validateMaximumPacketSize, hsize]
  unfold notifyTimerFired
  dsimp only
  -- a PINGREQ of the version, or nothing while the version is open
  split
  · next hversion =>
    refine ⟨.v311Pingreq (TwoBytePacket.make .pingreq), ?_⟩
    split
    · next hstatus =>
      exact send_pingreq_events (.inl rfl) (hpass rfl hversion.symm hstatus (hfits hstatus))
    · rintro _ ⟨⟩
  · next hversion =>
    refine ⟨.v5Pingreq (TwoBytePacket.make .pingreq), ?_⟩
    split
    · next hstatus =>
      exact send_pingreq_events (.inr rfl) (hpass rfl hversion.symm hstatus (hfits hstatus))
    · rintro _ ⟨⟩
  · exact ⟨.v5Pingreq (TwoBytePacket.make .pingreq), by rintro _ ⟨⟩⟩

end Connection

namespace Endpoint

variable {role : Role} {pb : PacketIdBytes} {ep : Endpoint role pb}

/-! ### Timers and sending -/

/-- No assertion has failed, only timers that the role has are armed, and the operations that wait
    have only events to handle for which they have a branch. -/
structure Sound (ep : Endpoint role pb) : Prop where
  noFailure : .assertFailed ∉ ep.out
  armed : ∀ kind, ep.armed kind → hasTimer role kind
  expired : ∀ kind ∈ ep.expired, hasTimer role kind
  handled : ∀ op ∈ ep.sendOps, ∀ e ∈ op.events, e.handledBySend
  noError : ∀ op ∈ ep.sendOps, ∀ ec, .error ec ∉ op.events

namespace Sound

/-- A new endpoint -/
theorem make (ver : ProtocolVersion) : Sound (Endpoint.make role pb ver) where
  noFailure := List.not_mem_nil
  armed _ h := absurd h Bool.false_ne_true
  expired _ h := absurd h List.not_mem_nil
  handled _ h := absurd h List.not_mem_nil
  noError _ h := absurd h List.not_mem_nil

/-- Only the output, the timers and the operations count. -/
theorem of_eq {ep' : Endpoint role pb} (h : Sound ep) (hout : ep'.out = ep.out)
    (harmed : ep'.armed = ep.armed) (hexpired : ep'.expired = ep.expired)
    (hops : ep'.sendOps = ep.sendOps) : Sound ep' where
  noFailure := hout ▸ h.noFailure
  armed := harmed ▸ h.armed
  expired := hexpired ▸ h.expired
  handled := hops ▸ h.handled
  noError := hops ▸ h.noError

/-- An output that is no failed assertion -/
theorem emit (h : Sound ep) {o : EndpointOutput pb} (ho : o ≠ .assertFailed) :
    Sound (ep.emit o) := by
  refine { h with noFailure := fun hmem => ?_ }
  rcases List.mem_append.mp hmem with hmem | hmem
  · exact h.noFailure hmem
  · exact ho (List.mem_singleton.mp hmem).symm

/-- An assertion that holds -/
theorem assert (h : Sound ep) {cond : Bool} (hcond : cond = true) : Sound (ep.assert cond) := by
  rw [Endpoint.assert, if_pos hcond]
  exact h

/-- A timer is cancelled. -/
theorem cancelTimer (h : Sound ep) (kind : TimerKind) : Sound (ep.cancelTimer kind) := by
  refine { h with armed := fun kind' harmed => ?_ }
  by_cases hkind : kind' = kind
  · simp [Endpoint.cancelTimer, hkind] at harmed
  · exact h.armed kind' (by simpa [Endpoint.cancelTimer, hkind] using harmed)

/-- A timer of the role is armed. -/
theorem armTimer (h : Sound ep) {kind : TimerKind} (hkind : hasTimer role kind) :
    Sound (ep.armTimer kind) := by
  refine { h with armed := fun kind' harmed => ?_ }
  by_cases heq : kind' = kind
  · exact heq ▸ hkind
  · exact h.armed kind' (by simpa [Endpoint.armTimer, heq] using harmed)

/-- The timer for the PINGREQ is set or not. -/
theorem resetPingreqSendTimer (h : Sound ep) (ms : Option Nat) :
    Sound (ep.resetPingreqSendTimer ms) := by
  unfold Endpoint.resetPingreqSendTimer
  split
  · next hrole => exact (h.cancelTimer _).armTimer hrole.1
  · exact h.cancelTimer _

/-- The timer for the PINGREQ of the client is set or not. -/
theorem resetPingreqRecvTimer (h : Sound ep) (ms : Option Nat) :
    Sound (ep.resetPingreqRecvTimer ms) := by
  unfold Endpoint.resetPingreqRecvTimer
  split
  · next hrole => exact (h.cancelTimer _).armTimer hrole.1
  · exact h.cancelTimer _

/-- The timer for the PINGRESP is set or not. -/
theorem resetPingrespRecvTimer (h : Sound ep) (ms : Option Nat) :
    Sound (ep.resetPingrespRecvTimer ms) := by
  unfold Endpoint.resetPingrespRecvTimer
  split
  · next hrole => exact (h.cancelTimer _).armTimer hrole.1
  · exact h

/-- `send_op` handles a timer that it may set. -/
theorem sendTimer (h : Sound ep) {op : TimerOp} {kind : TimerKind} {ms : Option Nat}
    (he : (Event.timerOp op kind ms : Event pb).handledBySend) :
    Sound (ep.sendTimer op kind ms) := by
  cases kind <;> cases op
  · exact h.resetPingreqSendTimer ms
  · exact h.cancelTimer _
  · exact nomatch he
  · exact h.cancelTimer _
  · exact h.resetPingrespRecvTimer ms
  · exact nomatch he

/-- `recv_op` handles a timer that it may set. -/
theorem recvTimer (h : Sound ep) {op : TimerOp} {kind : TimerKind} {ms : Option Nat}
    (he : (Event.timerOp op kind ms : Event pb).handledByRecv) :
    Sound (ep.recvTimer op kind ms) := by
  cases kind <;> cases op
  · exact h.resetPingreqSendTimer ms
  · exact h.cancelTimer _
  · exact h.resetPingreqRecvTimer ms
  · exact h.cancelTimer _
  · exact nomatch he
  · exact h.resetPingrespRecvTimer ms

/-- An operation that waits with these events. -/
theorem push (h : Sound ep) (op : SendOp pb) (hes : ∀ e ∈ op.events, e.handledBySend)
    (herror : ∀ ec, .error ec ∉ op.events) : Sound { ep with sendOps := ep.sendOps ++ [op] } := by
  refine { h with handled := fun o ho => ?_, noError := fun o ho => ?_ }
  · rcases List.mem_append.mp ho with ho | ho
    · exact h.handled o ho
    · exact List.mem_singleton.mp ho ▸ hes
  · rcases List.mem_append.mp ho with ho | ho
    · exact h.noError o ho
    · exact List.mem_singleton.mp ho ▸ herror

/-- `send_op` works through events without errors. -/
theorem processSend (h : Sound ep) {es : List (Event pb)} (hes : ∀ e ∈ es, e.handledBySend)
    (herror : ∀ ec, .error ec ∉ es) (op : SendOp pb) : Sound (ep.processSend es op) := by
  -- the events are handled one by one, and what is left is as good as the whole
  induction es generalizing op ep with
  | nil => exact h.emit nofun
  | cons e es ih =>
    have hrest : ∀ e ∈ es, e.handledBySend := fun e he => hes e (List.mem_cons_of_mem _ he)
    have herest : ∀ ec, .error ec ∉ es := fun ec hec => herror ec (List.mem_cons_of_mem _ hec)
    have he := hes e (List.mem_cons_self ..)
    cases e with
    | error ec => exact absurd (List.mem_cons_self ..) (herror ec)
    | close => exact h.push { op with events := es, state := .close } hrest herest
    | send p release =>
      have hemit : Sound (ep.emit (.asyncWritePacket p)) := h.emit nofun
      exact hemit.push { op with events := es, state := .sent release } hrest herest
    | packetIdRelease packetId => exact ih h hrest herest op
    | receive p => exact nomatch he
    | timerOp o kind ms => exact ih (h.sendTimer he) hrest herest op
    | threw x => exact h
    | outOfBounds => exact h

/-- `send_op` with a packet that is refused, but not because of the receive maximum. -/
theorem refused (h : Sound ep) {es : List (Event pb)} (hes : ∀ e ∈ es, e.isRefusal = true)
    {op : SendOp pb} (hne : op.asVariant = false → .error Connection.maximumExceeded ∉ es) :
    Sound (ep.processSend es op) := by
  -- a refusal has no packet to send, so the operation completes after its errors
  induction es generalizing op ep with
  | nil => exact h.emit (by rintro ⟨⟩)
  | cons e es ih =>
    have hrest : ∀ e ∈ es, e.isRefusal = true := fun e he => hes e (List.mem_cons_of_mem _ he)
    have hnerest : op.asVariant = false → .error Connection.maximumExceeded ∉ es :=
      fun hv he => hne hv (List.mem_cons_of_mem e he)
    have he := hes e (List.mem_cons_self ..)
    cases e with
    | error ec =>
      have hop : { op with decidedError := some (.code ec) }.asVariant = false →
          .error Connection.maximumExceeded ∉ es := hnerest
      rw [Endpoint.processSend]
      unfold sendError
      split
      · next hv =>
        have hec : ec ≠ .disconnect DisconnectReasonCode.receiveMaximumExceeded :=
          fun heq => hne hv (heq ▸ List.mem_cons_self ..)
        rw [if_neg hec]
        exact ih h hrest hop
      · exact ih h hrest hop
    | packetIdRelease packetId => exact ih h hrest hnerest
    | threw x => exact h
    | _ => cases he

/-- `async_send` of a packet that is handled. -/
theorem asyncSend (h : Sound ep) {p : PacketVariant pb} {v : Bool} (hp : ep.con.HandlesSend p)
    (hid : ∀ q, p = .v5Publish q → v = false → ep.con.exceedsMaximum q → q.packetId ≠ 0) :
    Sound (ep.asyncSend p v) := by
  have hcon : Sound { ep with con := (ep.con.send p).conn } := h.of_eq rfl rfl rfl rfl
  by_cases herror : ∃ ec, .error ec ∈ (ep.con.send p).events
  · obtain ⟨ec, hec⟩ := herror
    by_cases hexceeds : v = false ∧ .error Connection.maximumExceeded ∈ (ep.con.send p).events
    · obtain ⟨rfl, hmax⟩ := hexceeds
      obtain ⟨q, rfl, hq⟩ := Connection.exceedsMaximum_of_error hmax
      obtain ⟨tas, m, hsend⟩ := asyncSend_of_exceedsMaximum hq (hid q rfl rfl hq)
      have hemit : Sound (ep.emit (.sendCompleted (.v5Publish q) (some .packetEnqueued))) :=
        h.emit nofun
      rw [hsend]
      exact hemit.of_eq rfl rfl rfl rfl
    · exact hcon.refused (Connection.refusals_of_error hec) fun hv hmem => hexceeds ⟨hv, hmem⟩
  · exact hcon.processSend (Connection.send_handledBySend hp) (fun ec hec => herror ⟨ec, hec⟩) _

end Sound

/-! ### Receiving -/

/-- With these events `recv_op` gets errors only, or one packet and no error. -/
def OneOutcome (op : RecvOp pb) (es : List (Event pb)) : Prop :=
  op.recvPacket.toList ++ receives es = [] ∨
    op.decidedError = none ∧ errors es = [] ∧ (op.recvPacket.toList ++ receives es).length = 1

/-- What a `recv_op` that waits has got so far. -/
def Waits (op : RecvOp pb) (es : List (Event pb)) : Prop :=
  match op.state with
  | .readIstream | .read => op.decidedError = none ∧ op.recvPacket = none
  | .sent | .closed => OneOutcome op es
  | .complete => op.decidedError.isSome
  | .resend _ => True

/-- The events that are left are handled. -/
structure RecvSound (ep : Endpoint role pb) : Prop where
  recvEvents : ∀ e ∈ ep.recvEvents, e.handledByRecv
  recvOp : ∀ op ∈ ep.recvOp, Waits op ep.recvEvents

/-- Looking whether bytes are left -/
theorem Sound.checkBuf (h : Sound ep) (op : RecvOp pb) : Sound (ep.checkBuf op) :=
  h.of_eq rfl rfl rfl rfl

/-- A close begins, or the endpoint is closed already. -/
theorem Sound.asyncClose (h : Sound ep) : Sound ep.asyncClose.1 := by
  unfold Endpoint.asyncClose
  split
  · exact h.of_eq rfl rfl rfl rfl
  · exact h
  · exact h

/-- A close does not touch `recv_op`. -/
theorem asyncClose_recv (ep : Endpoint role pb) :
    ep.asyncClose.1.recvEvents = ep.recvEvents ∧ ep.asyncClose.1.recvOp = ep.recvOp := by
  unfold asyncClose
  split <;> exact ⟨rfl, rfl⟩

/-- `recv_op` ends. -/
theorem Sound.recvComplete (h : Sound ep) (ec : Option EndpointError)
    (p : Option (PacketVariant pb)) : Sound (ep.recvComplete ec p) := by
  have hnone : Sound { ep with recvOp := none } := h.of_eq rfl rfl rfl rfl
  exact hnone.emit nofun

/-- No receiving is under way. -/
theorem RecvSound.idle (hes : ∀ e ∈ ep.recvEvents, e.handledByRecv) (hnone : ep.recvOp = none) :
    RecvSound ep := by
  refine ⟨hes, fun op hop => ?_⟩
  rw [hnone] at hop
  exact nomatch hop

/-- Receiving goes on without an error or a packet. -/
theorem RecvSound.checkBuf (hes : ∀ e ∈ ep.recvEvents, e.handledByRecv) {op : RecvOp pb}
    (hop : op.decidedError = none ∧ op.recvPacket = none) : RecvSound (ep.checkBuf op) := by
  refine ⟨hes, fun op' hop' => ?_⟩
  obtain rfl := Option.some.inj hop'
  unfold Waits
  by_cases hbuf : ep.readBuf = []
  · rw [if_pos hbuf]
    exact hop
  · rw [if_neg hbuf]
    exact hop

/-- `recv_op` that has got an error or a packet. -/
theorem recvFinish_sound (h : Sound ep) (hes : ∀ e ∈ ep.recvEvents, e.handledByRecv)
    {op : RecvOp pb} (hop : op.decidedError.isSome ∨ op.recvPacket.isSome) :
    Sound (ep.recvFinish op) ∧ RecvSound (ep.recvFinish op) := by
  unfold recvFinish
  split
  · exact ⟨h.recvComplete _ _, .idle hes rfl⟩
  · next herror hpacket => simp [herror, hpacket] at hop
  · next herror _ =>
    split
    · exact ⟨h.checkBuf _, .checkBuf hes ⟨herror, rfl⟩⟩
    · split
      · refine ⟨h.of_eq rfl rfl rfl rfl, hes, fun op' hop' => ?_⟩
        obtain rfl := Option.some.inj hop'
        trivial
      · exact ⟨h.recvComplete _ _, .idle hes rfl⟩

/-- `recv_op` works through events that are handled. -/
theorem processRecv_sound (h : Sound ep) {es : List (Event pb)}
    (hes : ∀ e ∈ es, e.handledByRecv) {op : RecvOp pb} (hop : OneOutcome op es) :
    Sound (ep.processRecv es op) ∧ RecvSound (ep.processRecv es op) := by
  induction es generalizing op ep with
  | nil =>
    have hdone : Sound { ep with recvEvents := [] } := h.of_eq rfl rfl rfl rfl
    have hnil : ∀ e ∈ ({ ep with recvEvents := [] } : Endpoint role pb).recvEvents,
        e.handledByRecv := fun e he => absurd he List.not_mem_nil
    rw [processRecv, recvProcessed]
    split
    · next hnone =>
      have hop' : op.decidedError = none ∧ op.recvPacket = none := by simpa using hnone
      exact ⟨hdone.checkBuf op, .checkBuf hnil hop'⟩
    · next hsome =>
      -- either an error or a packet
      have hxor : (op.decidedError.isSome != op.recvPacket.isSome) = true := by
        rcases hop with hpacket | ⟨herror, -, hpacket⟩
        · cases hp : op.recvPacket <;> cases he : op.decidedError <;> simp_all
        · cases hp : op.recvPacket <;> cases he : op.decidedError <;> simp_all
      have hor : op.decidedError.isSome ∨ op.recvPacket.isSome := by
        cases hp : op.recvPacket <;> cases he : op.decidedError <;> simp_all
      rw [Endpoint.assert, if_pos hxor]
      exact recvFinish_sound hdone hnil hor
  | cons e es ih =>
    have hrest : ∀ e ∈ es, e.handledByRecv := fun e he => hes e (List.mem_cons_of_mem _ he)
    have he := hes e (List.mem_cons_self ..)
    cases e with
    | error ec =>
      refine ih h hrest (.inl ?_)
      rcases hop with hpacket | ⟨-, hnone, -⟩
      · exact hpacket
      · cases hnone
    | close =>
      have hclose := h.asyncClose
      have hrecv := ep.asyncClose_recv
      rw [processRecv]
      rcases hc : ep.asyncClose with ⟨ep', closed⟩
      rw [hc] at hclose hrecv
      cases closed with
      | true => exact ih hclose hrest hop
      | false =>
        refine ⟨hclose.of_eq rfl rfl rfl rfl, hrest, fun op' hop' => ?_⟩
        obtain rfl := Option.some.inj hop'
        exact hop
    | send p release =>
      have hrelease : release.isNone = true := he
      have hemit : Sound (ep.emit (.asyncWritePacket p)) := h.emit (by rintro ⟨⟩)
      rw [processRecv, Endpoint.assert, if_pos hrelease]
      refine ⟨hemit.of_eq rfl rfl rfl rfl, hrest, fun op' hop' => ?_⟩
      obtain rfl := Option.some.inj hop'
      exact hop
    | packetIdRelease packetId => exact ih h hrest hop
    | receive p =>
      have hnone : op.recvPacket = none := by
        rcases hop with hpacket | ⟨-, -, hpacket⟩
        · simp [receives] at hpacket
        · cases hp : op.recvPacket with
          | none => rfl
          | some p' => simp [hp, receives] at hpacket
      rw [processRecv, Endpoint.assert, if_pos (by rw [hnone]; rfl)]
      refine ih h hrest (.inr ?_)
      rcases hop with hpacket | ⟨herror, herrors, hpacket⟩
      · simp [receives] at hpacket
      · refine ⟨herror, herrors, ?_⟩
        rw [hnone] at hpacket
        exact hpacket
    | timerOp o kind ms => exact ih (h.recvTimer he) hrest hop
    | threw x => exact ⟨h.of_eq rfl rfl rfl rfl, .idle hrest rfl⟩
    | outOfBounds => exact ⟨h.of_eq rfl rfl rfl rfl, .idle hrest rfl⟩

/-! ### Timers that fire -/

/-- The handler of a timer has a branch for every call that the connection makes. The PINGREQ or
    DISCONNECT fits, and the DISCONNECT ends no other timer than the handler expects. -/
def TimerFits (c : Connection role pb) : TimerKind → Prop
  | .pingreqSend => c.status = .connected → 2 ≤ c.maximumPacketSizeSend
  | .pingreqRecv => c.protocolVersion = .v5 → c.status = .connected →
    3 ≤ c.maximumPacketSizeSend ∧ c.pingreqSendSet = false ∧ c.pingrespRecvSet = false
  | .pingrespRecv => c.protocolVersion = .v5 → c.status = .connected →
    3 ≤ c.maximumPacketSizeSend ∧ c.pingreqRecvSet = false

/-- The handler of the timer that sends a PINGREQ. -/
theorem Sound.pingreqSendHandler (h : Sound ep) {pv : PacketVariant pb} {es : List (Event pb)}
    (hes : ∀ e ∈ es, e = .send pv none ∨ (∃ ms, e = .timerOp .reset .pingrespRecv ms) ∨
      ∃ ms, e = .timerOp .reset .pingreqSend ms) : Sound (ep.pingreqSendHandler es) := by
  induction es generalizing ep with
  | nil => exact h
  | cons e es ih =>
    have hrest := fun e he => hes e (List.mem_cons_of_mem _ he)
    rcases hes e (List.mem_cons_self ..) with rfl | ⟨ms, rfl⟩ | ⟨ms, rfl⟩
    · have hemit : Sound (ep.emit (.asyncWritePacket pv)) := h.emit nofun
      exact ih hemit hrest
    · exact ih (h.resetPingrespRecvTimer ms) hrest
    · exact ih (h.resetPingreqSendTimer ms) hrest

/-- The DISCONNECT of a timer is the last event of its handler. -/
theorem Sound.timerDisconnect (h : Sound ep) {p : PacketVariant pb}
    (hp : p.version = .v5 ∧ p.type = .disconnect) {last : Bool} (hlast : last = true) :
    Sound (ep.timerDisconnect p last) := by
  have hassert := (h.assert (decide_eq_true hp)).assert hlast
  have hemit := hassert.emit (o := .asyncWritePacket p) nofun
  exact hemit.of_eq rfl rfl rfl rfl

/-- Timers are cancelled that the handler expects, then the DISCONNECT is sent. -/
theorem Sound.recvTimerHandler (h : Sound ep) {own : TimerKind} {es : List (Event pb)}
    {p : PacketVariant pb} (hp : p.version = .v5 ∧ p.type = .disconnect)
    (hes : ∀ e ∈ es, ∃ kind, e = .timerOp .cancel kind none ∧
      (own = .pingrespRecv ∧ kind = .pingreqSend)) :
    Sound (ep.recvTimerHandler own (es ++ [.send p none, .close])) := by
  induction es generalizing ep with
  | nil =>
    rw [List.nil_append, Endpoint.recvTimerHandler, Endpoint.recvTimerHandler]
    exact h.timerDisconnect hp (decide_eq_true ⟨rfl, rfl⟩)
  | cons e es ih =>
    have hrest := fun e he => hes e (List.mem_cons_of_mem _ he)
    obtain ⟨kind, rfl, rfl, rfl⟩ := hes e (List.mem_cons_self ..)
    exact ih (h.cancelTimer .pingreqSend) hrest

/-- A timer that closes -/
theorem Sound.asyncClose_handler (h : Sound ep) (own : TimerKind) :
    Sound (ep.recvTimerHandler own [.close]) := by
  rw [Endpoint.recvTimerHandler, Endpoint.recvTimerHandler]
  exact h.asyncClose

/-- A timer of the receiving side. `c` is its connection without the flag of the timer. -/
theorem Sound.recvTimerFired (h : Sound ep) {own : TimerKind} {c : Connection role pb}
    (hsize : c.protocolVersion = .v5 → c.status = .connected → 3 ≤ c.maximumPacketSizeSend)
    (hset : c.protocolVersion = .v5 → c.status = .connected →
      ∀ kind, c.isSet kind → own = .pingrespRecv ∧ kind = .pingreqSend) :
    Sound (ep.recvTimerHandler own c.recvTimerFired.events) := by
  unfold Connection.recvTimerFired
  -- the connection closes in v3.1.1, and sends a DISCONNECT in v5
  split
  · exact h.asyncClose_handler own
  · next hversion =>
    split
    · next hstatus =>
      have hcan : Connection.canDisconnect c.line := by
        simp [Connection.canDisconnect, Connection.line, hversion, hstatus, hsize hversion hstatus]
      rw [Connection.send_disconnect_events hcan]
      refine h.recvTimerHandler ⟨rfl, rfl⟩ fun e he => ?_
      obtain ⟨kind, hkind, rfl⟩ := Connection.mem_cancelTimers.mp he
      have hkind : c.isSet kind := by cases kind <;> exact hkind
      exact ⟨kind, rfl, hset hversion hstatus kind hkind⟩
    · exact h
  · exact h

/-- A timer whose handler is prepared. -/
theorem Sound.timerFired (h : Sound ep) {kind : TimerKind} (hrole : hasTimer role kind)
    (hfits : TimerFits ep.con kind) : Sound (ep.timerFired kind) := by
  have hcon : Sound { ep with con := (ep.con.notifyTimerFired kind).conn } :=
    h.of_eq rfl rfl rfl rfl
  cases kind with
  | pingreqSend =>
    obtain ⟨pv, hes⟩ := Connection.mem_pingreqSend hrole hfits
    exact hcon.pingreqSendHandler hes
  | pingreqRecv =>
    refine hcon.recvTimerFired (fun hv hs => (hfits hv hs).1) fun hv hs kind hkind => ?_
    obtain ⟨-, hsend, hresp⟩ := hfits hv hs
    cases kind <;> simp_all [Connection.isSet]
  | pingrespRecv =>
    refine hcon.recvTimerFired (fun hv hs => (hfits hv hs).1) fun hv hs kind hkind => ?_
    obtain ⟨-, hrecv⟩ := hfits hv hs
    cases kind <;> simp_all [Connection.isSet]

/-! ### A step -/

/-- Only the events and the operation of receiving count. -/
theorem RecvSound.of_eq {ep' : Endpoint role pb} (h : RecvSound ep)
    (hevents : ep'.recvEvents = ep.recvEvents) (hop : ep'.recvOp = ep.recvOp) : RecvSound ep' where
  recvEvents := hevents ▸ h.recvEvents
  recvOp op hmem := hevents ▸ h.recvOp op (hop ▸ hmem)

/-- Sending does not touch the receiving. -/
theorem RecvSound.processSend (h : RecvSound ep) (es : List (Event pb)) (op : SendOp pb) :
    RecvSound (ep.processSend es op) := by
  obtain ⟨_, _, _, _, _, heq, -⟩ := Sending.processSend es op ep
  rw [heq]
  exact h.of_eq rfl rfl

/-- Sending a packet does not touch the receiving. -/
theorem RecvSound.asyncSend (h : RecvSound ep) (p : PacketVariant pb) (v : Bool) :
    RecvSound (ep.asyncSend p v) := by
  have hcon : RecvSound { ep with con := (ep.con.send p).conn } := h.of_eq rfl rfl
  exact hcon.processSend _ _

/-- A timer that fires does not touch the receiving. -/
theorem RecvSound.firing {ep' : Endpoint role pb} (h : RecvSound ep) (h' : Firing ep ep') :
    RecvSound ep' := by
  obtain ⟨_, _, _, _, rfl⟩ := h'
  exact h.of_eq rfl rfl

/-- A close does not touch the receiving. -/
theorem RecvSound.asyncClose (h : RecvSound ep) : RecvSound ep.asyncClose.1 :=
  h.of_eq ep.asyncClose_recv.1 ep.asyncClose_recv.2

/-- The packet is sent without a call that the endpoint does not handle. -/
def Sends (ep : Endpoint role pb) (p : PacketVariant pb) (v : Bool) : Prop :=
  ep.con.HandlesSend p ∧
    ∀ q, p = .v5Publish q → v = false → ep.con.exceedsMaximum q → q.packetId ≠ 0

/-- Nothing that was received is left over, and the peer accepts the answer to what is read. -/
def Reads (ep : Endpoint role pb) (buf : List UInt8) : Prop :=
  errors ep.recvEvents = [] ∧ receives ep.recvEvents = [] ∧ ep.con.AnswerFits buf

/-- A step in which everything that the operations take for granted holds. -/
def Prepared (ep : Endpoint role pb) : Input pb → Prop
  | .asyncSend p v => ep.isResending = false → ep.Sends p v
  | .resend => ep.isResending → ∀ p ∈ ep.publishQueue.head?, ep.Sends (.v5Publish p) false
  | .readIstream => ep.recvOp.any (·.state = .readIstream) → ep.Reads ep.readBuf
  | .read data => ep.recvOp.any (·.state = .read) → ep.Reads (ep.readBuf ++ data)
  | .timerHandler => ep.isResending = false → ∀ kind ∈ ep.expired.head?, TimerFits ep.con kind
  | _ => True

/-- The property that the steps keep. -/
structure NoneFailed (ep : Endpoint role pb) : Prop where
  sound : Sound ep
  recvSound : RecvSound ep

namespace NoneFailed

/-- A new endpoint -/
theorem make (ver : ProtocolVersion) : NoneFailed (Endpoint.make role pb ver) :=
  ⟨.make ver, .idle (fun _ h => absurd h List.not_mem_nil) rfl⟩

/-- Receiving goes on if it is in the state for it. -/
theorem resumeRecv {state : RecvState} {f : RecvOp pb → Endpoint role pb → Endpoint role pb}
    (h : NoneFailed ep)
    (hf : ∀ op, ep.recvOp = some op → op.state = state → NoneFailed (f op ep)) :
    NoneFailed (ep.resumeRecv state f) := by
  unfold Endpoint.resumeRecv
  split
  · exact h
  · next op hop =>
    split
    · next hstate => exact hf op hop hstate
    · exact h

/-- An error of the stream -/
theorem recvError (h : NoneFailed ep) (op : RecvOp pb) (ec : EndpointError) :
    NoneFailed (ep.recvError op ec) := by
  unfold Endpoint.recvError
  split
  · exact ⟨h.sound.recvComplete _ _, .idle h.recvSound.recvEvents rfl⟩
  · have hsound := h.sound.asyncClose
    have hrecv := h.recvSound.asyncClose
    rcases hc : ep.asyncClose with ⟨ep', closed⟩
    rw [hc] at hsound hrecv
    -- the close completes at once, or the operation waits for it
    cases closed with
    | true =>
      have herror : ({ op with decidedError := some ec, state := .complete } : RecvOp pb
          ).decidedError.isSome := rfl
      have hfinish := recvFinish_sound hsound hrecv.recvEvents (.inl herror)
      exact ⟨hfinish.1, hfinish.2⟩
    | false =>
      refine ⟨hsound.of_eq rfl rfl rfl rfl, hrecv.recvEvents, fun op' hop' => ?_⟩
      obtain rfl := Option.some.inj hop'
      rfl

/-- `recv_op` reads a packet whose answer fits. -/
theorem readIstream (h : NoneFailed ep) {op : RecvOp pb}
    (hop : op.decidedError = none ∧ op.recvPacket = none) (hreads : ep.Reads ep.readBuf) :
    NoneFailed (ep.readIstream op) := by
  obtain ⟨herrors, hreceives, hfits⟩ := hreads
  obtain ⟨herror, hpacket⟩ := hop
  have hcon : Sound { ep with
      con := (ep.con.recv ep.readBuf).1.conn, readBuf := (ep.con.recv ep.readBuf).2 } :=
    h.sound.of_eq rfl rfl rfl rfl
  have hes : ∀ e ∈ ep.recvEvents ++ (ep.con.recv ep.readBuf).1.events, e.handledByRecv := by
    intro e he
    rcases List.mem_append.mp he with he | he
    · exact h.recvSound.recvEvents e he
    · exact (ep.con.recv_responds ep.readBuf).handledByRecv e he
  unfold Endpoint.readIstream
  dsimp only
  -- the loop reads on, or has an outcome
  split
  · refine ⟨hcon.of_eq rfl rfl rfl rfl, h.recvSound.recvEvents, fun op' hop' => ?_⟩
    obtain rfl := Option.some.inj hop'
    exact ⟨herror, hpacket⟩
  · have hone : OneOutcome op (ep.recvEvents ++ (ep.con.recv ep.readBuf).1.events) := by
      unfold OneOutcome
      rw [receives_append, errors_append, hpacket, hreceives, herrors]
      rcases Connection.received_or_error hfits with hnone | ⟨⟨pv, hpv⟩, hnone⟩
      · exact .inl hnone
      · exact .inr ⟨herror, hnone, by rw [hpv]; rfl⟩
    have hprocess := processRecv_sound hcon hes hone
    exact ⟨hprocess.1, hprocess.2⟩

/-- A sending that has to close does so with no error left among its events. -/
theorem sendClose (h : NoneFailed ep) {op : SendOp pb} {ec : Option EndpointError}
    (hop : (∀ e ∈ op.events, e.handledBySend) ∧ ∀ ec, .error ec ∉ op.events) :
    NoneFailed (ep.sendClose op ec) := by
  unfold Endpoint.sendClose
  split
  · exact ⟨h.sound.emit nofun, h.recvSound.of_eq rfl rfl⟩
  · have hsound := h.sound.asyncClose
    have hrecv := h.recvSound.asyncClose
    split
    · next hc =>
      rw [hc] at hsound hrecv
      exact ⟨hsound.emit nofun, hrecv.of_eq rfl rfl⟩
    · next hc =>
      rw [hc] at hsound hrecv
      exact ⟨hsound.push { op with state := .complete } hop.1 hop.2, hrecv.of_eq rfl rfl⟩

/-- Every call of `notify_closed` is handled. -/
theorem notifyClosed (h : NoneFailed ep) : NoneFailed ep.notifyClosed := by
  -- closing only cancels timers and gives identifiers back
  have hfold : ∀ (es : List (Event pb)), (∀ e ∈ es, (∃ kind, e = .timerOp .cancel kind none) ∨
      ∃ packetId, e = .packetIdRelease packetId) → ∀ ep : Endpoint role pb, Sound ep →
      Sound (es.foldl closeEvent ep) := by
    intro es
    induction es with
    | nil => exact fun _ _ h => h
    | cons e es ih =>
      intro hes ep h
      have hrest := fun e he => hes e (List.mem_cons_of_mem _ he)
      rcases hes e (List.mem_cons_self ..) with ⟨kind, rfl⟩ | ⟨packetId, rfl⟩
      · exact ih hrest _ (h.cancelTimer kind)
      · exact ih hrest _ h
  have hclosed : Sound { ep with status := .closed, con := ep.con.notifyClosed.conn } :=
    h.sound.of_eq rfl rfl rfl rfl
  have hrecv : RecvSound { ep with status := .closed, con := ep.con.notifyClosed.conn } :=
    h.recvSound.of_eq rfl rfl
  exact ⟨hfold _ (fun e he => Connection.mem_notifyClosed he) _ hclosed,
    hrecv.firing (timed_notifyClosed ep).firing⟩

/-- The close that a sending has waited for is done. -/
theorem sendClosed (h : NoneFailed ep) : NoneFailed ep.sendClosed := by
  refine ⟨{ h.sound with
    noFailure := fun hmem => ?_
    handled := fun op hop => h.sound.handled op (List.mem_of_mem_filter hop)
    noError := fun op hop => h.sound.noError op (List.mem_of_mem_filter hop) },
    h.recvSound.of_eq rfl rfl⟩
  rcases List.mem_append.mp hmem with hmem | hmem
  · exact h.sound.noFailure hmem
  · obtain ⟨op, -, hop⟩ := List.mem_map.mp hmem
    exact nomatch hop

/-- The stream is closed. -/
theorem streamClosed (h : NoneFailed ep) : NoneFailed ep.streamClosed := by
  have hclosed := h.notifyClosed.sendClosed
  unfold Endpoint.streamClosed
  dsimp only
  split
  · exact hclosed
  -- an operation that waited for the close goes on
  · next op hop =>
    have hwaits := hclosed.recvSound.recvOp op hop
    split
    · next hstate =>
      have hone : OneOutcome op ep.notifyClosed.sendClosed.recvEvents := by
        simpa only [Waits, hstate] using hwaits
      have hprocess := processRecv_sound hclosed.sound hclosed.recvSound.recvEvents hone
      exact ⟨hprocess.1, hprocess.2⟩
    · next hstate =>
      have herror : op.decidedError.isSome := by simpa only [Waits, hstate] using hwaits
      have hfinish := recvFinish_sound hclosed.sound hclosed.recvSound.recvEvents (.inl herror)
      exact ⟨hfinish.1, hfinish.2⟩
    · exact hclosed

/-- The application sets the interval for the PINGREQ. -/
theorem setPingreqSendInterval (h : NoneFailed ep) (duration : Nat) :
    NoneFailed (ep.setPingreqSendInterval duration) := by
  have hcon : Sound { ep with con := (ep.con.setPingreqSendInterval duration).conn } :=
    h.sound.of_eq rfl rfl rfl rfl
  have hrecv : RecvSound { ep with con := (ep.con.setPingreqSendInterval duration).conn } :=
    h.recvSound.of_eq rfl rfl
  refine ⟨?_, hrecv.firing (timed_setPingreqSendInterval duration ep).firing⟩
  unfold Endpoint.setPingreqSendInterval
  dsimp only
  rw [Connection.setPingreqSendInterval] at hcon ⊢
  split at hcon
  · next hzero =>
    rw [if_pos hzero]
    exact hcon.cancelTimer _
  · next hzero =>
    rw [if_neg hzero]
    exact hcon.resetPingreqSendTimer _

/-- A turn of the loop of `send_publish_from_queue`. -/
theorem resend (h : NoneFailed ep) {op : RecvOp pb} {vacancy : Option Nat}
    (hsends : ∀ p ∈ ep.publishQueue.head?, ep.Sends (.v5Publish p) false) :
    NoneFailed (ep.resend op vacancy) := by
  have hcomplete : NoneFailed (ep.recvComplete none op.recvPacket) :=
    ⟨h.sound.recvComplete _ _, .idle h.recvSound.recvEvents rfl⟩
  unfold Endpoint.resend
  split
  · exact hcomplete
  · next p ps hqueue =>
    split
    · exact hcomplete
    · obtain ⟨hhandles, hid⟩ := hsends p (by rw [hqueue]; rfl)
      have hsound := h.sound.asyncSend hhandles hid
      have hrecv := h.recvSound.asyncSend (.v5Publish p) false
      exact ⟨hsound.of_eq rfl rfl rfl rfl, hrecv.of_eq rfl rfl⟩

/-- The events of an operation that has begun to send. -/
theorem sendOp_events (h : NoneFailed ep) {k : Nat} {op : SendOp pb}
    (hop : ep.sendOps[k]? = some op) :
    (∀ e ∈ op.events, e.handledBySend) ∧ ∀ ec, .error ec ∉ op.events :=
  ⟨h.sound.handled op (List.mem_of_getElem? hop), h.sound.noError op (List.mem_of_getElem? hop)⟩

/-- An operation that ends or goes on is taken out first. -/
theorem eraseSendOp (h : NoneFailed ep) (k : Nat) :
    NoneFailed { ep with sendOps := ep.sendOps.eraseIdx k } :=
  ⟨{ h.sound with
    handled := fun op hop => h.sound.handled op (List.mem_of_mem_eraseIdx hop)
    noError := fun op hop => h.sound.noError op (List.mem_of_mem_eraseIdx hop) },
    h.recvSound.of_eq rfl rfl⟩

/-- A write of `send_op` has ended. -/
theorem react_sendWritten (h : NoneFailed ep) (k : Nat) (ec : Option EndpointError) :
    NoneFailed (ep.react (.sendWritten k ec)) := by
  unfold Endpoint.react resumeSend
  dsimp only
  split
  · exact h
  · next op hop =>
    have herase := h.eraseSendOp k
    split
    · unfold sendWritten
      cases ec with
      | none =>
        have hevents := h.sendOp_events hop
        exact ⟨herase.sound.processSend hevents.1 hevents.2 op,
          herase.recvSound.processSend op.events op⟩
      -- the error of the write goes to the caller, not to the events
      | some ec =>
        have hcon : ∀ con : Connection role pb,
            Sound { ep with con := con, sendOps := ep.sendOps.eraseIdx k } :=
          fun con => herase.sound.of_eq rfl rfl rfl rfl
        exact ⟨(hcon _).emit nofun, h.recvSound.of_eq rfl rfl⟩
    · exact h

/-- `send_op` has waited for the stream to be closed. -/
theorem react_sendWaited (h : NoneFailed ep) (k : Nat) (ec : Option EndpointError) :
    NoneFailed (ep.react (.sendWaited k ec)) := by
  unfold Endpoint.react resumeSend
  dsimp only
  split
  · exact h
  · next op hop =>
    split
    · exact (h.eraseSendOp k).sendClose (h.sendOp_events hop)
    · exact h

/-- What a read has brought is parsed. -/
theorem react_read (h : NoneFailed ep) {data : List UInt8} (hi : Prepared ep (.read data)) :
    NoneFailed (ep.react (.read data)) := by
  have hread : ∀ op, ep.recvOp = some op → op.state = .read →
      NoneFailed ({ ep with readBuf := ep.readBuf ++ data }.readIstream op) := by
    intro op hop hstate
    have hwaits := h.recvSound.recvOp op hop
    simp only [Waits, hstate] at hwaits
    have hbuf : NoneFailed { ep with readBuf := ep.readBuf ++ data } :=
      ⟨h.sound.of_eq rfl rfl rfl rfl, h.recvSound.of_eq rfl rfl⟩
    exact hbuf.readIstream hwaits (hi (by simp [hop, hstate]))
  exact .resumeRecv (f := fun op ep => { ep with readBuf := ep.readBuf ++ data }.readIstream op)
    h hread

/-- A write of `recv_op` has ended. -/
theorem react_recvWritten (h : NoneFailed ep) (ec : Option EndpointError) :
    NoneFailed (ep.react (.recvWritten ec)) := by
  cases ec with
  | none =>
    refine h.resumeRecv fun op hop hstate => ?_
    have hone : OneOutcome op ep.recvEvents := by
      simpa only [Waits, hstate] using h.recvSound.recvOp op hop
    have hprocess := processRecv_sound h.sound h.recvSound.recvEvents hone
    exact ⟨hprocess.1, hprocess.2⟩
  | some ec => exact h.resumeRecv fun op _ _ => h.recvError op ec

/-- A timer fires, and its handler is posted with the kind that was armed. -/
theorem react_expire (h : NoneFailed ep) (kind : TimerKind) :
    NoneFailed (ep.react (.expire kind)) := by
  unfold Endpoint.react
  dsimp only
  split
  · next harmed =>
    have hcancel := h.sound.cancelTimer kind
    refine ⟨{ hcancel with expired := fun kind' hmem => ?_ }, h.recvSound.of_eq rfl rfl⟩
    rcases List.mem_append.mp hmem with hmem | hmem
    · exact h.sound.expired kind' hmem
    · exact List.mem_singleton.mp hmem ▸ h.sound.armed kind harmed
  · exact h

/-- The handlers are run in the order in which the timers have fired. -/
theorem react_timerHandler (h : NoneFailed ep) (hloop : ep.isResending = false)
    (hi : Prepared ep .timerHandler) : NoneFailed (ep.react .timerHandler) := by
  unfold Endpoint.react
  dsimp only
  split
  · exact h
  · next kind kinds hexpired =>
    have hfits := hi hloop kind (by rw [hexpired]; rfl)
    have hrole := h.sound.expired kind (by rw [hexpired]; exact List.mem_cons_self ..)
    -- the handlers that are left are those of timers that fired later
    have hsound : Sound { ep with expired := kinds } :=
      { h.sound with expired := fun kind' hmem =>
          h.sound.expired kind' (by rw [hexpired]; exact List.mem_cons_of_mem _ hmem) }
    have hrecv : RecvSound { ep with
        expired := kinds, con := (ep.con.notifyTimerFired kind).conn } := h.recvSound.of_eq rfl rfl
    exact ⟨hsound.timerFired hrole hfits, hrecv.firing (firing_timerFired kind _)⟩

/-- The DISCONNECT of a timer is written, and the endpoint is closed. -/
theorem react_disconnectWritten (h : NoneFailed ep) : NoneFailed (ep.react .disconnectWritten) := by
  unfold Endpoint.react
  dsimp only
  split
  · have hsound : Sound { ep with disconnects := ep.disconnects - 1 } :=
      h.sound.of_eq rfl rfl rfl rfl
    have hrecv : RecvSound { ep with disconnects := ep.disconnects - 1 } :=
      h.recvSound.of_eq rfl rfl
    exact ⟨hsound.asyncClose, hrecv.asyncClose⟩
  · exact h

/-- No step makes an assertion fail: one case for each thing that happens to an endpoint. -/
theorem react (h : NoneFailed ep) (hloop : ep.isResending = false) {i : Input pb}
    (hi : Prepared ep i) : NoneFailed (ep.react i) := by
  cases i with
  | asyncSend p v =>
    obtain ⟨hhandles, hid⟩ := hi hloop
    exact ⟨h.sound.asyncSend hhandles hid, h.recvSound.asyncSend p v⟩
  | sendWritten k ec => exact h.react_sendWritten k ec
  | sendWaited k ec => exact h.react_sendWaited k ec
  | asyncRecv fil =>
    unfold Endpoint.react
    dsimp only
    split
    · exact ⟨h.sound.checkBuf _, .checkBuf h.recvSound.recvEvents ⟨rfl, rfl⟩⟩
    · exact h
  | readIstream =>
    refine h.resumeRecv fun op hop hstate => ?_
    -- what the operation waits for is as it was when the last read ended
    have hwaits := h.recvSound.recvOp op hop
    simp only [Waits, hstate] at hwaits
    exact h.readIstream hwaits (hi (by simp [hop, hstate]))
  | read data => exact h.react_read hi
  | readError ec => exact h.resumeRecv fun op _ _ => h.recvError op ec
  | recvWritten ec => exact h.react_recvWritten ec
  | resend => exact h
  | asyncClose => exact ⟨h.sound.asyncClose, h.recvSound.asyncClose⟩
  | streamClosed =>
    unfold Endpoint.react
    dsimp only
    split
    · exact h.streamClosed
    · exact h
  | opened =>
    unfold Endpoint.react
    dsimp only
    split
    · exact ⟨h.sound.of_eq rfl rfl rfl rfl, h.recvSound.of_eq rfl rfl⟩
    · exact h
  | expire kind => exact h.react_expire kind
  | timerHandler => exact h.react_timerHandler hloop hi
  | disconnectWritten => exact h.react_disconnectWritten
  | setPingreqSendInterval duration => exact h.setPingreqSendInterval duration
  | passOn op =>
    unfold Endpoint.react
    dsimp only
    split
    · exact ⟨h.sound.of_eq rfl rfl rfl rfl, h.recvSound.of_eq rfl rfl⟩
    · exact h

/-- No step makes an assertion fail. -/
theorem step (h : NoneFailed ep) {i : Input pb} (hi : Prepared ep i) : NoneFailed (ep.step i) := by
  cases hloop : ep.isResending with
  | true =>
    rcases step_of_resending hloop i with heq | ⟨rfl, op, vacancy, -, -, heq⟩
    · rw [heq]
      exact h
    · rw [heq]
      exact h.resend (hi hloop)
  | false =>
    rw [step_of_not_resending hloop]
    exact h.react hloop hi

end NoneFailed

/-! ### Runs -/

/-- No assertion fails in a run of prepared steps. -/
theorem no_assertion_fails (ver : ProtocolVersion) {is : List (Input pb)}
    (h : Run.All step Prepared (make role pb ver) is) :
    .assertFailed ∉ (Run.final step (make role pb ver) is).out := by
  have hnone : NoneFailed (Run.final step (make role pb ver) is) :=
    Run.final_invariant (fun ep i hi hep => hep.step hi) (.make ver) h
  exact hnone.sound.noFailure

/-- A client connects, waits for a PINGRESP if it has a time limit for it, and disconnects. -/
def pingsAndLeaves (c : V5.ConnectPacket) (d : V5.ReasonPacket) (timeout : Nat) (answer : List UInt8) :
    List (Input .two) :=
  [.opened, .asyncSend (.v5Connect c) false, .sendWritten 0 none, .asyncRecv none,
    .read [0x20, 3, 0, 0, 0], .passOn (.setPingrespRecvTimeout timeout), .asyncRecv none,
    .asyncSend (.v5Pingreq (TwoBytePacket.make .pingreq)) false, .sendWritten 0 none, .read answer,
    .asyncSend (.v5Disconnect d) false, .sendWritten 0 none]

/-- The PINGRESP has come. -/
theorem no_assertion_fails_pinged :
    ∃ c, V5.connectPacket true 0 [] none none none [] = .ok c ∧
      .assertFailed ∉ (Run.final step (make .client .two .v5)
        (pingsAndLeaves c (V5.disconnectOf 0) 1000 [0xd0, 0])).out := by
  refine ⟨_, rfl, no_assertion_fails .v5 ?_⟩
  have hreads : ∀ {ep : Endpoint .client .two} {buf : List UInt8}, ep.recvEvents = [] →
      (∀ pv, ep.con.received buf = some pv → ep.con.autoResponse pv = none) → ep.Reads buf := by
    intro ep buf hevents hnone
    refine ⟨by rw [hevents]; rfl, by rw [hevents]; rfl, fun pv hpv _ r hr => ?_⟩
    exact absurd (hr.symm.trans (hnone pv hpv)) (Option.some_ne_none r)
  unfold pingsAndLeaves
  simp only [Run.all_cons]
  refine ⟨trivial, fun _ => ⟨nofun, nofun⟩, trivial, trivial, fun _ => hreads rfl ?_, trivial,
    trivial, fun _ => ⟨nofun, nofun⟩, trivial, fun _ => hreads rfl ?_,
    fun _ => ⟨fun _ _ => rfl, nofun⟩, trivial, Run.all_nil⟩
  · intro pv hpv
    obtain rfl := Option.some.inj hpv
    rfl
  · intro pv hpv
    obtain rfl := Option.some.inj hpv
    rfl

/-- It has not, and the DISCONNECT cancels its timer. -/
theorem disconnect_asserts :
    ∃ c, V5.connectPacket true 0 [] none none none [] = .ok c ∧
      .assertFailed ∈ (Run.final step (make .client .two .v5)
        (pingsAndLeaves c (V5.disconnectOf 0) 1000 [])).out := by
  refine ⟨_, rfl, ?_⟩
  decide

/-- A server takes packets of three bytes at most. The PUBACK of four bytes is refused, and
    `recv_op` gets the error beside the PUBLISH. -/
theorem answer_asserts :
    ∃ c, V5.connectPacket true 0 [] none none none [] = .ok c ∧
      .assertFailed ∈ (Run.final step (make .client .two .v5)
        [.opened, .passOn (.setAutoPubResponse true), .asyncSend (.v5Connect c) false,
          .sendWritten 0 none, .asyncRecv none, .read [0x20, 8, 0, 0, 5, 0x27, 0, 0, 0, 3],
          .asyncRecv none, .read [0x32, 7, 0, 1, 0x61, 0, 1, 0, 0x62]]).out := by
  refine ⟨_, rfl, ?_⟩
  decide

end Endpoint

end AsyncMqtt
