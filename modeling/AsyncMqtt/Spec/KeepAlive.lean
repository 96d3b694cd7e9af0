import AsyncMqtt.Spec.ConnectionEvents
import AsyncMqtt.Spec.RecvErrors

/-!
# The keep alive of a connection

A client sends a PINGREQ when nothing was sent for the keep alive of its CONNECT, or for the
Server Keep Alive of the CONNACK. A server waits one and a half times as long. The two times
are fields of the connection that outlive it: a client takes over the keep alive of a CONNECT
only if no time is left from before, and a server takes it over only if it is not 0.

A run is watched by an observer who sees the packets and remembers the keep alive of the
current connection. The timers follow it exactly as long as each CONNECT finds no time that
stands in its way.

## Key results

- `Connection.send_timed`, `Connection.recv_timed`: other packets use the times as they are
- `KeepAliveRun.rightStep`: a step uses the keep alive of its connection exactly if the
  CONNECT, if it is one, finds no other time
- `KeepAliveRun.right_iff_fresh`: the same for all steps of a run
-/

namespace AsyncMqtt

namespace Connection

variable {role : Role} {pb : PacketIdBytes} {c c' : Connection role pb} {s : Step role pb}

/-! ### Times -/

/-- A step that sets the timers to the times that there are, and leaves these as they are. -/
structure Timed (c : Connection role pb) (s : Step role pb) : Prop where
  interval : s.conn.pingreqSendIntervalMs = c.pingreqSendIntervalMs
  timeout : s.conn.pingreqRecvTimeoutMs = c.pingreqRecvTimeoutMs
  sends : ∀ ms, .timerOp .reset .pingreqSend ms ∈ s.events →
    ms.isSome ∧ ms = c.pingreqSendIntervalMs
  recvs : ∀ ms, .timerOp .reset .pingreqRecv ms ∈ s.events →
    ms.isSome ∧ ms = c.pingreqRecvTimeoutMs

/-- Events that touch no timer -/
theorem Timed.of_silent (h : c'.timers = c.timers) {es : List (Event pb)}
    (hes : ∀ e ∈ es, e.isTimerOp = false) : Timed c ⟨c', es⟩ where
  interval := congrArg Timers.pingreqSendIntervalMs h
  timeout := congrArg Timers.pingreqRecvTimeoutMs h
  sends _ he := nomatch hes _ he
  recvs _ he := nomatch hes _ he

/-- Nothing happens. -/
theorem Timed.nothing (h : c'.timers = c.timers) : Timed c ⟨c', []⟩ :=
  .of_silent h fun _ he => nomatch he

/-- Two timed steps -/
theorem Timed.andThen {f : Connection role pb → Step role pb} (hs : Timed c s)
    (hf : Timed s.conn (f s.conn)) : Timed c (s.andThen f) where
  interval := hf.interval.trans hs.interval
  timeout := hf.timeout.trans hs.timeout
  sends ms he := by
    rcases List.mem_append.mp he with he | he
    · exact hs.sends ms he
    · rw [← hs.interval]
      exact hf.sends ms he
  recvs ms he := by
    rcases List.mem_append.mp he with he | he
    · exact hs.recvs ms he
    · rw [← hs.timeout]
      exact hf.recvs ms he

/-- An event that touches no timer follows. -/
theorem Timed.emit (hs : Timed c s) {e : Event pb} (he : e.isTimerOp = false) :
    Timed c (s.emit e) := by
  refine Timed.andThen (f := fun c => ⟨c, [e]⟩) hs (.of_silent rfl fun e' he' => ?_)
  rw [List.mem_singleton.mp he']
  exact he

/-- The state before may be changed, but not the timers. -/
theorem Timed.of_update (hs : Timed c' s) (h : c'.timers = c.timers) : Timed c s where
  interval := hs.interval.trans (congrArg Timers.pingreqSendIntervalMs h)
  timeout := hs.timeout.trans (congrArg Timers.pingreqRecvTimeoutMs h)
  sends ms he := by
    obtain ⟨hsome, hms⟩ := hs.sends ms he
    exact ⟨hsome, hms.trans (congrArg Timers.pingreqSendIntervalMs h)⟩
  recvs ms he := by
    obtain ⟨hsome, hms⟩ := hs.recvs ms he
    exact ⟨hsome, hms.trans (congrArg Timers.pingreqRecvTimeoutMs h)⟩

/-- `cancel_timers` sets no timer. -/
theorem timed_cancelTimers (c : Connection role pb) : Timed c c.cancelTimers := by
  have hreset : ∀ kind ms, .timerOp .reset kind ms ∉ c.cancelTimers.events := by
    intro kind ms he
    obtain ⟨_, -, heq⟩ := mem_cancelTimers.mp he
    exact nomatch heq
  refine ⟨?_, ?_, fun ms he => absurd he (hreset _ ms), fun ms he => absurd he (hreset _ ms)⟩ <;>
    rw [cancelTimers_conn]

/-- The timer for the PINGREQ of the client is set. -/
theorem timed_pingreqRecvOp (c : Connection role pb) : Timed c c.pingreqRecvOp := by
  unfold pingreqRecvOp
  split
  · exact .nothing rfl
  · next ms hms =>
    split
    · refine ⟨rfl, rfl, fun ms' he => ?_, fun ms' he => ?_⟩
      · cases List.mem_singleton.mp he
      · obtain rfl : ms' = some ms := by simpa using he
        exact ⟨rfl, hms.symm⟩
    · refine ⟨rfl, rfl, fun ms' he => ?_, fun ms' he => ?_⟩ <;>
        cases List.mem_singleton.mp he

/-- The timer for the PINGREQ is set. -/
theorem timed_resetPingreqSend (c : Connection role pb) : Timed c c.resetPingreqSend := by
  unfold resetPingreqSend
  split
  · split
    · exact .nothing rfl
    · next ms hms =>
      refine ⟨rfl, rfl, fun ms' he => ?_, fun ms' he => ?_⟩
      · obtain rfl : ms' = some ms := by simpa using he
        exact ⟨rfl, hms.symm⟩
      · cases List.mem_singleton.mp he
  · exact .nothing rfl

/-- Sending the store again touches no timer. -/
theorem timed_sendStored (c : Connection role pb) : Timed c c.sendStored := by
  have htimers : c.sendStored.conn.timers = c.timers := by
    rw [sendStored_conn]
    rfl
  apply Timed.of_silent htimers
  intro e he
  rcases mem_sendStored he with ⟨pv, rfl⟩ | ⟨packetId, rfl⟩ <;> rfl

/-- Sending anything but a CONNECT -/
theorem SendParts.timed {pv : PacketVariant pb} (h : SendParts c pv s) (htype : pv.type ≠ .connect) :
    Timed c s := by
  cases h with
  | silent h hevents => exact .of_silent h hevents
  | connect hconnect => exact absurd hconnect htype
  | cancelled c₁ h _ es hes hs =>
    rw [hs]
    refine .of_update (.andThen (f := fun c => ⟨c, es⟩) (timed_cancelTimers c₁) ?_) h
    exact .of_silent rfl hes
  | pingreq ms hs =>
    rw [hs]
    refine ⟨rfl, rfl, fun ms' he => ?_, fun ms' he => ?_⟩ <;> simp at he

/-- A packet that is not a CONNECT is sent with the time that there is. -/
theorem send_timed {pv : PacketVariant pb} (htype : pv.type ≠ .connect) (c : Connection role pb) :
    Timed c (c.send pv) := by
  by_cases hallowed : c.sendAllowed pv
  · by_cases hsize : c.validateMaximumPacketSize pv.size
    · have hactual := (c.processSendActual_parts pv).timed htype
      rw [send_of_allowed hallowed hsize]
      split
      · refine .andThen ?_ (timed_resetPingreqSend _)
        split
        · exact hactual.andThen (timed_sendStored _)
        · exact hactual
      · exact hactual
    · rw [send_of_too_large hallowed hsize]
      exact (failRelease_parts rfl pv _ _).timed htype
  · rw [send_of_not_allowed hallowed]
    refine .of_silent rfl fun e he => ?_
    rw [List.mem_singleton.mp he]
    rfl

/-- A packet that is refused leaves the times as they are. -/
theorem send_timed_refused {pv : PacketVariant pb} (h : ¬ c.passesChecks pv) :
    Timed c (c.send pv) := by
  obtain ⟨packetId, hsend⟩ := send_refused h
  have huntimed := untimed_failRelease c MqttError.packetNotAllowedToSend packetId
  rw [hsend]
  exact .of_silent huntimed.timers huntimed.events

/-- While the connection goes on the times stay as they are. -/
theorem Parts.timed (h : Parts c s) : Timed c s := by
  induction h with
  | update h => exact .nothing h
  | report c hreport =>
    refine .of_silent rfl fun e he => ?_
    rw [List.mem_singleton.mp he]
    revert hreport
    unfold Event.isReport
    split <;> first | exact fun _ => rfl | exact fun h => nomatch h
  | answer c hr _ _ =>
    refine send_timed (fun hconnect => ?_) c
    rw [PacketVariant.isAnswer, hconnect] at hr
    exact nomatch hr
  | stored c => exact timed_sendStored c
  | pingreqRecvOp c => exact timed_pingreqRecvOp c
  | pingresp c =>
    refine ⟨rfl, rfl, fun ms he => ?_, fun ms he => ?_⟩ <;>
      exact nomatch List.mem_singleton.mp he
  | @trans c s t _ _ ih ih' => exact Timed.andThen (f := fun _ => t) ih ih'

/-- `notify_closed` sets no timer and keeps the times. -/
theorem timed_notifyClosed (c : Connection role pb) : Timed c c.notifyClosed := by
  obtain ⟨s, hs, heq⟩ := c.notifyClosed_parts
  rw [heq]
  exact Timed.andThen (.of_silent hs.timers hs.events) (timed_cancelTimers _)

/-- A timer fires. -/
theorem timed_notifyTimerFired (kind : TimerKind) (c : Connection role pb) :
    Timed c (c.notifyTimerFired kind) := by
  have hsend : (c.unset kind).pingreqSendIntervalMs = c.pingreqSendIntervalMs := by
    cases kind <;> rfl
  have hrecv : (c.unset kind).pingreqRecvTimeoutMs = c.pingreqRecvTimeoutMs := by
    cases kind <;> rfl
  have hunset : ∀ {s : Step role pb}, Timed (c.unset kind) s → Timed c s := fun hs =>
    ⟨hs.interval.trans hsend, hs.timeout.trans hrecv, hsend ▸ hs.sends, hrecv ▸ hs.recvs⟩
  rcases c.notifyTimerFired_parts kind with ⟨es, hes, heq⟩ | ⟨pv, htype, heq⟩
  · rw [heq]
    refine hunset (.of_silent rfl fun e he => ?_)
    rcases hes with rfl | rfl
    · exact nomatch he
    · rw [List.mem_singleton.mp he]
      rfl
  · rw [heq]
    refine hunset (send_timed (fun hconnect => ?_) _)
    rcases htype with htype | htype <;> exact nomatch htype.symm.trans hconnect

/-! ### Server Keep Alive -/

/-- The time in milliseconds, or none if it is 0 -/
def intervalOf (seconds : Nat) : Option Nat := if seconds = 0 then none else some (seconds * 1000)

/-- An interval is there only if it is not zero. -/
theorem intervalOf_eq_some {seconds : Nat} {ms : Option Nat} (hsome : ms.isSome)
    (hms : ms = intervalOf seconds) : seconds ≠ 0 ∧ ms = some (seconds * 1000) := by
  unfold intervalOf at hms
  split at hms
  · rw [hms] at hsome
    exact nomatch hsome
  · next hne => exact ⟨hne, hms⟩

/-- The values of the Server Keep Alive properties -/
def serverKeepAlives (props : Properties) : List Nat :=
  (props.filter (·.id = .serverKeepAlive)).map (·.val)

/-- Other properties leave the timers as they are. -/
theorem recvConnackProp_timed {prop : Property} (h : prop.id ≠ .serverKeepAlive)
    (c : Connection role pb) :
    Timed c (recvConnackProp prop c) ∧ (recvConnackProp prop c).events = [] := by
  unfold recvConnackProp
  split
  · obtain ⟨tas, heq, -⟩ := c.emplaceTopicAliasSend_eq prop.val
    rw [heq]
    refine ⟨.nothing ?_, rfl⟩
    rfl
  · exact ⟨Timed.nothing (by rfl), rfl⟩
  · exact ⟨Timed.nothing (by rfl), rfl⟩
  · next hid => exact absurd hid h
  · exact ⟨Timed.nothing (by rfl), rfl⟩

/-- A time in seconds sets the PINGREQ timer, or cancels it if it is 0. -/
theorem setPingreqSendInterval_times (seconds : Nat) (c : Connection role pb) :
    (c.setPingreqSendInterval (seconds * 1000)).conn.pingreqSendIntervalMs = intervalOf seconds ∧
    (c.setPingreqSendInterval (seconds * 1000)).conn.pingreqRecvTimeoutMs =
      c.pingreqRecvTimeoutMs ∧
    ∀ kind ms, .timerOp .reset kind ms ∈ (c.setPingreqSendInterval (seconds * 1000)).events →
      kind = .pingreqSend ∧ seconds ≠ 0 ∧ ms = some (seconds * 1000) := by
  unfold setPingreqSendInterval intervalOf
  by_cases hzero : seconds = 0
  · rw [if_pos (show seconds * 1000 = 0 by omega), if_pos hzero]
    exact ⟨rfl, rfl, fun kind ms he => nomatch List.mem_singleton.mp he⟩
  · rw [if_neg (show seconds * 1000 ≠ 0 by omega), if_neg hzero]
    refine ⟨rfl, rfl, fun kind ms he => ?_⟩
    obtain ⟨rfl, rfl⟩ : kind = .pingreqSend ∧ ms = some (seconds * 1000) := by simpa using he
    exact ⟨rfl, hzero, rfl⟩

/-- The properties of a CONNACK set the PINGREQ timer of a client to each Server Keep Alive,
    and the last of them stays. -/
theorem recvConnackProps_times (hclient : canSendAsClient role) (props : Properties)
    (c : Connection role pb) :
    (recvConnackProps props c).conn.pingreqSendIntervalMs =
      ((serverKeepAlives props).getLast?.map intervalOf).getD c.pingreqSendIntervalMs ∧
    (recvConnackProps props c).conn.pingreqRecvTimeoutMs = c.pingreqRecvTimeoutMs ∧
    ∀ kind ms, .timerOp .reset kind ms ∈ (recvConnackProps props c).events →
      kind = .pingreqSend ∧ ∃ v ∈ serverKeepAlives props, v ≠ 0 ∧ ms = some (v * 1000) := by
  induction props generalizing c with
  | nil => exact ⟨rfl, rfl, fun kind ms he => nomatch he⟩
  | cons prop props ih =>
    rw [recvConnackProps, Step.conn_andThen, Step.events_andThen]
    -- a Server Keep Alive sets the interval, and a later one replaces it
    by_cases hprop : prop.id = .serverKeepAlive
    · have hcons : serverKeepAlives (prop :: props) = prop.val :: serverKeepAlives props := by
        simp [serverKeepAlives, hprop]
      have hstep : recvConnackProp prop c = c.setPingreqSendInterval (prop.val * 1000) := by
        rw [recvConnackProp, hprop]
        exact if_pos hclient
      rw [hcons, hstep]
      obtain ⟨hset, hkept, hfirst⟩ := setPingreqSendInterval_times prop.val c
      obtain ⟨hinterval, htimeout, hrest⟩ := ih (c.setPingreqSendInterval (prop.val * 1000)).conn
      refine ⟨?_, htimeout.trans hkept, fun kind ms he => ?_⟩
      · rw [hinterval, hset, List.getLast?_cons]
        cases (serverKeepAlives props).getLast? <;> rfl
      · rcases List.mem_append.mp he with he | he
        · obtain ⟨hkind, hne, hms⟩ := hfirst kind ms he
          exact ⟨hkind, prop.val, List.mem_cons_self, hne, hms⟩
        · obtain ⟨hkind, v, hv, hne, hms⟩ := hrest kind ms he
          exact ⟨hkind, v, List.mem_cons_of_mem _ hv, hne, hms⟩
    -- other properties leave the interval
    · have hcons : serverKeepAlives (prop :: props) = serverKeepAlives props := by
        simp [serverKeepAlives, hprop]
      obtain ⟨htimed, hevents⟩ := recvConnackProp_timed hprop c
      obtain ⟨hinterval, htimeout, hrest⟩ := ih (recvConnackProp prop c).conn
      rw [hcons, hevents, List.nil_append, hinterval, htimeout, htimed.interval, htimed.timeout]
      exact ⟨rfl, rfl, hrest⟩

/-- Without a Server Keep Alive, or on a server, the properties leave the times as they are. -/
theorem recvConnackProps_timed (props : Properties)
    (h : serverKeepAlives props = [] ∨ ¬ canSendAsClient role) (c : Connection role pb) :
    Timed c (recvConnackProps props c) := by
  induction props generalizing c with
  | nil => exact .nothing rfl
  | cons prop props ih =>
    by_cases hprop : prop.id = .serverKeepAlive
    · have hserver : ¬ canSendAsClient role := by simpa [serverKeepAlives, hprop] using h
      have hstep : recvConnackProp prop c = ⟨c, []⟩ := by
        rw [recvConnackProp, hprop]
        exact if_neg hserver
      rw [recvConnackProps, hstep]
      exact .andThen (.nothing rfl) (ih (.inr hserver) c)
    · refine .andThen (recvConnackProp_timed hprop c).1 (ih ?_ _)
      simpa [serverKeepAlives, hprop] using h

/-- A CONNACK that accepts the connection: a client takes over its Server Keep Alive, and what is
    sent then is sent with it. -/
theorem recvConnackV5_times {p : V5.ConnackPacket} (hcode : p.code = ConnectReasonCode.success)
    (c : Connection role pb) :
    (c.recvConnackV5 p).conn.pingreqRecvTimeoutMs = c.pingreqRecvTimeoutMs ∧
    (∀ ms, .timerOp .reset .pingreqRecv ms ∈ (c.recvConnackV5 p).events →
      ms.isSome ∧ ms = c.pingreqRecvTimeoutMs) ∧
    (canSendAsClient role → (c.recvConnackV5 p).conn.pingreqSendIntervalMs =
        ((serverKeepAlives p.props).getLast?.map intervalOf).getD c.pingreqSendIntervalMs ∧
      ∀ ms, .timerOp .reset .pingreqSend ms ∈ (c.recvConnackV5 p).events →
        (∃ v ∈ serverKeepAlives p.props, v ≠ 0 ∧ ms = some (v * 1000)) ∨
        serverKeepAlives p.props = [] ∧ ms.isSome ∧ ms = c.pingreqSendIntervalMs) := by
  rw [recvConnackV5, if_pos hcode]
  obtain ⟨c₁, hc₁⟩ : ∃ c₁ : Connection role pb, c₁ = { c with status := .connected } := ⟨_, rfl⟩
  have htimeout₁ : c₁.pingreqRecvTimeoutMs = c.pingreqRecvTimeoutMs := by rw [hc₁]
  have hinterval₁ : c₁.pingreqSendIntervalMs = c.pingreqSendIntervalMs := by rw [hc₁]
  rw [← hc₁, ← htimeout₁, ← hinterval₁]
  have hrest := (Parts.resumeSession p.sessionPresent (recvConnackProps p.props c₁).conn).timed
  -- only a client takes over the interval of the server
  by_cases hclient : canSendAsClient role
  · obtain ⟨hinterval, htimeout, hresets⟩ := recvConnackProps_times hclient p.props c₁
    refine ⟨hrest.timeout.trans htimeout, fun ms he => ?_, fun _ =>
      ⟨hrest.interval.trans hinterval, fun ms he => ?_⟩⟩
    · rcases List.mem_append.mp he with he | he
      · exact nomatch (hresets _ ms he).1
      · obtain ⟨hsome, hms⟩ := hrest.recvs ms he
        exact ⟨hsome, hms.trans htimeout⟩
    · rcases List.mem_append.mp he with he | he
      · exact .inl (hresets _ ms he).2
      · obtain ⟨hsome, hms⟩ := hrest.sends ms he
        rw [hinterval] at hms
        -- the last Server Keep Alive counts, and without one the interval is that of the CONNECT
        cases hlast : (serverKeepAlives p.props).getLast? with
        | none =>
          rw [hlast] at hms
          exact .inr ⟨List.getLast?_eq_none_iff.mp hlast, hsome, hms⟩
        | some v =>
          rw [hlast] at hms
          obtain ⟨hne, hms⟩ := intervalOf_eq_some hsome hms
          exact .inl ⟨v, List.mem_of_getLast? hlast, hne, hms⟩
  · have hprops := recvConnackProps_timed p.props (.inr hclient) c₁
    refine ⟨hrest.timeout.trans hprops.timeout, fun ms he => ?_, fun h => absurd h hclient⟩
    rcases List.mem_append.mp he with he | he
    · exact hprops.recvs ms he
    · obtain ⟨hsome, hms⟩ := hrest.recvs ms he
      exact ⟨hsome, hms.trans hprops.timeout⟩

end Connection

/-- The Server Keep Alive properties of a CONNACK that accepts the connection -/
def PacketVariant.serverKeepAlives {pb : PacketIdBytes} (pv : PacketVariant pb) : List Nat :=
  if pv.acceptsConnection then Connection.serverKeepAlives pv.view.props else []

namespace Connection

variable {role : Role} {pb : PacketIdBytes} {c c' : Connection role pb} {s : Step role pb}

/-! ### Receiving -/

/-- The packet is among those handed over. -/
theorem receives_receive (pv : PacketVariant pb) (c : Connection role pb) :
    pv ∈ receives (c.receive pv).events := by
  rw [receive, Step.events_emit, receives_append]
  exact List.mem_append_right _ List.mem_cons_self

/-- A packet other than a CONNECT or a CONNACK with a Server Keep Alive is taken with the times
    that there are. -/
theorem recv_timed {is : List UInt8} (h : ∀ pv ∈ receives (c.recv is).1.events,
    pv.type ≠ .connect ∧ pv.serverKeepAlives = []) : Timed c (c.recv is).1 := by
  -- without a CONNECT and a Server Keep Alive no interval is agreed on
  cases c.recv_parts is with
  | parts hs => exact hs.timed
  | connect c₁ pv htype _ _ hs =>
    rw [hs] at h
    exact absurd htype (h pv (receives_receive pv c₁)).1
  | connack c₁ p hc₁ hs =>
    rw [hs] at h ⊢
    refine .of_update (.emit ?_ rfl) hc₁
    have hnone := (h (.v5Connack p) (by
      rw [Step.events_emit, receives_append]
      exact List.mem_append_right _ List.mem_cons_self)).2
    unfold recvConnackV5
    -- an accepted CONNACK resumes the session
    split
    · next hcode =>
      have haccepts : (PacketVariant.v5Connack p : PacketVariant pb).acceptsConnection = true :=
        decide_eq_true hcode
      rw [PacketVariant.serverKeepAlives, if_pos haccepts] at hnone
      refine .of_update (.andThen (recvConnackProps_timed _ (.inl hnone) _) ?_) ?_
      · exact (Parts.resumeSession _ _).timed
      · rfl
    · exact .nothing rfl
  | disconnect c₁ reasonCode hc₁ hs =>
    rw [hs]
    refine .of_update (.emit (send_timed ?_ c₁) rfl) hc₁
    exact nofun
  | cancelled c₁ es hes hc₁ hs =>
    rw [hs]
    refine .of_update (Timed.andThen (f := fun c => ⟨c, es⟩) (timed_cancelTimers c₁) ?_) hc₁
    refine .of_silent rfl fun e he => ?_
    have hreport := hes e he
    cases e with
    | timerOp op kind ms => exact nomatch hreport
    | _ => rfl
  | refused c₁ r htype ec hc₁ hs =>
    rw [hs]
    refine .of_update (.emit (send_timed ?_ c₁) rfl) hc₁
    rw [htype]
    exact nofun

/-- A CONNECT brings the time of its keep alive, and the PINGREQ timer is set to it. -/
theorem recv_connect_times {is : List UInt8} {pv : PacketVariant pb}
    (hreceived : c.received is = some pv) (htype : pv.type = .connect)
    (hallowed : c.recvAllowed pv) : ∃ c₁ : Connection role pb,
      c₁.pingreqSendIntervalMs = c.pingreqSendIntervalMs ∧
      c₁.pingreqRecvTimeoutMs = (if pv.view.keepAlive ≠ 0 then
        some (pv.view.keepAlive * 1000 * 3 / 2) else c.pingreqRecvTimeoutMs) ∧
      c₁.status = .connecting ∧ (c.recv is).1 = c₁.receive pv := by
  obtain ⟨c₀, rfl, heq⟩ := recv_of_allowed hreceived hallowed
  rw [heq]
  -- the timeout is one and a half times the keep-alive, in both versions
  cases pv with
  | v311Connect p =>
    have htimers := RecvParts.timers_recvConnectV311 p
      ({ c with rpb := (c.rpb.recv is).1 } : Connection role pb)
    refine ⟨_, congrArg Timers.pingreqSendIntervalMs htimers,
      congrArg Timers.pingreqRecvTimeoutMs htimers, ?_, rfl⟩
    unfold recvConnectV311
    dsimp only
    rw [recvKeepAlive_eq]
    split <;> rfl
  | v5Connect p =>
    have htimers := RecvParts.timers_recvConnectV5 p
      ({ c with rpb := (c.rpb.recv is).1 } : Connection role pb)
    refine ⟨_, congrArg Timers.pingreqSendIntervalMs htimers,
      congrArg Timers.pingreqRecvTimeoutMs htimers, ?_, rfl⟩
    unfold recvConnectV5
    dsimp only
    rw [recvKeepAlive_eq]
    generalize hc₁ : (if p.cleanStart then _ else _ : Connection role pb) = c₁
    obtain ⟨_, _, _, heq, -⟩ := c₁.foldl_recvConnectProp p.props
    rw [heq, ← hc₁]
    split <;> rfl
  | _ => exact nomatch htype

/-- `send` sends a CONNECT only if it is asked to. -/
theorem sends_send_connect {pv pv' : PacketVariant pb} (hsent : pv' ∈ sends (c.send pv).events)
    (htype : pv'.type = .connect) : pv' = pv ∧ c.passesChecks pv := by
  by_cases hpass : c.passesChecks pv
  · refine ⟨?_, hpass⟩
    by_cases hpublish : pv.type = .publish
    · rcases (c.send_line_publish hpublish).2 with hnone | ⟨-, -, hone⟩
      · rw [hnone] at hsent
        exact nomatch hsent
      · rw [hone] at hsent
        obtain rfl := List.mem_singleton.mp hsent
        cases pv with
        | v311Publish p | v5Publish p => exact nomatch htype
        | _ => exact nomatch hpublish
    · rw [(send_line hpublish hpass).2] at hsent
      rcases List.mem_cons.mp hsent with rfl | hstored
      · rfl
      · split at hstored
        · obtain ⟨e, -, -, rfl⟩ := mem_storedFit.mp hstored
          cases hp : e.packet <;> simp [hp, StorePacket.toPacketVariant, PacketVariant.type] at htype
        · exact nomatch hstored
  · rw [(send_line_refused hpass).2] at hsent
    exact nomatch hsent

/-- `recv` sends no CONNECT. -/
theorem sends_recv_connect {is : List UInt8} :
    ∀ pv ∈ sends (c.recv is).1.events, pv.type ≠ .connect := by
  intro pv hpv htype
  rcases c.recv_line is with hanswer | ⟨value, c₁, -, -, heq⟩
  · cases hanswer with
    | silent _ hsends =>
      rw [hsends] at hpv
      unfold recvResumed resumed at hpv
      split at hpv
      · split at hpv
        · obtain ⟨e, -, -, rfl⟩ := mem_storedFit.mp hpv
          cases hp : e.packet <;> simp [hp, StorePacket.toPacketVariant, PacketVariant.type] at htype
        · cases hpv
      · cases hpv
    | sent c₁ r _ hr _ hsends =>
      rw [hsends] at hpv
      exact sends_answer_connect hr c₁ pv hpv htype
  · rw [heq, Step.events_emit, sends_append, List.mem_append] at hpv
    rcases hpv with hpv | hpv
    · rw [(sends_send_connect hpv htype).1, c.refusal_type] at htype
      cases htype
    · cases hpv

end Connection

/-! ### The observer -/

/-- The keep alive of the current connection, in seconds -/
inductive KeepAlive where
  | client (seconds : Nat)
  | server (seconds : Nat)
  deriving DecidableEq, Repr

/-- A connection and what an observer remembers: whether `set_pingreq_send_interval` was called,
    and the keep alive of the current connection. -/
structure KeepAliveRun (role : Role) (pb : PacketIdBytes) where
  conn : Connection role pb
  overridden : Bool
  keepAlive : Option KeepAlive

namespace KeepAliveRun

open Connection

variable {role : Role} {pb : PacketIdBytes}

/-- Before the first call -/
def start (role : Role) (pb : PacketIdBytes) (ver : ProtocolVersion) : KeepAliveRun role pb :=
  ⟨.make role pb ver, false, none⟩

/-- The keep alive of the CONNECT that is sent in the call, if there is one -/
def connectSent (s : KeepAliveRun role pb) (op : Op pb) : Option Nat :=
  ((sends (s.conn.call op).events).find? (·.type = .connect)).map (·.view.keepAlive)

/-- The keep alive of the CONNECT that is received in the call, if there is one -/
def connectReceived (s : KeepAliveRun role pb) (op : Op pb) : Option Nat :=
  ((receives (s.conn.call op).events).find? (·.type = .connect)).map (·.view.keepAlive)

/-- The Server Keep Alive properties of the CONNACK that is received in the call -/
def serverKeepAlives (s : KeepAliveRun role pb) (op : Op pb) : List Nat :=
  (receives (s.conn.call op).events).flatMap PacketVariant.serverKeepAlives

/-- The keep alive after a call: that of a new CONNECT, or the Server Keep Alive -/
def agreed (s : KeepAliveRun role pb) (op : Op pb) : Option KeepAlive :=
  match s.connectSent op, s.connectReceived op with
  | some seconds, _ => some (.client seconds)
  | none, some seconds => some (.server seconds)
  | none, none =>
    match s.keepAlive with
    | some (.client seconds) => some (.client ((s.serverKeepAlives op).getLast?.getD seconds))
    | keepAlive => keepAlive

/-- The call is `set_pingreq_send_interval`. -/
def overrides : Op pb → Bool
  | .setPingreqSendInterval _ => true
  | _ => false

/-- The run after a call -/
def next (s : KeepAliveRun role pb) (op : Op pb) : KeepAliveRun role pb where
  conn := s.conn.next op
  overridden := s.overridden || overrides op
  keepAlive := s.agreed op

/-- The timers that the call sets use the keep alive of the connection: on a client that never
    called `set_pingreq_send_interval` the PINGREQ timer the Server Keep Alive that has come with
    the call, or else the keep alive that is agreed on; on a server the PINGREQ timer one and a
    half times the keep alive, computed without overflow of a 32 bit `int`. With a keep alive of
    0 no timer is set. -/
structure Right (s : KeepAliveRun role pb) (op : Op pb) : Prop where
  client : ∀ seconds, s.agreed op = some (.client seconds) → (s.next op).overridden = false →
    ∀ ms, .timerOp .reset .pingreqSend ms ∈ (s.conn.call op).events →
      ∃ v, (if s.serverKeepAlives op = [] then v = seconds else v ∈ s.serverKeepAlives op) ∧
        v ≠ 0 ∧ ms = some (v * 1000)
  server : ∀ seconds, s.agreed op = some (.server seconds) →
    ∀ ms, .timerOp .reset .pingreqRecv ms ∈ (s.conn.call op).events →
      seconds ≠ 0 ∧ seconds * 1000 * 3 < 2 ^ 31 ∧ ∃ t, ms = some t ∧ 2 * t = 3 * (seconds * 1000)

/-- A CONNECT finds no time of an earlier connection that stands in its way: one that is sent
    finds none at all or its own, and one that is received with a keep alive of 0 finds none. -/
structure Fresh (s : KeepAliveRun role pb) (op : Op pb) : Prop where
  client : ∀ pv, op = .send pv → pv.type = .connect → s.conn.passesChecks pv →
    s.overridden = false → s.conn.pingreqSendIntervalMs = none ∨
      pv.view.keepAlive ≠ 0 ∧ s.conn.pingreqSendIntervalMs = some (pv.view.keepAlive * 1000)
  server : ∀ is pv, op = .recv is → s.conn.received is = some pv → pv.type = .connect →
    s.conn.recvAllowed pv → pv.view.keepAlive ≠ 0 ∨ s.conn.pingreqRecvTimeoutMs = none

/-- The times are those of the keep alive of the connection. -/
structure Agrees (s : KeepAliveRun role pb) : Prop where
  isClient : ∀ seconds, s.keepAlive = some (.client seconds) → canSendAsClient role
  client : ∀ seconds, s.keepAlive = some (.client seconds) → s.overridden = false →
    s.conn.pingreqSendIntervalMs = intervalOf seconds
  server : ∀ seconds, s.keepAlive = some (.server seconds) →
    s.conn.pingreqRecvTimeoutMs = (if seconds ≠ 0 then some (seconds * 1000 * 3 / 2) else none) ∧
      seconds < 2 ^ 16

/-- In the beginning no keep-alive is agreed on. -/
theorem agrees_start (ver : ProtocolVersion) : (start role pb ver).Agrees where
  isClient _ h := nomatch h
  client _ h := nomatch h
  server _ h := nomatch h

/-- A step brings the run on as it should, exactly if the CONNECT, if it is one, finds no other
    time. -/
def RightStep (s : KeepAliveRun role pb) (op : Op pb) : Prop :=
  (s.Right op ↔ s.Fresh op) ∧ (s.Fresh op → (s.next op).Agrees)

variable {s : KeepAliveRun role pb} {op : Op pb}

/-- No CONNECT was sent. -/
theorem connectSent_eq_none (h : ∀ pv ∈ sends (s.conn.call op).events, pv.type ≠ .connect) :
    s.connectSent op = none := by
  rw [connectSent, Option.map_eq_none_iff, List.find?_eq_none]
  exact fun pv hpv => by simpa using h pv hpv

/-- No CONNECT was received. -/
theorem connectReceived_eq_none
    (h : ∀ pv ∈ receives (s.conn.call op).events, pv.type ≠ .connect) :
    s.connectReceived op = none := by
  rw [connectReceived, Option.map_eq_none_iff, List.find?_eq_none]
  exact fun pv hpv => by simpa using h pv hpv

/-- No Server Keep Alive was received. -/
theorem serverKeepAlives_eq_nil
    (h : ∀ pv ∈ receives (s.conn.call op).events, pv.serverKeepAlives = []) :
    s.serverKeepAlives op = [] := by
  rw [serverKeepAlives, List.flatMap_eq_nil_iff]
  exact h

/-- Without a CONNECT the last Server Keep Alive counts. -/
theorem agreed_eq (hsent : s.connectSent op = none) (hreceived : s.connectReceived op = none) :
    s.agreed op = match s.keepAlive with
      | some (.client seconds) => some (.client ((s.serverKeepAlives op).getLast?.getD seconds))
      | keepAlive => keepAlive := by
  rw [agreed, hsent, hreceived]

/-- Without a CONNECT and a Server Keep Alive nothing is agreed on anew. -/
theorem agreed_of_no_connect (hsent : s.connectSent op = none)
    (hreceived : s.connectReceived op = none) (hska : s.serverKeepAlives op = []) :
    s.agreed op = s.keepAlive := by
  rw [agreed_eq hsent hreceived, hska]
  rcases s.keepAlive with _ | _ | _ <;> rfl

/-- A step without a CONNECT meets the condition. -/
theorem fresh_of_no_connect (hsend : ∀ pv, op = .send pv → pv.type = .connect →
      ¬ s.conn.passesChecks pv)
    (hrecv : ∀ is pv, op = .recv is → s.conn.received is = some pv → pv.type = .connect →
      ¬ s.conn.recvAllowed pv) : s.Fresh op where
  client pv hop htype hpass _ := absurd hpass (hsend pv hop htype)
  server is pv hop hreceived htype hallowed := absurd hallowed (hrecv is pv hop hreceived htype)

/-- The time of a server's PINGREQ timer is one and a half times the keep alive. -/
theorem Agrees.serverTime (h : s.Agrees) {seconds : Nat}
    (hserver : s.keepAlive = some (.server seconds)) {ms : Option Nat} (hsome : ms.isSome)
    (hms : ms = s.conn.pingreqRecvTimeoutMs) :
    seconds ≠ 0 ∧ seconds * 1000 * 3 < 2 ^ 31 ∧ ∃ t, ms = some t ∧ 2 * t = 3 * (seconds * 1000) := by
  obtain ⟨htimeout, hlt⟩ := h.server seconds hserver
  rw [hms, htimeout] at hsome ⊢
  by_cases hzero : seconds = 0
  · rw [if_neg (not_not.mpr hzero)] at hsome
    exact nomatch hsome
  · rw [if_pos hzero]
    exact ⟨hzero, by omega, _, rfl, by omega⟩

/-- A step that leaves the times as they are, and that is neither CONNECT nor Server Keep Alive. -/
theorem rightStep_of_timed (h : s.Agrees) (htimed : Timed s.conn (s.conn.call op))
    (hsent : ∀ pv ∈ sends (s.conn.call op).events, pv.type ≠ .connect)
    (hreceived : ∀ pv ∈ receives (s.conn.call op).events,
      pv.type ≠ .connect ∧ pv.serverKeepAlives = [])
    (hfresh : s.Fresh op) : s.RightStep op := by
  have hska := serverKeepAlives_eq_nil fun pv hpv => (hreceived pv hpv).2
  have hagreed := agreed_of_no_connect (connectSent_eq_none hsent)
    (connectReceived_eq_none fun pv hpv => (hreceived pv hpv).1) hska
  have hover : (s.next op).overridden = false → s.overridden = false :=
    fun h => (Bool.or_eq_false_iff.mp h).1
  constructor
  -- the timers that are armed have the interval that was agreed on
  · refine iff_of_true
      ⟨fun seconds hclient hover' ms he => ?_, fun seconds hserver ms he => ?_⟩ hfresh
    · obtain ⟨hsome, hms⟩ := htimed.sends ms he
      rw [hagreed] at hclient
      have hinterval := h.client seconds hclient (hover hover')
      obtain ⟨hne, hms⟩ := intervalOf_eq_some hsome (hms.trans hinterval)
      rw [hska]
      exact ⟨seconds, rfl, hne, hms⟩
    · obtain ⟨hsome, hms⟩ := htimed.recvs ms he
      rw [hagreed] at hserver
      exact h.serverTime hserver hsome hms
  -- nothing new is agreed on
  · intro _
    have hkeep : (s.next op).keepAlive = s.keepAlive := hagreed
    refine ⟨fun seconds hclient => ?_, fun seconds hclient hover' => ?_, fun seconds hserver => ?_⟩
    · exact h.isClient seconds (hkeep ▸ hclient)
    · exact htimed.interval.trans (h.client seconds (hkeep ▸ hclient) (hover hover'))
    · obtain ⟨htimeout, hlt⟩ := h.server seconds (hkeep ▸ hserver)
      exact ⟨htimed.timeout.trans htimeout, hlt⟩

/-- A CONNECT that is sent sets the PINGREQ timer to the time that there is after it. -/
theorem mem_send_connect {c c₁ : Connection role pb} {keepAlive : Nat}
    (hclient : canSendAsClient role) (hc₁ : Connecting c keepAlive c₁) (pv : PacketVariant pb)
    (ms : Option Nat) :
    .timerOp .reset .pingreqSend ms ∈
        ((⟨c₁, [.send pv none]⟩ : Step role pb).andThen resetPingreqSend).events ↔
      ms.isSome ∧ ms = c₁.pingreqSendIntervalMs := by
  have hgoes : canSendAsClient role ∧ c₁.isClient ∧ c₁.status ≠ .disconnected := by
    rw [hc₁.status]
    exact ⟨hclient, hc₁.isClient, nofun⟩
  rw [Step.events_andThen, resetPingreqSend, if_pos hgoes]
  cases hms : c₁.pingreqSendIntervalMs with
  | none => cases ms <;> simp
  | some t => cases ms <;> simp

/-- A CONNECT that is sent -/
theorem rightStep_sent {pv : PacketVariant pb} (htype : pv.type = .connect)
    (hpass : s.conn.passesChecks pv) : s.RightStep (.send pv) := by
  obtain ⟨c₁, hc₁, hsend⟩ := send_connect htype hpass
  have hcall : s.conn.call (.send pv) = _ := hsend
  have hclient : canSendAsClient role := by
    obtain ⟨hallowed, -⟩ := Bool.and_eq_true_iff.mp hpass
    have hsendable : pv.isClientSendable = true ∧ pv.isServerSendable = false := by
      cases pv with
      | v311Connect p | v5Connect p => exact ⟨rfl, rfl⟩
      | _ => cases htype
    unfold sendAllowed at hallowed
    rw [hsendable.1, hsendable.2] at hallowed
    simp only [Bool.and_true, Bool.and_false, Bool.or_false, Bool.and_eq_true] at hallowed
    exact hallowed.1.1
  have hsent : s.connectSent (.send pv) = some pv.view.keepAlive := by
    rw [connectSent, hcall, Step.events_andThen, sends_append, sends_resetPingreqSend]
    simp [sends, htype]
  have hagreed : s.agreed (.send pv) = some (.client pv.view.keepAlive) := by
    rw [agreed, hsent]
  have hska : s.serverKeepAlives (.send pv) = [] := by
    rw [serverKeepAlives, call, receives_send]
    rfl
  have htime : c₁.pingreqSendIntervalMs =
      if pv.view.keepAlive ≠ 0 ∧ s.conn.pingreqSendIntervalMs = none then
        some (pv.view.keepAlive * 1000) else s.conn.pingreqSendIntervalMs :=
    congrArg Timers.pingreqSendIntervalMs hc₁.timers
  have hover : (s.next (.send pv)).overridden = s.overridden := Bool.or_false _
  have hmem := mem_send_connect hclient hc₁ pv
  -- what the condition says of the time after the CONNECT
  have hgood : (s.conn.pingreqSendIntervalMs = none ∨ pv.view.keepAlive ≠ 0 ∧
      s.conn.pingreqSendIntervalMs = some (pv.view.keepAlive * 1000)) →
      c₁.pingreqSendIntervalMs = intervalOf pv.view.keepAlive := by
    intro h
    rw [htime, intervalOf]
    by_cases hzero : pv.view.keepAlive = 0
    · rw [if_neg fun hne => hne.1 hzero, if_pos hzero]
      exact h.resolve_right fun hne => hne.1 hzero
    · rw [if_neg hzero]
      rcases h with hnone | ⟨-, hown⟩
      · exact if_pos ⟨hzero, hnone⟩
      · rw [hown, ite_self]
  constructor
  · constructor
    · intro hright
      refine ⟨fun pv' hop _ _ hno => ?_, fun is pv' hop => by cases hop⟩
      obtain rfl : pv = pv' := Op.send.inj hop
      cases hold : s.conn.pingreqSendIntervalMs with
      | none => exact .inl rfl
      | some t =>
        right
        rw [hold, if_neg fun h => by cases h.2] at htime
        obtain ⟨v, hv, hne, hms⟩ := hright.client _ hagreed (hover.trans hno) (some t)
          (by rw [hcall, hmem]; exact ⟨rfl, htime.symm⟩)
        rw [if_pos hska] at hv
        exact ⟨hv ▸ hne, hv ▸ hms⟩
    · intro hfresh
      refine ⟨fun seconds hagreed' hno ms he => ?_, fun seconds hserver => ?_⟩
      · obtain rfl : pv.view.keepAlive = seconds := by
          rw [hagreed] at hagreed'
          exact KeepAlive.client.inj (Option.some.inj hagreed')
        rw [hcall, hmem] at he
        obtain ⟨hne, hms⟩ := intervalOf_eq_some he.1
          (he.2.trans (hgood (hfresh.client pv rfl htype hpass (hover ▸ hno))))
        exact ⟨_, by rw [if_pos hska], hne, hms⟩
      · rw [hagreed] at hserver
        cases hserver
  · intro hfresh
    have hkeep : (s.next (.send pv)).keepAlive = some (.client pv.view.keepAlive) := hagreed
    refine ⟨fun _ _ => hclient, fun seconds hclient' hno => ?_, fun seconds hserver => ?_⟩
    · obtain rfl : pv.view.keepAlive = seconds := by
        rw [hkeep] at hclient'
        exact KeepAlive.client.inj (Option.some.inj hclient')
      have hconn : (s.next (.send pv)).conn.pingreqSendIntervalMs = c₁.pingreqSendIntervalMs := by
        show (s.conn.call (.send pv)).conn.pingreqSendIntervalMs = _
        rw [hcall, Step.conn_andThen, resetPingreqSend_conn]
      exact hconn.trans (hgood (hfresh.client pv rfl htype hpass (hover ▸ hno)))
    · rw [hkeep] at hserver
      cases hserver

/-- A CONNECT that is received sets the PINGREQ timer to the time that there is after it. -/
theorem mem_recv_connect {c₁ : Connection role pb} (hstatus : c₁.status = .connecting)
    (pv : PacketVariant pb) (ms : Option Nat) :
    .timerOp .reset .pingreqRecv ms ∈ (c₁.receive pv).events ↔
      ms.isSome ∧ ms = c₁.pingreqRecvTimeoutMs := by
  rw [receive, Step.events_emit, pingreqRecvOp]
  cases hms : c₁.pingreqRecvTimeoutMs with
  | none => cases ms <;> simp
  | some t => cases ms <;> simp [hstatus]

/-- A keep-alive fits into 16 bits. -/
theorem keepAlive_lt (pv : PacketVariant pb) : pv.view.keepAlive < 2 ^ 16 := by
  have hload : ∀ buf : List UInt8, endianLoad 2 buf < 2 ^ 16 := by
    intro buf
    have hlen : (buf.take 2).length ≤ 2 := List.length_take_le 2 buf
    calc endianLoad 2 buf < 256 ^ (buf.take 2).length := BigEndian.load_lt (buf.take 2)
      _ ≤ 256 ^ 2 := Nat.pow_le_pow_right (by omega) hlen
  cases pv with
  | v311Connect p => exact hload _
  | v5Connect p => exact hload _
  | _ => exact Nat.two_pow_pos 16

/-- A CONNECT that is received -/
theorem rightStep_received {is : List UInt8} {pv : PacketVariant pb} (htype : pv.type = .connect)
    (hreceived : s.conn.received is = some pv) (hallowed : s.conn.recvAllowed pv) :
    s.RightStep (.recv is) := by
  obtain ⟨c₁, hinterval, htimeout, hstatus, hrecv⟩ := recv_connect_times hreceived htype hallowed
  have hcall : s.conn.call (.recv is) = _ := hrecv
  have hsent : s.connectSent (.recv is) = none := connectSent_eq_none sends_recv_connect
  have hconnect : s.connectReceived (.recv is) = some pv.view.keepAlive := by
    rw [connectReceived, hcall, receive, Step.events_emit, receives_append]
    have hnone : receives c₁.pingreqRecvOp.events = [] := by
      unfold pingreqRecvOp
      split
      · rfl
      · split <;> rfl
    rw [hnone]
    simp [receives, htype]
  have hagreed : s.agreed (.recv is) = some (.server pv.view.keepAlive) := by
    rw [agreed, hsent, hconnect]
  have hmem := mem_recv_connect hstatus pv
  have hlt := keepAlive_lt pv
  constructor
  · constructor
    · intro hright
      refine ⟨fun pv' hop => (nomatch hop), fun is' pv' hop hreceived' _ _ => ?_⟩
      obtain rfl : is = is' := Op.recv.inj hop
      obtain rfl : pv = pv' := Option.some.inj (hreceived.symm.trans hreceived')
      by_cases hzero : pv.view.keepAlive = 0
      · right
        cases hold : s.conn.pingreqRecvTimeoutMs with
        | none => rfl
        | some t =>
          -- the time of an earlier connection is used
          rw [if_neg (not_not.mpr hzero), hold] at htimeout
          obtain ⟨hne, -⟩ := hright.server _ hagreed (some t)
            (by rw [hcall, hmem]; exact ⟨rfl, htimeout.symm⟩)
          exact absurd hzero hne
      · exact .inl hzero
    · intro hfresh
      refine ⟨fun seconds hclient => ?_, fun seconds hserver ms he => ?_⟩
      · rw [hagreed] at hclient
        exact nomatch hclient
      · obtain rfl : pv.view.keepAlive = seconds := by
          rw [hagreed] at hserver
          exact KeepAlive.server.inj (Option.some.inj hserver)
        rw [hcall, hmem, htimeout] at he
        obtain ⟨hsome, hms⟩ := he
        by_cases hzero : pv.view.keepAlive = 0
        · rw [if_neg (not_not.mpr hzero)] at hms
          rw [hms, (hfresh.server is pv rfl hreceived htype hallowed).resolve_left
            (not_not.mpr hzero)] at hsome
          exact nomatch hsome
        · rw [if_pos hzero] at hms
          exact ⟨hzero, by omega, _, hms, by omega⟩
  · intro hfresh
    have hkeep : (s.next (.recv is)).keepAlive = some (.server pv.view.keepAlive) := hagreed
    refine ⟨fun _ hclient => ?_, fun _ hclient => ?_, fun seconds hserver => ?_⟩
    · rw [hkeep] at hclient
      exact nomatch hclient
    · rw [hkeep] at hclient
      exact nomatch hclient
    · obtain rfl : pv.view.keepAlive = seconds := by
        rw [hkeep] at hserver
        exact KeepAlive.server.inj (Option.some.inj hserver)
      refine ⟨?_, hlt⟩
      have hconn : (s.next (.recv is)).conn.pingreqRecvTimeoutMs = c₁.pingreqRecvTimeoutMs := by
        show (s.conn.call (.recv is)).conn.pingreqRecvTimeoutMs = _
        rw [hcall, receive_conn]
      rw [hconn, htimeout]
      by_cases hzero : pv.view.keepAlive = 0
      · rw [if_neg (not_not.mpr hzero), if_neg (not_not.mpr hzero)]
        exact (hfresh.server is pv rfl hreceived htype hallowed).resolve_left (not_not.mpr hzero)
      · rw [if_pos hzero, if_pos hzero]

/-- A CONNACK with a Server Keep Alive sets the PINGREQ timer to it. -/
theorem rightStep_connack {is : List UInt8} {p : V5.ConnackPacket} (h : s.Agrees)
    (hmem : .v5Connack p ∈ receives (s.conn.recv is).1.events)
    (haccepts : (PacketVariant.v5Connack p : PacketVariant pb).acceptsConnection) :
    s.RightStep (.recv is) := by
  obtain ⟨hreceived, hallowed⟩ := received_of_receives hmem (by rintro ⟨⟩)
  obtain ⟨c₀, hc₀, heq⟩ := recv_of_allowed hreceived hallowed
  -- it is the only packet that the application gets
  have honly : receives (s.conn.recv is).1.events = [.v5Connack p] := by
    rcases receives_of_signals (signals_of_received hreceived) with hnone | ⟨-, pv', hone, -⟩
    · rw [hnone] at hmem
      cases hmem
    · rw [hone] at hmem
      rw [hone, List.mem_singleton.mp hmem]
  have hska : s.serverKeepAlives (.recv is) = Connection.serverKeepAlives p.props := by
    rw [serverKeepAlives, call, honly, List.flatMap_singleton, PacketVariant.serverKeepAlives,
      if_pos haccepts]
    rfl
  have hsent : s.connectSent (.recv is) = none := connectSent_eq_none sends_recv_connect
  have hconnect : s.connectReceived (.recv is) = none := by
    refine connectReceived_eq_none fun pv hpv => ?_
    rw [call, honly] at hpv
    rw [List.mem_singleton.mp hpv]
    rintro ⟨⟩
  -- a CONNACK starts no new connection
  have hfresh : s.Fresh (.recv is) := by
    refine fresh_of_no_connect (fun pv hop => by cases hop) fun is' pv hop hreceived' htype => ?_
    obtain rfl : is = is' := Op.recv.inj hop
    rw [← Option.some.inj (hreceived.symm.trans hreceived')] at htype
    cases htype
  have hcall : s.conn.call (.recv is) =
      (c₀.recvConnackV5 p).emit (.receive (.v5Connack p)) := heq
  -- what the CONNACK sets again is all that the call sets again
  have hreset : ∀ {kind : TimerKind} {ms : Option Nat},
      .timerOp .reset kind ms ∈ (s.conn.call (.recv is)).events →
      .timerOp .reset kind ms ∈ (c₀.recvConnackV5 p).events := by
    intro kind ms he
    rw [hcall, Step.events_emit] at he
    rcases List.mem_append.mp he with he | he
    · exact he
    · cases List.mem_singleton.mp he
  obtain ⟨htimeout, hrecvs, hsends⟩ := recvConnackV5_times (of_decide_eq_true haccepts) c₀
  have hover : (s.next (.recv is)).overridden = s.overridden := Bool.or_false _
  have hagreed := agreed_eq hsent hconnect
  rw [hska] at hagreed
  have hkeep : (s.next (.recv is)).keepAlive = s.agreed (.recv is) := rfl
  cases hkeepAlive : s.keepAlive with
  -- before a CONNECT nothing is agreed on
  | none =>
    rw [hkeepAlive] at hagreed
    refine ⟨iff_of_true ⟨fun _ hclient => ?_, fun _ hserver => ?_⟩ hfresh, fun _ =>
      ⟨fun _ hclient => ?_, fun _ hclient => ?_, fun _ hserver => ?_⟩⟩
    · cases hagreed.symm.trans hclient
    · cases hagreed.symm.trans hserver
    · cases (hkeep.trans hagreed).symm.trans hclient
    · cases (hkeep.trans hagreed).symm.trans hclient
    · cases (hkeep.trans hagreed).symm.trans hserver
  | some keepAlive =>
    cases keepAlive with
    -- the client takes over the last Server Keep Alive
    | client k =>
      rw [hkeepAlive] at hagreed
      have hclient := h.isClient k hkeepAlive
      obtain ⟨hinterval, hsends⟩ := hsends hclient
      have hold : s.overridden = false → c₀.pingreqSendIntervalMs = intervalOf k := by
        rw [hc₀]
        exact h.client k hkeepAlive
      refine ⟨iff_of_true ⟨fun seconds hseconds hno ms he => ?_, fun _ hserver => ?_⟩ hfresh,
        fun _ => ⟨fun _ _ => hclient, fun seconds hseconds hno => ?_, fun _ hserver => ?_⟩⟩
      · rcases hsends ms (hreset he) with ⟨v, hv, hne, hms⟩ | ⟨hnil, hsome, hms⟩
        · have hsome : Connection.serverKeepAlives p.props ≠ [] := by
            intro hnil
            rw [hnil] at hv
            cases hv
          exact ⟨v, by rw [hska, if_neg hsome]; exact hv, hne, hms⟩
        · rw [hagreed, hnil] at hseconds
          obtain rfl : k = seconds := KeepAlive.client.inj (Option.some.inj hseconds)
          obtain ⟨hne, hms⟩ := intervalOf_eq_some hsome (hms.trans (hold (hover ▸ hno)))
          exact ⟨k, by rw [hska, if_pos hnil], hne, hms⟩
      · cases hagreed.symm.trans hserver
      · rw [hkeep, hagreed] at hseconds
        rw [← KeepAlive.client.inj (Option.some.inj hseconds)]
        show (s.conn.call (.recv is)).conn.pingreqSendIntervalMs = _
        rw [hcall, Step.conn_emit, hinterval, hold (hover ▸ hno)]
        cases (Connection.serverKeepAlives p.props).getLast? <;> rfl
      · cases (hkeep.trans hagreed).symm.trans hserver
    -- a server sends no Server Keep Alive to itself
    | server k =>
      rw [hkeepAlive] at hagreed
      have hold : c₀.pingreqRecvTimeoutMs = s.conn.pingreqRecvTimeoutMs := by rw [hc₀]
      refine ⟨iff_of_true ⟨fun _ hclient => ?_, fun seconds hseconds ms he => ?_⟩ hfresh,
        fun _ => ⟨fun _ hclient => ?_, fun _ hclient => ?_, fun seconds hseconds => ?_⟩⟩
      · cases hagreed.symm.trans hclient
      · obtain ⟨hsome, hms⟩ := hrecvs ms (hreset he)
        obtain rfl : k = seconds :=
          KeepAlive.server.inj (Option.some.inj (hagreed.symm.trans hseconds))
        exact h.serverTime hkeepAlive hsome (hms.trans hold)
      · cases (hkeep.trans hagreed).symm.trans hclient
      · cases (hkeep.trans hagreed).symm.trans hclient
      · obtain rfl : k = seconds :=
          KeepAlive.server.inj (Option.some.inj ((hkeep.trans hagreed).symm.trans hseconds))
        obtain ⟨hserver, hlt⟩ := h.server k hkeepAlive
        refine ⟨?_, hlt⟩
        show (s.conn.call (.recv is)).conn.pingreqRecvTimeoutMs = _
        rw [hcall, Step.conn_emit, htimeout, hold, hserver]

/-- `set_pingreq_send_interval` leaves the time of a server as it is. -/
theorem rightStep_setPingreqSendInterval (h : s.Agrees) (duration : Nat) :
    s.RightStep (.setPingreqSendInterval duration) := by
  have hevents : (s.conn.call (.setPingreqSendInterval duration)).events =
      [.timerOp (if duration = 0 then .cancel else .reset) .pingreqSend
        (if duration = 0 then none else some duration)] := by
    rw [call, setPingreqSendInterval]
    split <;> rfl
  have htimeout : (s.conn.call (.setPingreqSendInterval duration)).conn.pingreqRecvTimeoutMs =
      s.conn.pingreqRecvTimeoutMs := by
    rw [call, setPingreqSendInterval]
    split <;> rfl
  have hagreed : s.agreed (.setPingreqSendInterval duration) = s.keepAlive := by
    refine agreed_of_no_connect (connectSent_eq_none fun pv hpv => ?_)
      (connectReceived_eq_none fun pv hpv => ?_) (serverKeepAlives_eq_nil fun pv hpv => ?_) <;>
      rw [hevents] at hpv <;> cases hpv
  have hover : (s.next (.setPingreqSendInterval duration)).overridden = true := Bool.or_true _
  -- the application overrides the interval of the PINGREQ
  constructor
  · refine iff_of_true ⟨fun _ _ hno => ?_, fun _ _ ms he => ?_⟩
      (fresh_of_no_connect (fun _ hop => by cases hop) fun _ _ hop => by cases hop)
    · cases hover.symm.trans hno
    · rw [hevents] at he
      simp at he
  · intro _
    refine ⟨fun seconds hclient => ?_, fun _ _ hno => ?_, fun seconds hserver => ?_⟩
    · exact h.isClient seconds (hagreed.symm.trans hclient)
    · cases hover.symm.trans hno
    · obtain ⟨hold, hlt⟩ := h.server seconds (hagreed.symm.trans hserver)
      exact ⟨htimeout.trans hold, hlt⟩

/-- The packet with the Server Keep Alive is a CONNACK. -/
theorem connack_of_serverKeepAlives {pv : PacketVariant pb} (h : pv.serverKeepAlives ≠ []) :
    ∃ p, pv = .v5Connack p ∧ pv.acceptsConnection := by
  have haccepts : pv.acceptsConnection := by
    by_contra hno
    exact h (if_neg hno)
  cases pv with
  | v5Connack p => exact ⟨p, rfl, haccepts⟩
  | v311Connack p => exact absurd (if_pos haccepts) h
  | _ => exact nomatch haccepts

/-- Bytes that are received -/
theorem rightStep_recv (h : s.Agrees) (is : List UInt8) : s.RightStep (.recv is) := by
  by_cases hconnect : ∃ pv, s.conn.received is = some pv ∧ pv.type = .connect ∧
      s.conn.recvAllowed pv
  · obtain ⟨pv, hreceived, htype, hallowed⟩ := hconnect
    exact rightStep_received htype hreceived hallowed
  -- a CONNECT that the application gets was received and is allowed
  have htype : ∀ pv ∈ receives (s.conn.recv is).1.events, pv.type ≠ .connect := by
    intro pv hpv htype
    obtain ⟨hreceived, hallowed⟩ := received_of_receives hpv (by rw [htype]; exact nofun)
    exact hconnect ⟨pv, hreceived, htype, hallowed⟩
  by_cases hska : ∃ pv ∈ receives (s.conn.recv is).1.events, pv.serverKeepAlives ≠ []
  · obtain ⟨pv, hmem, hska⟩ := hska
    obtain ⟨p, rfl, haccepts⟩ := connack_of_serverKeepAlives hska
    exact rightStep_connack h hmem haccepts
  · have hnone : ∀ pv ∈ receives (s.conn.recv is).1.events, pv.serverKeepAlives = [] := by
      intro pv hpv
      by_contra hne
      exact hska ⟨pv, hpv, hne⟩
    have hreceives := fun pv hpv => And.intro (htype pv hpv) (hnone pv hpv)
    refine rightStep_of_timed h (recv_timed hreceives) sends_recv_connect hreceives ?_
    refine fresh_of_no_connect (fun _ hop => nomatch hop) fun is' pv hop hreceived htype' => ?_
    obtain rfl : is = is' := Op.recv.inj hop
    exact fun hallowed => hconnect ⟨pv, hreceived, htype', hallowed⟩

/-- A call that neither sends nor receives a packet, with the times as they are. -/
theorem rightStep_of_local (h : s.Agrees) (hlocal : op.isLocal)
    (htimed : Timed s.conn (s.conn.call op)) : s.RightStep op := by
  have hsend : ∀ pv, op ≠ .send pv := by
    rintro pv rfl
    exact nomatch hlocal
  have hrecv : ∀ is, op ≠ .recv is := by
    rintro is rfl
    exact nomatch hlocal
  refine rightStep_of_timed h htimed (fun pv hpv => ?_) (fun pv hpv => ?_) ?_
  · rw [(call_line_local hlocal s.conn).2] at hpv
    exact nomatch hpv
  · rw [receives_call hrecv s.conn] at hpv
    exact nomatch hpv
  · exact fresh_of_no_connect (fun pv hop => absurd hop (hsend pv))
      fun is pv hop => absurd hop (hrecv is)

/-- A step uses the keep alive of its connection exactly if the CONNECT, if it is one, finds no
    other time. -/
theorem rightStep (h : s.Agrees) (op : Op pb) : s.RightStep op := by
  cases op with
  | send pv =>
    -- only a CONNECT that goes out agrees on a keep alive
    by_cases hconnect : pv.type = .connect ∧ s.conn.passesChecks pv
    · exact rightStep_sent hconnect.1 hconnect.2
    · refine rightStep_of_timed h ?_ (fun pv' hpv' htype => ?_) (fun pv' hpv' => ?_) ?_
      · by_cases htype : pv.type = .connect
        · exact send_timed_refused fun hpass => hconnect ⟨htype, hpass⟩
        · exact send_timed htype s.conn
      · obtain ⟨rfl, hpass⟩ := sends_send_connect hpv' htype
        exact hconnect ⟨htype, hpass⟩
      · rw [call, receives_send] at hpv'
        cases hpv'
      · refine fresh_of_no_connect (fun pv' hop htype hpass => ?_) fun _ _ hop => by cases hop
        obtain rfl : pv = pv' := Op.send.inj hop
        exact hconnect ⟨htype, hpass⟩
  | recv is => exact rightStep_recv h is
  | setPingreqSendInterval duration => exact rightStep_setPingreqSendInterval h duration
  | notifyTimerFired kind =>
    have hrecv : ∀ is, (.notifyTimerFired kind : Op pb) ≠ .recv is := by rintro _ ⟨⟩
    refine rightStep_of_timed h (timed_notifyTimerFired kind s.conn) (fun pv hpv htype => ?_)
      (fun pv hpv => ?_) (fresh_of_no_connect (fun _ hop => by cases hop) fun _ _ hop => by cases hop)
    · rcases s.conn.notifyTimerFired_parts kind with ⟨es, hes, heq⟩ | ⟨pv', hpv', heq⟩
      · rw [call, heq] at hpv
        rcases hes with rfl | rfl <;> cases hpv
      · rw [call, heq] at hpv
        rw [(sends_send_connect hpv htype).1] at htype
        rcases hpv' with hpv' | hpv' <;> cases hpv'.symm.trans htype
    · rw [receives_call hrecv s.conn] at hpv
      cases hpv
  | notifyClosed =>
    have hrecv : ∀ is, (.notifyClosed : Op pb) ≠ .recv is := by rintro _ ⟨⟩
    refine rightStep_of_timed h (timed_notifyClosed s.conn) (fun pv hpv => ?_) (fun pv hpv => ?_)
      (fresh_of_no_connect (fun _ hop => by cases hop) fun _ _ hop => by cases hop)
    · rw [call, s.conn.notifyClosed_line.2] at hpv
      cases hpv
    · rw [receives_call hrecv s.conn] at hpv
      cases hpv
  | releasePacketId packetId =>
    have huntimed := untimed_releasePacketId packetId s.conn
    exact rightStep_of_local h rfl (.of_silent huntimed.timers huntimed.events)
  -- the other calls set no time again
  | restorePackets pvs =>
    refine rightStep_of_local h rfl ?_
    obtain ⟨m, st, a, b, d, heq⟩ := s.conn.restorePackets_eq pvs
    rw [call, heq]
    exact .nothing rfl
  | setPingrespRecvTimeout duration =>
    exact rightStep_of_local h rfl
      ⟨rfl, rfl, fun _ he => (by cases he), fun _ he => (by cases he)⟩
  | _ => exact rightStep_of_local h rfl (.nothing rfl)

/-- In a run all timers use the keep alive of their connection exactly if no CONNECT finds a time
    that stands in its way. -/
theorem right_iff_fresh (ver : ProtocolVersion) (ops : List (Op pb)) :
    Run.All next Right (start role pb ver) ops ↔ Run.All next Fresh (start role pb ver) ops := by
  refine Run.all_iff (R := fun s t => s = t ∧ t.Agrees) ?_ ?_ ⟨rfl, agrees_start ver⟩
  · rintro s t op ⟨rfl, h⟩
    exact (rightStep h op).1
  · rintro s t op ⟨rfl, h⟩ hfresh
    exact ⟨rfl, (rightStep h op).2 hfresh⟩

/-- A CONNECT frame with a keep alive of less than 256 seconds -/
def connectFrame (seconds : UInt8) : List UInt8 :=
  [0x10, 13, 0, 4, 0x4d, 0x51, 0x54, 0x54, 5, 0b10, 0, seconds, 0, 0, 0]

/-- A client connects with a keep alive of 10 seconds, but its PINGREQ timer is set to the minute
    of the connection before. A server does the same with a client that wants no keep alive. -/
theorem keep_alive_of_connection_before : ∃ p q,
    V5.connectPacket true 60 [] none none none [] = .ok p ∧
    V5.connectPacket true 10 [] none none none [] = .ok q ∧
    ¬ Run.All next Right (start .client .two .v5)
      [.send (.v5Connect p), .notifyClosed, .send (.v5Connect q)] ∧
    ¬ Run.All next Right (start .server .two .v5)
      [.recv (connectFrame 60), .notifyClosed, .recv (connectFrame 0)] := by
  refine ⟨_, _, rfl, rfl, fun h => ?_, fun h => ?_⟩
  · obtain ⟨v, hv, -, hms⟩ := (h 2 _ rfl).client 10 (by decide +kernel) (by decide +kernel)
      (some 60000) (by decide +kernel)
    rw [if_pos (by decide +kernel)] at hv
    rw [hv] at hms
    exact nomatch hms
  · obtain ⟨hne, -⟩ := (h 2 _ rfl).server 0 (by decide +kernel) (some 90000) (by decide +kernel)
    exact hne rfl

end KeepAliveRun

end AsyncMqtt
