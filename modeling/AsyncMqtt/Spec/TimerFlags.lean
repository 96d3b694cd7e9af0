import AsyncMqtt.ForStd.Latch
import AsyncMqtt.Spec.ConnectionEvents
import AsyncMqtt.Spec.RecvErrors

/-!
# The flags of the timers

The connection does not own its three timers: it tells the owner to reset or to cancel
them, and the owner tells it that one has fired. For each timer the connection keeps a flag
that says whether it runs. The flag is a latch of what the owner has seen.

When the connection ends no timer runs: `cancel_timers` comes before the packet that ends
it, and nothing that comes after this packet in the same call sets a timer.

## Key results

- `Connection.call_mirrors`: what a call does to the flags is what it tells the owner
- `Connection.call_ends`: when a call ends the connection no flag is left
- `Connection.timer_flags`: both over all runs
-/

namespace AsyncMqtt

/-- What the owner of the timers has seen. -/
inductive TimerNote where
  | op (op : TimerOp) (kind : TimerKind)
  | fired (kind : TimerKind)
  deriving DecidableEq, Repr

/-- The timer that it is about -/
def TimerNote.kind : TimerNote → TimerKind
  | .op _ kind | .fired kind => kind

/-- A call of `on_timer_op` -/
def Event.timerNote {pb : PacketIdBytes} : Event pb → Option TimerNote
  | .timerOp op kind _ => some (.op op kind)
  | _ => none

/-- The calls of `on_timer_op` -/
def timerNotes {pb : PacketIdBytes} (es : List (Event pb)) : List TimerNote :=
  es.filterMap Event.timerNote

/-- The notes of a longer list of events -/
@[simp] theorem timerNotes_append {pb : PacketIdBytes} (es fs : List (Event pb)) :
    timerNotes (es ++ fs) = timerNotes es ++ timerNotes fs := List.filterMap_append ..

/-- Events without a note -/
theorem timerNotes_eq_nil {pb : PacketIdBytes} {es : List (Event pb)}
    (h : ∀ e ∈ es, e.timerNote = none) : timerNotes es = [] := by
  rw [timerNotes, List.filterMap_eq_nil_iff]
  exact h

/-- Events that touch no timer make no note. -/
theorem timerNotes_of_untimed {pb : PacketIdBytes} {es : List (Event pb)}
    (h : ∀ e ∈ es, e.isTimerOp = false) : timerNotes es = [] := by
  apply timerNotes_eq_nil
  intro e he
  have hnot := h e he
  cases e with
  | timerOp op kind ms => exact nomatch hnot
  | _ => rfl

/-- A timer runs from a reset until it is cancelled or fires. -/
def timerLatch (kind : TimerKind) : Latch TimerNote where
  sets note := note = .op .reset kind
  resets note := note = .op .cancel kind || note = .fired kind

/-- A latch is concerned by the notes of its timer. -/
theorem timerLatch_concerns {kind : TimerKind} {note : TimerNote} :
    (timerLatch kind).Concerns note ↔ note.kind = kind := by
  rcases note with ⟨op, kind'⟩ | kind'
  · cases op <;> simp [Latch.Concerns, timerLatch, TimerNote.kind]
  · simp [Latch.Concerns, timerLatch, TimerNote.kind]

/-- The last call of `on_timer_op` for the timer was a reset, and `notify_timer_fired` has not
    been called for it since. -/
def LastReset (kind : TimerKind) (notes : List TimerNote) : Prop :=
  ∃ before after, notes = before ++ .op .reset kind :: after ∧ ∀ note ∈ after, note.kind ≠ kind

/-- The last note about a timer has set it if its latch says so. -/
theorem lastReset_iff {kind : TimerKind} {notes : List TimerNote} :
    LastReset kind notes ↔ (timerLatch kind).readAll false notes = true := by
  rw [Latch.readAll_iff]
  constructor
  · rintro ⟨before, after, rfl, hafter⟩
    refine ⟨before, _, after, rfl, decide_eq_true rfl, fun note hnote hc => ?_⟩
    exact hafter note hnote (timerLatch_concerns.mp hc)
  · rintro ⟨before, note, after, rfl, hnote, hafter⟩
    obtain rfl := of_decide_eq_true hnote
    exact ⟨before, after, rfl, fun note hn hk => hafter note hn (timerLatch_concerns.mpr hk)⟩

/-- A DISCONNECT, or a CONNACK that refuses the connection -/
def PacketVariant.endsConnection {pb : PacketIdBytes} (pv : PacketVariant pb) : Bool :=
  pv.type = .disconnect || pv.type = .connack && ! pv.acceptsConnection

namespace Connection

variable {role : Role} {pb : PacketIdBytes} {c c' : Connection role pb} {s : Step role pb}

/-! ### What a call does to the flags -/

/-- The flags go the way of the calls of `on_timer_op`. -/
def Mirrors (c : Connection role pb) (s : Step role pb) : Prop :=
  ∀ kind, s.conn.isSet kind = (timerLatch kind).readAll (c.isSet kind) (timerNotes s.events)

/-- Nothing happens to the timers. -/
theorem Mirrors.of_silent (h : s.conn.isSet = c.isSet) (hevents : timerNotes s.events = []) :
    Mirrors c s := by
  intro kind
  rw [hevents, h]
  rfl

/-- The state before may be changed, but not what is set. -/
theorem Mirrors.of_update (hs : Mirrors c' s) (h : c'.isSet = c.isSet) : Mirrors c s := by
  intro kind
  rw [hs kind, h]

/-- Two steps of which each mirrors its events -/
theorem Mirrors.andThen {f : Connection role pb → Step role pb} (hs : Mirrors c s)
    (hf : Mirrors s.conn (f s.conn)) : Mirrors c (s.andThen f) := by
  intro kind
  rw [Step.conn_andThen, hf kind, hs kind, Step.events_andThen, timerNotes_append,
    Latch.readAll_append]

/-- An event without a note follows. -/
theorem Mirrors.emit {e : Event pb} (hs : Mirrors c s) (he : e.timerNote = none) :
    Mirrors c (s.emit e) := by
  have hnotes : timerNotes [e] = [] := timerNotes_eq_nil fun e' he' =>
    List.mem_singleton.mp he' ▸ he
  intro kind
  rw [Step.events_emit, timerNotes_append, hnotes, List.append_nil]
  exact hs kind

/-- `cancel_timers` cancels the timers whose flag is set. -/
theorem mirrors_cancelTimers (c : Connection role pb) : Mirrors c c.cancelTimers := by
  intro kind
  rw [cancelTimers_conn, cancelTimers_events]
  cases kind with
  | pingreqSend =>
    unfold isSet
    cases c.pingreqSendSet <;> cases c.pingreqRecvSet <;> cases c.pingrespRecvSet <;> rfl
  | pingreqRecv =>
    unfold isSet
    cases c.pingreqSendSet <;> cases c.pingreqRecvSet <;> cases c.pingrespRecvSet <;> rfl
  | pingrespRecv =>
    unfold isSet
    cases c.pingreqSendSet <;> cases c.pingreqRecvSet <;> cases c.pingrespRecvSet <;> rfl

/-- The application sets the interval for the PINGREQ. -/
theorem mirrors_setPingreqSendInterval (duration : Nat) (c : Connection role pb) :
    Mirrors c (c.setPingreqSendInterval duration) := by
  intro kind
  unfold setPingreqSendInterval
  split <;> cases kind <;> rfl

/-- The timer for the PINGREQ of the client is set. -/
theorem mirrors_pingreqRecvOp (c : Connection role pb) : Mirrors c c.pingreqRecvOp := by
  unfold pingreqRecvOp
  split
  · exact .of_silent rfl rfl
  · intro kind
    split <;> cases kind <;> rfl

/-- The timer for the PINGREQ is set. -/
theorem mirrors_resetPingreqSend (c : Connection role pb) : Mirrors c c.resetPingreqSend := by
  unfold resetPingreqSend
  split
  · split
    · exact .of_silent rfl rfl
    · intro kind
      cases kind <;> rfl
  · exact .of_silent rfl rfl

/-- `send_stored` has nothing to do with the timers. -/
theorem mirrors_sendStored (c : Connection role pb) : Mirrors c c.sendStored := by
  apply Mirrors.of_silent
  · rw [sendStored_conn]
    rfl
  · apply timerNotes_eq_nil
    intro e he
    rcases mem_sendStored he with ⟨pv, rfl⟩ | ⟨packetId, rfl⟩ <;> rfl

/-- `process_send_packet` keeps the flags and the calls together. -/
theorem SendParts.mirrors {pv : PacketVariant pb} (h : SendParts c pv s) : Mirrors c s := by
  cases h with
  | silent h hevents => exact .of_silent (congrArg Timers.isSet h) (timerNotes_of_untimed hevents)
  | connect _ c₁ h hs =>
    rw [hs]
    exact .of_silent (congrArg Timers.isSet h.timers) rfl
  | cancelled c₁ h _ es hes hs =>
    rw [hs]
    refine .of_update (fun kind => ?_) (congrArg Timers.isSet h)
    rw [timerNotes_append, timerNotes_of_untimed hes, List.append_nil]
    exact mirrors_cancelTimers c₁ kind
  | pingreq ms hs =>
    rw [hs]
    intro kind
    cases kind <;> rfl

/-- A packet is sent. -/
theorem mirrors_send (pv : PacketVariant pb) (c : Connection role pb) : Mirrors c (c.send pv) := by
  by_cases hallowed : c.sendAllowed pv
  · by_cases hsize : c.validateMaximumPacketSize pv.size
    · have hactual := (c.processSendActual_parts pv).mirrors
      rw [send_of_allowed hallowed hsize]
      split
      · refine .andThen ?_ (mirrors_resetPingreqSend _)
        split
        · exact hactual.andThen (mirrors_sendStored _)
        · exact hactual
      · exact hactual
    · rw [send_of_too_large hallowed hsize]
      exact (failRelease_parts rfl pv _ _).mirrors
  · rw [send_of_not_allowed hallowed]
    exact .of_silent rfl rfl

/-- So does each part of `recv`, and one after another. -/
theorem Responds.mirrors (h : Responds c s) : Mirrors c s := by
  -- the parts of an answer tell the owner exactly what they write into the flags
  induction h with
  | update h => exact .of_silent h rfl
  | report c he =>
    refine .of_silent rfl (timerNotes_eq_nil fun e' he' => ?_)
    rw [List.mem_singleton.mp he']
    revert he
    unfold Event.isReport
    split <;> first | exact fun _ => rfl | exact fun h => nomatch h
  | answer c _ _ => exact mirrors_send _ c
  | stored c => exact mirrors_sendStored c
  | pingreqRecvOp c => exact mirrors_pingreqRecvOp c
  | cancelTimers c => exact mirrors_cancelTimers c
  | interval c duration _ => exact mirrors_setPingreqSendInterval duration c
  | pingresp c =>
    intro kind
    cases kind <;> rfl
  | @trans c s t _ _ ih ih' => exact Mirrors.andThen (f := fun _ => t) ih ih'

/-- What the owner sees during a call: that it has called `notify_timer_fired` itself, and
    then the calls of `on_timer_op`. -/
def ownerNotes (c : Connection role pb) (op : Op pb) : List TimerNote :=
  (match op with
    | .notifyTimerFired kind => [.fired kind]
    | _ => []) ++ timerNotes (c.call op).events

/-- A timer that fired is no longer set. -/
theorem isSet_unset (kind kind' : TimerKind) (c : Connection role pb) :
    (c.unset kind).isSet kind' = (timerLatch kind').read (c.isSet kind') (.fired kind) := by
  cases kind <;> cases kind' <;> rfl

/-- A timer that has fired no longer runs; what is sent then may set it again. -/
theorem mirrors_notifyTimerFired (kind : TimerKind) (c : Connection role pb) :
    Mirrors (c.unset kind) (c.notifyTimerFired kind) := by
  rcases c.notifyTimerFired_parts kind with ⟨es, hes, heq⟩ | ⟨pv, -, heq⟩
  · rw [heq]
    refine .of_silent rfl ?_
    rcases hes with rfl | rfl <;> rfl
  · rw [heq]
    exact mirrors_send pv _

/-- The connection is told of the end. -/
theorem mirrors_notifyClosed (c : Connection role pb) : Mirrors c c.notifyClosed := by
  obtain ⟨s, hs, heq⟩ := c.notifyClosed_parts
  rw [heq]
  exact .andThen (.of_silent (congrArg Timers.isSet hs.timers) (timerNotes_of_untimed hs.events))
    (mirrors_cancelTimers _)

/-- A call does to the flags what it tells the owner. -/
theorem call_mirrors (op : Op pb) (c : Connection role pb) (kind : TimerKind) :
    (c.next op).isSet kind = (timerLatch kind).readAll (c.isSet kind) (c.ownerNotes op) := by
  have hplain : ∀ {s : Step role pb}, Mirrors c s → s.conn.isSet kind =
      (timerLatch kind).readAll (c.isSet kind) ([] ++ timerNotes s.events) := fun h => h kind
  -- the three flags are written where the owner is told
  cases op with
  | send pv => exact hplain (mirrors_send pv c)
  | recv is => exact hplain (recv_responds is c).mirrors
  | notifyTimerFired kind' =>
    have h := mirrors_notifyTimerFired kind' c kind
    rw [isSet_unset] at h
    exact h
  | notifyClosed => exact hplain (mirrors_notifyClosed c)
  | setPingreqSendInterval duration => exact hplain (mirrors_setPingreqSendInterval duration c)
  | releasePacketId packetId =>
    refine hplain (.of_silent ?_ ?_)
    · rw [call, releasePacketId_conn]
      rfl
    · rw [call, releasePacketId]
      split <;> rfl
  | restorePackets pvs =>
    refine hplain (.of_silent ?_ rfl)
    obtain ⟨m, st, a, b, d, heq⟩ := c.restorePackets_eq pvs
    rw [call, heq]
    rfl
  | _ => exact hplain (.of_silent rfl rfl)

/-! ### The end of the connection -/

/-- The flag of no timer is set. -/
def Idle (c : Connection role pb) : Prop := ∀ kind, c.isSet kind = false

/-- After `cancel_timers` no timer is set. -/
theorem idle_cancelTimers (c : Connection role pb) : c.cancelTimers.conn.Idle := by
  intro kind
  rw [cancelTimers_conn]
  cases kind <;> rfl

/-- What comes after the end sets no timer. -/
theorem idle_resetPingreqSend (hstatus : c.status = .disconnected) (h : c.Idle) :
    c.resetPingreqSend.conn.Idle := by
  rw [resetPingreqSend, if_neg fun hc => hc.2.2 hstatus]
  exact h

/-- Sending the store again sets no timer. -/
theorem idle_sendStored (h : c.Idle) : c.sendStored.conn.Idle := by
  rw [sendStored_conn]
  exact h

/-- A packet that ends the connection ends it with all timers cancelled. -/
theorem processSendActual_ends {pv : PacketVariant pb} (h : pv.endsConnection)
    (c : Connection role pb) :
    (c.processSendActual pv).step.conn.Idle ∧
      (c.processSendActual pv).step.conn.status = .disconnected := by
  have hcancel : ({ c with status := .disconnected } : Connection role pb).cancelTimers.conn.Idle ∧
      ({ c with status := .disconnected } : Connection role pb).cancelTimers.conn.status =
        .disconnected := by
    refine ⟨idle_cancelTimers _, ?_⟩
    rw [cancelTimers_conn]
  -- a DISCONNECT ends the connection, and a CONNACK that refuses does
  cases pv with
  | v311Disconnect p | v5Disconnect p => exact hcancel
  | v311Connack p =>
    have hcode : p.code ≠ 0 := fun hcode => by
      simp [PacketVariant.endsConnection, PacketVariant.acceptsConnection, PacketVariant.type,
        PacketVariant.view, hcode] at h
    rw [processSendActual, sendConnackV311, if_neg hcode]
    exact hcancel
  | v5Connack p =>
    have hcode : p.code ≠ ConnectReasonCode.success := fun hcode => by
      simp [PacketVariant.endsConnection, PacketVariant.acceptsConnection, PacketVariant.type,
        PacketVariant.view, hcode, ConnectReasonCode.success] at h
    rw [processSendActual, sendConnackV5, if_neg hcode]
    exact hcancel
  | _ => cases h

/-- A packet that ends the connection leaves no timer set. -/
theorem send_ends_of_passes {pv : PacketVariant pb} (h : pv.endsConnection)
    (hpass : c.passesChecks pv) : (c.send pv).conn.Idle := by
  obtain ⟨hallowed, hsize⟩ := Bool.and_eq_true_iff.mp hpass
  obtain ⟨hidle, hstatus⟩ := processSendActual_ends h c
  rw [send_of_allowed hallowed hsize]
  split
  · rw [Step.conn_andThen]
    apply idle_resetPingreqSend
    · split
      · rw [Step.conn_andThen, sendStored_conn]
        exact hstatus
      · exact hstatus
    · split
      · exact idle_sendStored hidle
      · exact hidle
  · exact hidle

/-- The stored packets are PUBLISH and PUBREL packets. -/
theorem not_endsConnection_of_stored {limit : Nat} {pv : PacketVariant pb}
    (h : pv ∈ c.storedFit limit) : pv.endsConnection = false := by
  obtain ⟨e, -, -, rfl⟩ := mem_storedFit.mp h
  cases e.packet <;> rfl

/-- When `send` has sent a packet that ends the connection, no flag is left. -/
theorem send_ends {pv pv' : PacketVariant pb} (hsent : pv' ∈ sends (c.send pv).events)
    (h : pv'.endsConnection) : (c.send pv).conn.Idle := by
  by_cases hpass : c.passesChecks pv
  -- what is sent is the packet itself, or comes from the store
  · by_cases htype : pv.type = .publish
    · rcases (c.send_line_publish htype).2 with hnone | ⟨-, -, hone⟩
      · rw [hnone] at hsent
        exact nomatch hsent
      · rw [hone] at hsent
        obtain rfl := List.mem_singleton.mp hsent
        cases pv with
        | v311Publish p | v5Publish p => exact nomatch h
        | _ => exact nomatch htype
    · rw [(send_line htype hpass).2] at hsent
      rcases List.mem_cons.mp hsent with rfl | hstored
      · exact send_ends_of_passes h hpass
      · split at hstored
        · rw [not_endsConnection_of_stored hstored] at h
          exact nomatch h
        · exact nomatch hstored
  · rw [(send_line_refused hpass).2] at hsent
    exact nomatch hsent

/-- While the connection goes on, nothing is sent that ends it. -/
theorem Parts.goes_on (h : Parts c s) : ∀ pv ∈ sends s.events, pv.endsConnection = false := by
  induction h with
  | update h => exact fun pv hpv => nomatch hpv
  | report c he =>
    intro pv hpv
    obtain ⟨release, he'⟩ := mem_sends.mp hpv
    rw [← List.mem_singleton.mp he'] at he
    exact nomatch he
  | @answer c r hr _ hdisconnect =>
    obtain ⟨hpublish, hconnack, -⟩ := isAnswer_type hr
    intro pv hpv
    -- the answer goes out, and it is no DISCONNECT
    by_cases hpass : c.passesChecks r
    · rw [(send_line hpublish hpass).2, if_neg hconnack] at hpv
      obtain rfl := List.mem_singleton.mp hpv
      simp [PacketVariant.endsConnection, hdisconnect, hconnack]
    · rw [(send_line_refused hpass).2] at hpv
      exact nomatch hpv
  | stored c =>
    intro pv hpv
    rw [sends_sendStored] at hpv
    exact not_endsConnection_of_stored hpv
  | pingreqRecvOp c =>
    intro pv hpv
    rw [sends_pingreqRecvOp] at hpv
    exact nomatch hpv
  | pingresp c => exact fun pv hpv => nomatch hpv
  | trans _ _ ih ih' =>
    intro pv hpv
    rw [sends_append, List.mem_append] at hpv
    rcases hpv with hpv | hpv
    · exact ih pv hpv
    · exact ih' pv hpv

/-- When `recv` has sent a packet that ends the connection, no flag is left. -/
theorem RecvParts.ends (h : RecvParts c s) {pv : PacketVariant pb} (hsent : pv ∈ sends s.events)
    (hends : pv.endsConnection) : s.conn.Idle := by
  have hemit : ∀ {t : Step role pb} {e : Event pb}, sends [e] = [] →
      pv ∈ sends (t.emit e).events → pv ∈ sends t.events := by
    intro t e he hpv
    rwa [Step.events_emit, sends_append, he, List.append_nil] at hpv
  cases h with
  -- each part goes on, so the packet is that of an ending one
  | parts h =>
    rw [h.goes_on pv hsent] at hends
    exact nomatch hends
  | connect c₁ pv' _ _ _ hs =>
    rw [hs, sends_receive] at hsent
    exact nomatch hsent
  | connack c₁ p _ hs =>
    rw [hs] at hsent
    replace hsent := hemit rfl hsent
    unfold recvConnackV5 at hsent
    split at hsent
    · rw [Step.events_andThen, sends_append, sends_recvConnackProps, List.nil_append] at hsent
      rw [(Parts.resumeSession _ _).goes_on pv hsent] at hends
      exact nomatch hends
    · exact nomatch hsent
  | disconnect c₁ reasonCode _ hs =>
    rw [hs] at hsent ⊢
    exact send_ends (hemit rfl hsent) hends
  | cancelled c₁ es _ _ hs =>
    rw [hs]
    exact idle_cancelTimers c₁
  | refused c₁ r _ ec _ hs =>
    rw [hs] at hsent ⊢
    exact send_ends (hemit rfl hsent) hends

/-- When `recv` has given a DISCONNECT to the application, no flag is left. -/
theorem recv_ends_received {is : List UInt8} {pv : PacketVariant pb}
    (hpv : pv ∈ receives (c.recv is).1.events) (h : pv.type = .disconnect) :
    (c.recv is).1.conn.Idle := by
  have hpublish : pv.type ≠ .publish := by
    rw [h]
    exact nofun
  obtain ⟨hreceived, hallowed⟩ := received_of_receives hpv hpublish
  obtain ⟨c₁, -, heq⟩ := recv_of_allowed hreceived hallowed
  rw [heq]
  cases pv with
  | v311Disconnect p | v5Disconnect p => exact idle_cancelTimers _
  | _ => exact nomatch h

/-- The call ends the connection: it is `notify_closed`, or a packet that ends the connection
    is sent in it, or it gives a DISCONNECT to the application. A packet that is refused is
    neither sent nor received. -/
def EndsConnection (c : Connection role pb) (op : Op pb) : Prop :=
  op = .notifyClosed ∨ (∃ pv ∈ sends (c.call op).events, pv.endsConnection) ∨
    ∃ pv ∈ receives (c.call op).events, pv.type = .disconnect

/-- When a call has ended the connection no flag is left. -/
theorem call_ends {op : Op pb} (h : c.EndsConnection op) : (c.next op).Idle := by
  -- the connection is closed, ended by a packet that is sent, or by one that is received
  rcases h with rfl | ⟨pv, hpv, hends⟩ | ⟨pv, hpv, htype⟩
  · intro kind
    rw [next, call, notifyClosed_conn]
    cases kind <;> rfl
  · cases op with
    | send pv' => exact send_ends hpv hends
    | recv is => exact (c.recv_parts is).ends hpv hends
    | notifyClosed =>
      rw [call, c.notifyClosed_line.2] at hpv
      cases hpv
    | notifyTimerFired kind =>
      rcases c.notifyTimerFired_parts kind with ⟨es, hes, heq⟩ | ⟨pv', -, heq⟩
      · rw [call, heq] at hpv
        rcases hes with rfl | rfl <;> cases hpv
      · rw [call, heq] at hpv
        rw [next, call, heq]
        exact send_ends hpv hends
    | _ =>
      rw [(call_line_local rfl c).2] at hpv
      cases hpv
  · by_cases hrecv : ∃ is, op = .recv is
    · obtain ⟨is, rfl⟩ := hrecv
      exact recv_ends_received hpv htype
    · rw [receives_call (fun is heq => hrecv ⟨is, heq⟩) c] at hpv
      cases hpv

/-- A timer that runs before a call and not after it has fired or was cancelled. -/
theorem cancelled_of_unset {op : Op pb} {kind : TimerKind} (hset : c.isSet kind = true)
    (hunset : (c.next op).isSet kind = false) (hfired : op ≠ .notifyTimerFired kind) :
    ∃ ms, .timerOp .cancel kind ms ∈ (c.call op).events := by
  rw [call_mirrors, hset] at hunset
  obtain ⟨note, hnote, hresets⟩ := Latch.exists_resets hunset
  -- the note that resets the flag is the timer's own, or the cancel the owner is told
  rcases List.mem_append.mp hnote with hown | htold
  · exfalso
    cases op with
    | notifyTimerFired kind' =>
      obtain rfl := List.mem_singleton.mp hown
      apply hfired
      simpa [timerLatch] using hresets
    | _ => exact nomatch hown
  · obtain ⟨e, he, hnote⟩ := List.mem_filterMap.mp htold
    cases e with
    | timerOp op' kind' ms =>
      obtain rfl := Option.some.inj hnote
      obtain ⟨rfl, rfl⟩ : op' = .cancel ∧ kind' = kind := by simpa [timerLatch] using hresets
      exact ⟨ms, he⟩
    | _ => exact nomatch hnote

/-- In every state of a connection the flag of a timer is set exactly if the last call of
    `on_timer_op` for it was a reset and it has not fired since. After a call that ends the
    connection no flag is set, and each timer that ran before it, other than the one that has
    fired, was cancelled. -/
theorem timer_flags (ver : ProtocolVersion) (ops : List (Op pb)) (kind : TimerKind) :
    (((make role pb ver).run ops).isSet kind = true ↔
      LastReset kind (Run.trace next ownerNotes (make role pb ver) ops)) ∧
    ∀ op, ((make role pb ver).run ops).EndsConnection op →
      (((make role pb ver).run ops).next op).isSet kind = false ∧
      (((make role pb ver).run ops).isSet kind = true → op ≠ .notifyTimerFired kind →
        ∃ ms, .timerOp .cancel kind ms ∈ (((make role pb ver).run ops).call op).events) := by
  constructor
  · have hall : Run.All next (fun _ _ => True) (make role pb ver) ops := fun _ _ _ => trivial
    have hflag := Latch.flag_final (fun c => c.isSet kind)
      (fun c op _ => call_mirrors op c kind) hall
    rw [lastReset_iff, run, hflag]
    have hmake : (make role pb ver).isSet kind = false := by cases kind <;> rfl
    rw [hmake]
  · intro op hends
    have hunset := call_ends hends kind
    exact ⟨hunset, fun hset hfired => cancelled_of_unset hset hunset hfired⟩

/-- The PINGREQ send timer is cancelled when the connection is closed. -/
theorem timer_flags_closed :
    (((make .client .two .v5).run [.setPingreqSendInterval 1000]).next .notifyClosed).isSet
      .pingreqSend = false ∧
    ∃ ms, .timerOp .cancel .pingreqSend ms ∈
      (((make .client .two .v5).run [.setPingreqSendInterval 1000]).call .notifyClosed).events := by
  have h := (@timer_flags .client .two .v5 [.setPingreqSendInterval 1000]
    .pingreqSend).2 .notifyClosed (.inl rfl)
  exact ⟨h.1, h.2 rfl nofun⟩

end Connection

end AsyncMqtt
