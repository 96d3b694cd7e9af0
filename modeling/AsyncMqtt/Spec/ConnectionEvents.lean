import AsyncMqtt.Spec.RecvSignals
import AsyncMqtt.Spec.SendEvents

/-!
# The calls that a member function makes

`send` makes only a few of the calls to the owner of the connection, and which ones depends on the
class of the packet. `recv` is made of a few parts: it changes the state, makes a call, sends a
packet by itself, or sets and cancels timers. What holds of each part, and of one after another,
holds of `recv`.

## Key results

- `Connection.send_events`: the calls that `send` makes
- `Connection.processSendActual_parts`: what `process_send_packet` does to the timers
- `Connection.recv_parts`: what `recv` does to the timers
- `Connection.recv_responds`: what `recv` is made of
-/

namespace AsyncMqtt

/-- The packet ends the connection: `cancel_timers` is called when it is sent. -/
def PacketVariant.cancelsTimers {pb : PacketIdBytes} : PacketVariant pb → Bool
  | .v311Connack p => p.code ≠ 0
  | .v5Connack p => p.code ≠ ConnectReasonCode.success
  | .v311Disconnect _ | .v5Disconnect _ => true
  | _ => false

namespace Connection

variable {role : Role} {pb : PacketIdBytes}

/-- `pingreq_send_set_` and its like -/
def isSet (c : Connection role pb) : TimerKind → Bool
  | .pingreqSend => c.pingreqSendSet
  | .pingreqRecv => c.pingreqRecvSet
  | .pingrespRecv => c.pingrespRecvSet

/-! ### Sending -/

/-- The calls that `send` makes for a packet. -/
def Sends (c : Connection role pb) (pv : PacketVariant pb) : Event pb → Prop
  | .error _ | .packetIdRelease _ | .threw _ => True
  | .send _ release =>
    release.isSome → pv.type = .publish ∨ pv.type = .subscribe ∨ pv.type = .unsubscribe
  | .close => pv.type = .disconnect
  | .timerOp .reset .pingreqSend ms => canSendAsClient role ∧ ms.isSome
  | .timerOp .reset .pingrespRecv ms => pv.type = .pingreq ∧ ms.isSome
  | .timerOp .reset .pingreqRecv _ => False
  | .timerOp .cancel kind _ => pv.cancelsTimers ∧ c.isSet kind
  | .receive _ | .outOfBounds => False

/-- `cancel_timers` cancels every timer that is set. -/
theorem cancelTimers_events (c : Connection role pb) :
    c.cancelTimers.events =
      (if c.pingreqSendSet then [.timerOp .cancel .pingreqSend none] else []) ++
      (if c.pingreqRecvSet then [.timerOp .cancel .pingreqRecv none] else []) ++
      (if c.pingrespRecvSet then [.timerOp .cancel .pingrespRecv none] else []) := by
  simp only [cancelTimers, cancelTimer, Step.events_andThen, Step.conn_andThen]
  cases c.pingreqSendSet <;> cases hr : c.pingreqRecvSet <;> cases hp : c.pingrespRecvSet <;>
    simp [hr, hp]

/-- The events of `cancel_timers` cancel the timers that are set. -/
theorem mem_cancelTimers {c : Connection role pb} {e : Event pb} :
    e ∈ c.cancelTimers.events ↔ ∃ kind, c.isSet kind ∧ e = .timerOp .cancel kind none := by
  rw [cancelTimers_events]
  constructor
  · intro he
    simp only [List.mem_append] at he
    -- each `if` of the source cancels its own timer
    rcases he with (he | he) | he
    · split at he
      · next h => exact ⟨.pingreqSend, h, by simpa using he⟩
      · exact nomatch he
    · split at he
      · next h => exact ⟨.pingreqRecv, h, by simpa using he⟩
      · exact nomatch he
    · split at he
      · next h => exact ⟨.pingrespRecv, h, by simpa using he⟩
      · exact nomatch he
  · rintro ⟨kind, hset, rfl⟩
    cases kind <;> simp only [isSet] at hset <;> simp [hset]

/-- The events of a refusal send nothing. -/
theorem failRelease_sends {c c' : Connection role pb} {pv : PacketVariant pb} (ec : ErrorCode)
    (packetId : Nat) : ∀ e ∈ (Sent.failRelease c' ec packetId).step.events, c.Sends pv e := by
  intro e he
  have h := failRelease_refusals c' ec packetId e he
  cases e with
  | error ec => trivial
  | packetIdRelease packetId => trivial
  | threw x => trivial
  | _ => exact nomatch h

/-- A PUBLISH is sent by no event but its own. -/
theorem PublishOutcome.sends {c : Connection role pb} {pv : PacketVariant pb} {r : Sent role pb}
    (h : PublishOutcome c pv r) (htype : pv.type = .publish) :
    ∀ e ∈ r.step.events, c.Sends pv e := by
  intro e he
  -- a PUBLISH that is stopped or fails sends nothing
  cases h with
  | stopped henters hs =>
    rcases hs.events e he with ⟨ec, rfl⟩ | rfl | ⟨x, rfl⟩ <;> trivial
  | plain _ _ _ _ _ _ _ hevents =>
    rw [hevents] at he
    split at he
    · obtain rfl := List.mem_singleton.mp he
      exact fun _ => .inl htype
    · exact nomatch he
  | failed _ ec _ hr =>
    rw [hr] at he
    exact failRelease_sends ec pv.packetId e he
  | entered _ _ _ _ _ _ _ _ hevents =>
    rw [hevents] at he
    split at he
    · obtain rfl := List.mem_singleton.mp he
      exact fun _ => .inl htype
    · exact nomatch he

/-- `process_send_packet` makes only these calls. -/
theorem processSendActual_sends (pv : PacketVariant pb) (c : Connection role pb) :
    ∀ e ∈ (c.processSendActual pv).step.events, c.Sends pv e := by
  -- a CONNACK that refuses and a DISCONNECT cancel the timers that are set
  have hcancel : ∀ {pv' : PacketVariant pb} {e : Event pb}, pv'.cancelsTimers = true →
      e ∈ ({ c with status := .disconnected } : Connection role pb).cancelTimers.events →
      c.Sends pv' e := by
    intro pv' e hpv' he
    obtain ⟨kind, hset, rfl⟩ := mem_cancelTimers.mp he
    exact ⟨hpv', by cases kind <;> exact hset⟩
  -- only a PINGREQ sets the timer for the PINGRESP
  have hping : ∀ {pv' : PacketVariant pb}, pv'.type = .pingreq →
      ∀ e ∈ (c.sendPingreq pv').step.events, c.Sends pv' e := by
    intro pv' htype e he
    unfold sendPingreq at he
    split at he
    · obtain rfl := List.mem_singleton.mp he
      rintro ⟨⟩
    · simp only [List.mem_cons, List.not_mem_nil, or_false] at he
      rcases he with rfl | rfl
      · rintro ⟨⟩
      · exact ⟨htype, rfl⟩
  intro e he
  cases pv with
  | v311Publish p => exact (c.sendPublishV311_outcome p).sends rfl e he
  | v5Publish p => exact (c.sendPublishV5_outcome p).sends rfl e he
  | v311Connack p =>
    simp only [processSendActual, Step.events_emit, List.mem_append, List.mem_singleton] at he
    rcases he with he | rfl
    · unfold sendConnackV311 at he
      split at he
      · cases he
      · next hcode => exact hcancel (decide_eq_true hcode) he
    · rintro ⟨⟩
  | v5Connack p =>
    simp only [processSendActual, Step.events_emit, List.mem_append, List.mem_singleton] at he
    rcases he with he | rfl
    · unfold sendConnackV5 at he
      split at he
      · cases he
      · next hcode => exact hcancel (decide_eq_true hcode) he
    · rintro ⟨⟩
  | v311Pingreq p | v5Pingreq p => exact hping rfl e he
  | v311Disconnect p | v5Disconnect p =>
    simp only [processSendActual, sendDisconnect, Step.events_emit, List.mem_append,
      List.mem_singleton] at he
    rcases he with (he | rfl) | rfl
    · exact hcancel rfl he
    · rintro ⟨⟩
    · exact rfl
  | v311Subscribe p | v5Subscribe p =>
    obtain rfl := List.mem_singleton.mp he
    exact fun _ => .inr (.inl rfl)
  | v311Unsubscribe p | v5Unsubscribe p =>
    obtain rfl := List.mem_singleton.mp he
    exact fun _ => .inr (.inr rfl)
  | _ =>
    obtain rfl := List.mem_singleton.mp he
    rintro ⟨⟩

/-- `send_stored` sends packets that are not released, and releases those that are too large. -/
theorem mem_sendStored {c : Connection role pb} {e : Event pb} (h : e ∈ c.sendStored.events) :
    (∃ pv, e = .send pv none) ∨ ∃ packetId, e = .packetIdRelease packetId := by
  have helems : ∀ (pvs : List (StorePacketVariant pb)) (c : Connection role pb),
      e ∈ (sendStoredElems pvs c).events →
        (∃ pv, e = .send pv none) ∨ ∃ packetId, e = .packetIdRelease packetId := by
    intro pvs
    -- the stored packets are sent or given back, one by one
    induction pvs with
    | nil => exact fun _ he => nomatch he
    | cons pv pvs ih =>
      intro c he
      rw [sendStoredElems, Step.events_andThen, List.mem_append] at he
      rcases he with he | he
      · split at he
        · exact .inr ⟨_, List.mem_singleton.mp he⟩
        · exact .inl ⟨_, List.mem_singleton.mp he⟩
      · exact ih _ he
  rw [sendStored, Step.events_andThen, List.append_nil] at h
  exact helems _ _ h

/-- Only a client sets the timer for the PINGREQ. -/
theorem mem_resetPingreqSend {c : Connection role pb} {e : Event pb}
    (h : e ∈ c.resetPingreqSend.events) :
    canSendAsClient role ∧ ∃ ms, e = .timerOp .reset .pingreqSend (some ms) := by
  unfold resetPingreqSend at h
  split at h
  · next hclient =>
    split at h
    · cases h
    · exact ⟨hclient.1, _, List.mem_singleton.mp h⟩
  · cases h

/-- `send` makes only these calls. -/
theorem send_events (pv : PacketVariant pb) (c : Connection role pb) :
    ∀ e ∈ (c.send pv).events, c.Sends pv e := by
  intro e he
  -- a packet that is allowed and fits does its own part, and the store and the timer come after it
  by_cases hallowed : c.sendAllowed pv
  · by_cases hsize : c.validateMaximumPacketSize pv.size
    · rw [send_of_allowed hallowed hsize] at he
      split at he
      · rw [Step.events_andThen, List.mem_append] at he
        rcases he with he | he
        · split at he
          · rw [Step.events_andThen, List.mem_append] at he
            rcases he with he | he
            · exact c.processSendActual_sends pv e he
            · rcases mem_sendStored he with ⟨pv', rfl⟩ | ⟨packetId, rfl⟩
              · exact nofun
              · trivial
          · exact c.processSendActual_sends pv e he
        · obtain ⟨hclient, ms, rfl⟩ := mem_resetPingreqSend he
          exact ⟨hclient, rfl⟩
      · exact c.processSendActual_sends pv e he
    · rw [send_of_too_large hallowed hsize] at he
      exact failRelease_sends _ _ e he
  · rw [send_of_not_allowed hallowed] at he
    obtain rfl := List.mem_singleton.mp he
    trivial

/-! ### Timers when sending -/

end Connection

/-- A call of `on_timer_op` -/
def Event.isTimerOp {pb : PacketIdBytes} : Event pb → Bool
  | .timerOp .. => true
  | _ => false

namespace Connection

variable {role : Role} {pb : PacketIdBytes} {c : Connection role pb} {s : Step role pb}

/-- The timers of a connection: how long they run, and whether they do. -/
structure Timers where
  pingreqSendIntervalMs : Option Nat
  pingreqRecvTimeoutMs : Option Nat
  pingrespRecvTimeoutMs : Option Nat
  isSet : TimerKind → Bool

/-- The timers of a connection. -/
def timers (c : Connection role pb) : Timers where
  pingreqSendIntervalMs := c.pingreqSendIntervalMs
  pingreqRecvTimeoutMs := c.pingreqRecvTimeoutMs
  pingrespRecvTimeoutMs := c.pingrespRecvTimeoutMs
  isSet := c.isSet

/-- What a CONNECT that is sent does to the timers: it brings a time for the PINGREQ timer, if
    its keep alive is not 0 and there is none yet. -/
structure Connecting (c : Connection role pb) (keepAlive : Nat) (c₁ : Connection role pb) :
    Prop where
  timers : c₁.timers = { c.timers with
    pingreqSendIntervalMs :=
      if keepAlive ≠ 0 ∧ c.pingreqSendIntervalMs = none then some (keepAlive * 1000)
      else c.pingreqSendIntervalMs }
  isClient : c₁.isClient
  status : c₁.status = .connecting

/-- What `process_send_packet` does to the timers. -/
inductive SendParts (c : Connection role pb) (pv : PacketVariant pb) (s : Step role pb) : Prop where
  | silent (h : s.conn.timers = c.timers) (hevents : ∀ e ∈ s.events, e.isTimerOp = false)
  | connect (htype : pv.type = .connect) (c₁ : Connection role pb)
      (h : Connecting c pv.view.keepAlive c₁) (hs : s = ⟨c₁, [.send pv none]⟩)
  | cancelled (c₁ : Connection role pb) (h : c₁.timers = c.timers)
      (hstatus : c₁.status = .disconnected) (es : List (Event pb))
      (hes : ∀ e ∈ es, e.isTimerOp = false)
      (hs : s = ⟨c₁.cancelTimers.conn, c₁.cancelTimers.events ++ es⟩)
  | pingreq (ms : Nat) (hs : s = ⟨{ c with pingrespRecvSet := true },
      [.send pv none, .timerOp .reset .pingrespRecv (some ms)]⟩)

/-- The packet is sent, and nothing else happens. -/
theorem SendParts.silent_send {pv : PacketVariant pb} {c₁ : Connection role pb}
    (h : c₁.timers = c.timers) {release : Option Nat} :
    SendParts c pv ⟨c₁, [.send pv release]⟩ := by
  refine .silent h fun e he => ?_
  rw [List.mem_singleton.mp he]
  rfl

/-- A step that has nothing to do with the timers. -/
structure Untimed (c : Connection role pb) (s : Step role pb) : Prop where
  timers : s.conn.timers = c.timers
  events : ∀ e ∈ s.events, e.isTimerOp = false

/-- Nothing happens. -/
theorem Untimed.nothing {c c' : Connection role pb} (h : c'.timers = c.timers) :
    Untimed c ⟨c', []⟩ := ⟨h, fun _ he => nomatch he⟩

/-- The state before may be changed, but not the timers. -/
theorem Untimed.of_update {c c' : Connection role pb} {s : Step role pb} (hs : Untimed c' s)
    (h : c'.timers = c.timers) : Untimed c s := ⟨hs.timers.trans h, hs.events⟩

/-- Two parts of which neither touches a timer -/
theorem Untimed.andThen {c : Connection role pb} {s : Step role pb}
    {f : Connection role pb → Step role pb} (hs : Untimed c s) (hf : Untimed s.conn (f s.conn)) :
    Untimed c (s.andThen f) where
  timers := hf.timers.trans hs.timers
  events e he := by
    rcases List.mem_append.mp he with he | he
    · exact hs.events e he
    · exact hf.events e he

/-- A packet that is refused has nothing to do with the timers. -/
theorem untimed_failRelease (c : Connection role pb) (ec : ErrorCode) (packetId : Nat) :
    Untimed c (Sent.failRelease c ec packetId).step := by
  refine ⟨?_, fun e he => ?_⟩
  · unfold Sent.failRelease
    split <;> rfl
  · have hrefusal := failRelease_refusals c ec packetId e he
    cases e with
    | timerOp op kind ms => exact nomatch hrefusal
    | _ => rfl

/-- A refusal touches no timer. -/
theorem failRelease_parts {c₁ : Connection role pb} (h : c₁.timers = c.timers)
    (pv : PacketVariant pb) (ec : ErrorCode) (packetId : Nat) :
    SendParts c pv (Sent.failRelease c₁ ec packetId).step :=
  have huntimed := (untimed_failRelease c₁ ec packetId).of_update h
  .silent huntimed.timers huntimed.events

/-- A PUBLISH has nothing to do with the timers before it is out. -/
theorem PublishOutcome.parts {pv : PacketVariant pb} {r : Sent role pb}
    (h : PublishOutcome c pv r) : SendParts c pv r.step := by
  have hentered : (c.publishEntered pv).timers = c.timers := by
    rw [publishEntered_eq]
    rfl
  have hsent : ∀ {cond : Prop} [Decidable cond] {pv' : PacketVariant pb} {release : Option Nat}
      {es : List (Event pb)}, es = (if cond then [.send pv' release] else []) →
      ∀ e ∈ es, e.isTimerOp = false := by
    intro cond _ pv' release es hes e he
    rw [hes] at he
    split at he
    · rw [List.mem_singleton.mp he]
      rfl
    · exact nomatch he
  -- whatever becomes of the PUBLISH, the timers are those of before
  cases h with
  | stopped henters hs =>
    obtain ⟨tas, m, hconn, -, -⟩ := hs.conn
    refine .silent ?_ fun e he => ?_
    · rw [hconn]
      rfl
    · rcases hs.events e he with ⟨ec, rfl⟩ | rfl | ⟨x, rfl⟩ <;> rfl
  | plain _ _ _ _ _ _ hconn hevents =>
    refine .silent ?_ (hsent hevents)
    rw [hconn]
    rfl
  | failed _ ec hc₁ hr =>
    rw [hr]
    refine failRelease_parts ?_ pv ec pv.packetId
    rw [hc₁]
    exact hentered
  | entered _ _ _ _ _ _ _ hconn hevents =>
    refine .silent ?_ (hsent hevents)
    rw [hconn]
    exact hentered

/-- A v3.1.1 CONNECT takes over its keep-alive. -/
theorem connecting_sendConnectV311 (p : V311.ConnectPacket) (c : Connection role pb) :
    Connecting c p.keepAlive (c.sendConnectV311 p) := by
  have hold : (c.initialized true).pingreqSendIntervalMs = c.pingreqSendIntervalMs := rfl
  unfold sendConnectV311
  dsimp only
  refine ⟨?_, ?_, ?_⟩
  · rw [hold]
    by_cases hk : p.keepAlive ≠ 0 ∧ c.pingreqSendIntervalMs = none
    · simp only [if_pos hk]
      split <;> rfl
    · simp only [if_neg hk]
      split <;> rfl
  · split <;> split <;> rfl
  · split <;> split <;> rfl

/-- A v5 CONNECT takes over its keep-alive. -/
theorem connecting_sendConnectV5 (p : V5.ConnectPacket) (c : Connection role pb) :
    Connecting c p.keepAlive (c.sendConnectV5 p) := by
  have hold : (c.initialized true).pingreqSendIntervalMs = c.pingreqSendIntervalMs := rfl
  unfold sendConnectV5
  dsimp only
  generalize hc₁ : (if p.cleanStart = true then _ else _ : Connection role pb) = c₁
  obtain ⟨_, _, _, _, heq⟩ := foldl_sendConnectProp p.props c₁
  rw [heq, ← hc₁]
  refine ⟨?_, ?_, ?_⟩
  · rw [hold]
    by_cases hk : p.keepAlive ≠ 0 ∧ c.pingreqSendIntervalMs = none
    · simp only [if_pos hk]
      split <;> rfl
    · simp only [if_neg hk]
      split <;> rfl
  · split <;> split <;> rfl
  · split <;> split <;> rfl

/-- A CONNECT that passes the checks goes out, and then the PINGREQ timer is set. -/
theorem send_connect {pv : PacketVariant pb} (htype : pv.type = .connect)
    (hpass : c.passesChecks pv) : ∃ c₁, Connecting c pv.view.keepAlive c₁ ∧
      c.send pv = (⟨c₁, [.send pv none]⟩ : Step role pb).andThen resetPingreqSend := by
  obtain ⟨hallowed, hsize⟩ := Bool.and_eq_true_iff.mp hpass
  rw [send_of_allowed hallowed hsize]
  cases pv with
  | v311Connect p => exact ⟨_, connecting_sendConnectV311 p c, rfl⟩
  | v5Connect p => exact ⟨_, connecting_sendConnectV5 p c, rfl⟩
  | _ => exact nomatch htype

/-- `process_send_packet` does this to the timers. -/
theorem processSendActual_parts (pv : PacketVariant pb) (c : Connection role pb) :
    SendParts c pv (c.processSendActual pv).step := by
  -- what ends the connection cancels all timers and sets none
  have hend : ∀ es : List (Event pb), (∀ e ∈ es, e.isTimerOp = false) →
      SendParts c pv ⟨({ c with status := .disconnected } : Connection role pb).cancelTimers.conn,
        ({ c with status := .disconnected } : Connection role pb).cancelTimers.events ++ es⟩ :=
    fun es hes => .cancelled ({ c with status := .disconnected } : Connection role pb) rfl rfl es hes rfl
  have hone : ∀ e ∈ [(.send pv none : Event pb)], e.isTimerOp = false := by
    intro e he
    rw [List.mem_singleton.mp he]
    rfl
  cases pv with
  | v311Connect p => exact .connect rfl _ (connecting_sendConnectV311 p c) rfl
  | v5Connect p => exact .connect rfl _ (connecting_sendConnectV5 p c) rfl
  | v311Publish p => exact (c.sendPublishV311_outcome p).parts
  | v5Publish p => exact (c.sendPublishV5_outcome p).parts
  | v311Connack p =>
    rw [processSendActual, sendConnackV311]
    split
    · exact .silent rfl hone
    · exact hend _ hone
  | v5Connack p =>
    rw [processSendActual, sendConnackV5]
    split
    · obtain ⟨tar, prm, mps, hprops⟩ := foldl_sendConnackProp p.props
        ({ c with status := .connected } : Connection role pb)
      refine .silent ?_ hone
      rw [hprops]
      rfl
    · exact hend _ hone
  | v311Pubrel p | v5Pubrel p =>
    apply SendParts.silent_send
    rw [sendPubrel_eq]
    rfl
  | v5Pubrec p =>
    apply SendParts.silent_send
    rw [sendPubrecV5]
    split <;> rfl
  | v311Pingreq p | v5Pingreq p =>
    rw [processSendActual, sendPingreq]
    split
    · exact .silent_send rfl
    · next ms _ => exact .pingreq ms rfl
  | v311Disconnect p | v5Disconnect p =>
    rw [processSendActual, sendDisconnect]
    dsimp only [Step.emit]
    rw [List.append_assoc]
    refine hend _ fun e he => ?_
    rcases List.mem_append.mp he with he | he <;>
    · rw [List.mem_singleton.mp he]
      rfl
  | _ =>
    apply SendParts.silent_send
    rfl

end Connection

/-! ### Receiving -/

/-- A call that neither sends a packet nor is about a timer. -/
def Event.isReport {pb : PacketIdBytes} : Event pb → Bool
  | .error _ | .close | .packetIdRelease _ | .receive _ | .outOfBounds => true
  | _ => false

namespace Connection

variable {role : Role} {pb : PacketIdBytes}

/-- What `recv` is made of while the connection goes on. -/
inductive Parts : Connection role pb → Step role pb → Prop where
  /-- the timers are left as they are -/
  | update {c c' : Connection role pb} (h : c'.timers = c.timers) : Parts c ⟨c', []⟩
  | report (c : Connection role pb) {e : Event pb} (h : e.isReport) : Parts c ⟨c, [e]⟩
  | answer (c : Connection role pb) {r : PacketVariant pb} (h : r.isAnswer)
      (hping : r.type ≠ .pingreq) (hdisconnect : r.type ≠ .disconnect) : Parts c (c.send r)
  | stored (c : Connection role pb) : Parts c c.sendStored
  | pingreqRecvOp (c : Connection role pb) : Parts c c.pingreqRecvOp
  | pingresp (c : Connection role pb) : Parts c
      ⟨{ c with pingrespRecvSet := false }, [.timerOp .cancel .pingrespRecv none]⟩
  | trans {c : Connection role pb} {s t : Step role pb} (h : Parts c s) (h' : Parts s.conn t) :
      Parts c ⟨t.conn, s.events ++ t.events⟩

/-- What `recv` does to the timers: it goes on, or it starts or ends a connection. -/
inductive RecvParts (c : Connection role pb) (s : Step role pb) : Prop where
  | parts (h : Parts c s)
  | connect (c₁ : Connection role pb) (pv : PacketVariant pb) (htype : pv.type = .connect)
      (hallowed : c.recvAllowed pv)
      (h : c₁.timers = { c.timers with
        pingreqRecvTimeoutMs :=
          if pv.view.keepAlive ≠ 0 then some (pv.view.keepAlive * 1000 * 3 / 2)
          else c.pingreqRecvTimeoutMs })
      (hs : s = c₁.receive pv)
  | connack (c₁ : Connection role pb) (p : V5.ConnackPacket) (h : c₁.timers = c.timers)
      (hs : s = (c₁.recvConnackV5 p).emit (.receive (.v5Connack p)))
  | disconnect (c₁ : Connection role pb) (reasonCode : UInt8) (h : c₁.timers = c.timers)
      (hs : s = c₁.disconnectV5 reasonCode)
  | cancelled (c₁ : Connection role pb) (es : List (Event pb)) (hes : ∀ e ∈ es, e.isReport)
      (h : c₁.timers = c.timers) (hs : s = ⟨c₁.cancelTimers.conn, c₁.cancelTimers.events ++ es⟩)
  | refused (c₁ : Connection role pb) (r : PacketVariant pb) (htype : r.type = .connack)
      (ec : ErrorCode) (h : c₁.timers = c.timers) (hs : s = (c₁.send r).emit (.error ec))

namespace Parts

variable {c c' : Connection role pb} {s : Step role pb}

/-- Nothing happens. -/
theorem nothing (c : Connection role pb) : Parts c ⟨c, []⟩ := .update rfl

/-- The state before may be changed, but not the timers. -/
theorem of_update (hs : Parts c' s) (h : c'.timers = c.timers) : Parts c s :=
  trans (update h) hs

/-- Two steps that are made of parts -/
theorem andThen {f : Connection role pb → Step role pb} (hs : Parts c s)
    (hf : Parts s.conn (f s.conn)) : Parts c (s.andThen f) := trans hs hf

/-- A report follows. -/
theorem emit {e : Event pb} (hs : Parts c s) (he : e.isReport) : Parts c (s.emit e) :=
  trans hs (report s.conn he)

/-- Giving an identifier back is a report. -/
theorem releaseId (c : Connection role pb) (packetId : Nat) : Parts c (c.releaseId packetId) :=
  of_update (report { c with pidMan := c.pidMan.releaseId packetId } rfl) rfl

/-- Handing a packet over -/
theorem receive (c : Connection role pb) (pv : PacketVariant pb) : Parts c (c.receive pv) :=
  (pingreqRecvOp c).emit rfl

/-- An automatic answer, if there is one -/
theorem respondIf (cond : Bool) {r : PacketVariant pb} (hr : r.isAnswer)
    (hping : r.type ≠ .pingreq) (hdisconnect : r.type ≠ .disconnect) (c : Connection role pb) :
    Parts c (c.respondIf cond r) := by
  unfold Connection.respondIf
  split
  · exact answer c hr hping hdisconnect
  · exact nothing c

/-- The response to a PUBLISH, if there is one -/
theorem answered (c : Connection role pb) : ∀ response : Option (PacketVariant pb),
    (∀ r ∈ response, r.isAnswer ∧ r.type ≠ .pingreq ∧ r.type ≠ .disconnect) →
      Parts c (match response with
        | none => (⟨c, []⟩ : Step role pb)
        | some r => c.send r)
  | none, _ => nothing c
  | some r, h => answer c (h r rfl).1 (h r rfl).2.1 (h r rfl).2.2

/-- Resuming or clearing the session -/
theorem resumeSession (sessionPresent : Bool) (c : Connection role pb) :
    Parts c (c.resumeSession sessionPresent) := by
  unfold Connection.resumeSession
  split
  · exact stored c
  · exact update rfl

/-- A v3.1.1 CONNACK -/
theorem recvConnackV311 (p : V311.ConnackPacket) (c : Connection role pb) :
    Parts c (c.recvConnackV311 p) := by
  unfold Connection.recvConnackV311
  split
  · exact of_update (resumeSession p.sessionPresent _) rfl
  · exact nothing c

/-- The response packets are answers, and neither PINGREQ nor DISCONNECT. -/
theorem pubrec (ver : ProtocolVersion) (packetId : Nat) (cond : Bool) (c : Connection role pb) :
    Parts c (c.respondIf cond (pubrecOf ver pb packetId)) := by
  refine respondIf cond (pubrecOf_isAnswer _ _) ?_ ?_ c <;>
  · rw [pubrecOf_type]
    exact nofun

/-- A PUBACK that is sent automatically -/
theorem puback (ver : ProtocolVersion) (packetId : Nat) (cond : Bool) (c : Connection role pb) :
    Parts c (c.respondIf cond (pubackOf ver pb packetId)) := by
  refine respondIf cond (pubackOf_isAnswer _ _) ?_ ?_ c <;>
  · rw [pubackOf_type]
    exact nofun

/-- A v3.1.1 PUBLISH -/
theorem recvPublishV311 (p : V311.PublishPacket pb) (c : Connection role pb) :
    Parts c (c.recvPublishV311 p) := by
  unfold Connection.recvPublishV311
  split
  · exact receive c _
  · exact andThen (puback _ _ _ c) (receive _ _)
  · dsimp only
    generalize hs : Step.andThen _ Connection.pingreqRecvOp = s
    have hsent : Parts c s := by
      rw [← hs]
      exact of_update (andThen (pubrec _ _ _ _) (pingreqRecvOp _)) rfl
    split
    · exact hsent
    · exact hsent.emit rfl
  · exact nothing c

/-- An acknowledgement that gives its packet identifier back. -/
theorem released (packetId : Nat) {f : Connection role pb → Connection role pb}
    (hf : ∀ c, (f c).timers = c.timers) (pv : PacketVariant pb) (c : Connection role pb) :
    Parts c ((c.releaseId packetId).andThen fun c => (f c).receive pv) :=
  (releaseId c packetId).andThen (of_update (receive _ pv) (hf _))

/-- The count of the PUBLISHes in flight is no timer. -/
theorem timers_decPublishSendCount (c : Connection role pb) :
    c.decPublishSendCount.timers = c.timers := by
  rw [decPublishSendCount_eq]
  rfl

/-- A PUBREL -/
theorem recvPubrel (ver : ProtocolVersion) (pv : PacketVariant pb) (c : Connection role pb) :
    Parts c (c.recvPubrel ver pv) := by
  refine andThen (of_update (respondIf _ (pubcompOf_isAnswer _ _) ?_ ?_ _) rfl) (receive _ pv) <;>
  · rw [pubcompOf_type]
    exact nofun

end Parts

namespace RecvParts

variable {c c' : Connection role pb} {s : Step role pb}

/-- The state before may be changed, but neither the timers nor the status. -/
theorem of_update (hs : RecvParts c' s) (h : c'.timers = c.timers)
    (hstatus : c'.status = c.status) : RecvParts c s := by
  cases hs with
  | parts hs => exact .parts (hs.of_update h)
  | connect c₁ pv htype hallowed h₁ hs =>
    have hallowed' : c.recvAllowed pv := by
      rw [← hallowed, recvAllowed, recvAllowed, hstatus]
    have htimeout : c'.pingreqRecvTimeoutMs = c.pingreqRecvTimeoutMs :=
      congrArg Timers.pingreqRecvTimeoutMs h
    refine .connect c₁ pv htype hallowed' ?_ hs
    rw [h₁, h, htimeout]
  | connack c₁ p h₁ hs => exact .connack c₁ p (h₁.trans h) hs
  | disconnect c₁ reasonCode h₁ hs => exact .disconnect c₁ reasonCode (h₁.trans h) hs
  | cancelled c₁ es hes h₁ hs => exact .cancelled c₁ es hes (h₁.trans h) hs
  | refused c₁ r htype ec h₁ hs => exact .refused c₁ r htype ec (h₁.trans h) hs

/-- The answer to a packet identifier of 0 -/
theorem invalidPacketId (ver : ProtocolVersion) (c : Connection role pb) :
    RecvParts c (c.invalidPacketId ver) := by
  unfold Connection.invalidPacketId
  split
  · exact .disconnect c _ rfl rfl
  · exact .parts ((Parts.report c (e := .close) rfl).emit rfl)

/-- A PUBACK, which may be a protocol error -/
theorem recvPuback (ver : ProtocolVersion) (pv : PacketVariant pb) (c : Connection role pb) :
    RecvParts c (c.recvPuback ver pv) := by
  unfold Connection.recvPuback
  dsimp only
  split
  · refine .parts (.of_update (.released pv.packetId (fun c => ?_) pv _) rfl)
    split
    · exact Parts.timers_decPublishSendCount c
    · rfl
  · exact invalidPacketId ver c

/-- A PUBCOMP, which may be a protocol error -/
theorem recvPubcomp (ver : ProtocolVersion) (pv : PacketVariant pb) (c : Connection role pb) :
    RecvParts c (c.recvPubcomp ver pv) := by
  unfold Connection.recvPubcomp
  dsimp only
  split
  · refine .parts (.of_update (.released pv.packetId (fun c => ?_) pv _) rfl)
    split
    · exact Parts.timers_decPublishSendCount _
    · rfl
  · exact invalidPacketId ver c

/-- A SUBACK, which may be a protocol error -/
theorem recvSuback (ver : ProtocolVersion) (pv : PacketVariant pb) (c : Connection role pb) :
    RecvParts c (c.recvSuback ver pv) := by
  unfold Connection.recvSuback
  split
  · exact .parts (.of_update (.released (f := id) pv.packetId (fun _ => rfl) pv _) rfl)
  · exact invalidPacketId ver c

/-- An UNSUBACK, which may be a protocol error -/
theorem recvUnsuback (ver : ProtocolVersion) (pv : PacketVariant pb) (c : Connection role pb) :
    RecvParts c (c.recvUnsuback ver pv) := by
  unfold Connection.recvUnsuback
  split
  · exact .parts (.of_update (.released (f := id) pv.packetId (fun _ => rfl) pv _) rfl)
  · exact invalidPacketId ver c

/-- A PUBREC, which may be a protocol error -/
theorem recvPubrec (ver : ProtocolVersion) (failed : Bool) (pv : PacketVariant pb)
    (c : Connection role pb) : RecvParts c (c.recvPubrec ver failed pv) := by
  unfold Connection.recvPubrec
  dsimp only
  split
  · refine .parts (.andThen ?_ (.receive _ pv))
    split
    · refine .of_update (.andThen (.releaseId _ _) (.update ?_)) rfl
      exact Parts.timers_decPublishSendCount _
    · refine .of_update (.respondIf _ (pubrelOf_isAnswer _ _) ?_ ?_ _) rfl <;>
      · rw [pubrelOf_type]
        exact nofun
  · exact invalidPacketId ver c

/-- The topic of a v5 PUBLISH, which may be an alias that is not known -/
theorem recvPublishTopicV5 (p : V5.PublishPacket pb) {response : Option (PacketVariant pb)}
    (hresponse : ∀ r ∈ response, r.isAnswer ∧ r.type ≠ .pingreq ∧ r.type ≠ .disconnect)
    (alreadyHandled : Bool) (c : Connection role pb) :
    RecvParts c (c.recvPublishTopicV5 p response alreadyHandled) := by
  unfold Connection.recvPublishTopicV5
  split
  · exact .disconnect c _ rfl rfl
  · next c' p' halias =>
    obtain ⟨⟨tar, rfl⟩, -⟩ := recvTopicAlias_eq halias
    dsimp only
    generalize hs : Step.andThen _ Connection.pingreqRecvOp = s
    have hsent : Parts c s := by
      rw [← hs]
      exact .of_update (.andThen (.answered _ _ hresponse) (.pingreqRecvOp _)) rfl
    split
    · exact .parts hsent
    · exact .parts (hsent.emit rfl)

/-- A v5 PUBLISH, which may exceed the Receive Maximum -/
theorem recvPublishV5 (p : V5.PublishPacket pb) (c : Connection role pb) :
    RecvParts c (c.recvPublishV5 p) := by
  have hpuback : (pubackOf .v5 pb p.packetId).type ≠ .pingreq ∧
      (pubackOf .v5 pb p.packetId).type ≠ .disconnect := by
    rw [pubackOf_type]
    exact ⟨nofun, nofun⟩
  have hpubrec : (pubrecOf .v5 pb p.packetId).type ≠ .pingreq ∧
      (pubrecOf .v5 pb p.packetId).type ≠ .disconnect := by
    rw [pubrecOf_type]
    exact ⟨nofun, nofun⟩
  unfold Connection.recvPublishV5
  -- QoS 1 and 2 are refused when too many are unanswered
  split
  · split
    · exact .disconnect c _ rfl rfl
    · refine of_update (recvPublishTopicV5 p ?_ _ _) rfl rfl
      exact forall_mem_response _ ⟨pubackOf_isAnswer _ _, hpuback⟩
  · split
    · exact .disconnect c _ rfl rfl
    · refine of_update (recvPublishTopicV5 p ?_ _ _) rfl rfl
      exact forall_mem_response _ ⟨pubrecOf_isAnswer _ _, hpubrec⟩
  · exact recvPublishTopicV5 p (fun _ hr => absurd hr (Option.not_mem_none _)) _ c

/-- A CONNECT brings a time for the PINGREQ timer, if its keep alive is not 0. -/
theorem timers_recvConnectV311 (p : V311.ConnectPacket) (c : Connection role pb) :
    (c.recvConnectV311 p).timers = { c.timers with
      pingreqRecvTimeoutMs :=
        if p.keepAlive ≠ 0 then some (p.keepAlive * 1000 * 3 / 2)
        else c.pingreqRecvTimeoutMs } := by
  simp only [Connection.recvConnectV311, recvKeepAlive_eq]
  split <;> rfl

/-- A v5 CONNECT sets the timeout for what the client sends. -/
theorem timers_recvConnectV5 (p : V5.ConnectPacket) (c : Connection role pb) :
    (c.recvConnectV5 p).timers = { c.timers with
      pingreqRecvTimeoutMs :=
        if p.keepAlive ≠ 0 then some (p.keepAlive * 1000 * 3 / 2)
        else c.pingreqRecvTimeoutMs } := by
  simp only [Connection.recvConnectV5, recvKeepAlive_eq]
  generalize hc₁ : (if p.cleanStart then _ else _ : Connection role pb) = c₁
  obtain ⟨_, _, _, heq, -⟩ := c₁.foldl_recvConnectProp p.props
  rw [heq, ← hc₁]
  split <;> rfl

/-- Every packet but CONNECT and CONNACK is made of the parts of `recv`. -/
theorem processRecvActual {pv : PacketVariant pb} {c : Connection role pb}
    (hallowed : c.recvAllowed pv) : RecvParts c (c.processRecvActual pv) := by
  -- the packets that may end the connection have parts of their own
  cases pv with
  | v311Connect p => exact .connect _ _ rfl hallowed (timers_recvConnectV311 p c) rfl
  | v5Connect p => exact .connect _ _ rfl hallowed (timers_recvConnectV5 p c) rfl
  | v311Connack p => exact .parts ((Parts.recvConnackV311 p c).emit rfl)
  | v5Connack p => exact .connack c p rfl rfl
  | v311Publish p => exact .parts (.recvPublishV311 p c)
  | v5Publish p => exact recvPublishV5 p c
  | v311Puback p | v5Puback p => exact recvPuback _ _ c
  | v311Pubrec p | v5Pubrec p => exact recvPubrec _ _ _ c
  | v311Pubrel p | v5Pubrel p => exact .parts (.recvPubrel _ _ c)
  | v311Pubcomp p | v5Pubcomp p => exact recvPubcomp _ _ c
  | v311Suback p | v5Suback p => exact recvSuback _ _ c
  | v311Unsuback p | v5Unsuback p => exact recvUnsuback _ _ c
  -- a PINGREQ is answered by a server
  | v311Pingreq p | v5Pingreq p =>
    refine .parts (.andThen (.respondIf _ ?_ ?_ ?_ c) (.receive _ _))
    · rfl
    · exact nofun
    · exact nofun
  | v311Pingresp p | v5Pingresp p => exact .parts (.emit (.pingresp c) rfl)
  -- a DISCONNECT cancels the timers
  | v311Disconnect p | v5Disconnect p =>
    refine .cancelled { c with status := .disconnected } [.receive _] ?_ rfl rfl
    intro e he
    rw [List.mem_singleton.mp he]
    rfl
  | v311Subscribe p | v5Subscribe p | v311Unsubscribe p | v5Unsubscribe p | v5Auth p =>
    exact .parts (.receive c _)

/-- A packet that cannot be read -/
theorem processRecvError (ec : ErrorCode) (c : Connection role pb) :
    RecvParts c (c.processRecvError ec) := by
  unfold Connection.processRecvError
  dsimp only
  split
  · refine .refused { c with status := .connecting } _ ?_ _ rfl rfl
    split <;> rfl
  · split
    · exact .disconnect c _ rfl rfl
    · exact .parts ((Parts.report c (e := .close) rfl).emit rfl)

/-- What is received, whether it is a packet or an error -/
theorem processRecvPacket (p : ErrorPacket) (c : Connection role pb) :
    RecvParts c (c.processRecvPacket p) := by
  -- a frame error closes, and a frame is decoded
  cases p with
  | ec ec =>
    refine .cancelled { c with status := .disconnected } [.close, .error ec] ?_ rfl ?_
    · intro e he
      rcases List.mem_cons.mp he with rfl | he
      · rfl
      · rw [List.mem_singleton.mp he]
        rfl
    · rw [Connection.processRecvPacket]
      exact congrArg _ (List.append_assoc _ _ _)
  | packet buf =>
    rw [Connection.processRecvPacket]
    split
    · exact .disconnect c _ rfl rfl
    · split
      · unfold processRecvDecoded
        split
        · next hallowed => exact processRecvActual hallowed
        · exact .parts (.report c rfl)
      · exact processRecvError _ c
      · exact .parts (.report c rfl)

end RecvParts

/-- `recv` goes on, or it starts or ends a connection. -/
theorem recv_parts (is : List UInt8) (c : Connection role pb) : RecvParts c (c.recv is).1 := by
  unfold recv
  rcases c.rpb.recv is with ⟨rpb, out, rest⟩
  cases out with
  | none => exact .parts (.update rfl)
  | some p => exact .of_update (.processRecvPacket p { c with rpb := rpb }) rfl rfl

/-- What `recv` is made of. -/
inductive Responds : Connection role pb → Step role pb → Prop where
  /-- the timers are left as they are -/
  | update {c c' : Connection role pb} (h : c'.isSet = c.isSet) : Responds c ⟨c', []⟩
  | report (c : Connection role pb) {e : Event pb} (h : e.isReport) : Responds c ⟨c, [e]⟩
  | answer (c : Connection role pb) {r : PacketVariant pb} (h : r.isAnswer ∨ r.type = .connack)
      (hping : r.type ≠ .pingreq) : Responds c (c.send r)
  | stored (c : Connection role pb) : Responds c c.sendStored
  | pingreqRecvOp (c : Connection role pb) : Responds c c.pingreqRecvOp
  | cancelTimers (c : Connection role pb) : Responds c c.cancelTimers
  | interval (c : Connection role pb) (duration : Nat) (h : canSendAsClient role) :
      Responds c (c.setPingreqSendInterval duration)
  | pingresp (c : Connection role pb) : Responds c
      ⟨{ c with pingrespRecvSet := false }, [.timerOp .cancel .pingrespRecv none]⟩
  | trans {c : Connection role pb} {s t : Step role pb} (h : Responds c s)
      (h' : Responds s.conn t) : Responds c ⟨t.conn, s.events ++ t.events⟩

namespace Responds

variable {c c' : Connection role pb} {s : Step role pb}

/-- The state before may be changed, but not what is set. -/
theorem of_update (hs : Responds c' s) (h : c'.isSet = c.isSet) : Responds c s :=
  trans (update h) hs

/-- The state before may be changed, but not the timers. -/
theorem of_timers (hs : Responds c' s) (h : c'.timers = c.timers) : Responds c s :=
  of_update hs (congrArg Timers.isSet h)

/-- Two steps that respond -/
theorem andThen {f : Connection role pb → Step role pb} (hs : Responds c s)
    (hf : Responds s.conn (f s.conn)) : Responds c (s.andThen f) := trans hs hf

/-- A report follows. -/
theorem emit {e : Event pb} (hs : Responds c s) (he : e.isReport) : Responds c (s.emit e) :=
  trans hs (report s.conn he)

/-- What is made of parts responds. -/
theorem of_parts (h : Parts c s) : Responds c s := by
  induction h with
  | update h => exact update (congrArg Timers.isSet h)
  | report c he => exact report c he
  | answer c hr hping _ => exact answer c (.inl hr) hping
  | stored c => exact stored c
  | pingreqRecvOp c => exact pingreqRecvOp c
  | pingresp c => exact pingresp c
  | trans _ _ ih ih' => exact trans ih ih'

/-- The properties of a CONNACK may set the timer for the PINGREQ. -/
theorem recvConnackProps (props : Properties) (c : Connection role pb) :
    Responds c (recvConnackProps props c) := by
  induction props generalizing c with
  | nil => exact update rfl
  | cons prop props ih =>
    refine andThen ?_ (ih _)
    unfold recvConnackProp
    split
    · obtain ⟨tas, heq, -⟩ := c.emplaceTopicAliasSend_eq prop.val
      rw [heq]
      exact update rfl
    · exact update rfl
    · exact update rfl
    · split
      · next hclient => exact interval c _ hclient
      · exact update rfl
    · exact update rfl

/-- A v5 CONNACK -/
theorem recvConnackV5 (p : V5.ConnackPacket) (c : Connection role pb) :
    Responds c (c.recvConnackV5 p) := by
  unfold Connection.recvConnackV5
  split
  · refine andThen (of_update (recvConnackProps p.props _) ?_) (of_parts (.resumeSession _ _))
    rfl
  · exact update rfl

/-- Reports after a step -/
theorem reports {es : List (Event pb)} (hs : Responds c s) (hes : ∀ e ∈ es, e.isReport) :
    Responds c ⟨s.conn, s.events ++ es⟩ := by
  induction es generalizing s with
  | nil =>
    rw [List.append_nil]
    exact hs
  | cons e es ih =>
    have h := ih (hs.emit (hes e List.mem_cons_self))
      fun e' he' => hes e' (List.mem_cons_of_mem e he')
    rw [Step.events_emit, List.append_assoc] at h
    exact h

/-- What is made of the parts of `recv` responds. -/
theorem of_recvParts (h : RecvParts c s) : Responds c s := by
  -- each part is one of the responses, whatever it tells the timers
  cases h with
  | parts h => exact of_parts h
  | connect c₁ pv _ _ h hs =>
    rw [hs]
    exact of_update (of_parts (.receive c₁ pv)) (congrArg Timers.isSet h)
  | connack c₁ p h hs =>
    rw [hs]
    exact of_timers ((recvConnackV5 p c₁).emit rfl) h
  | disconnect c₁ reasonCode h hs =>
    rw [hs]
    refine of_timers (.emit (answer c₁ (.inl rfl) ?_) rfl) h
    exact nofun
  | cancelled c₁ es hes h hs =>
    rw [hs]
    exact of_timers (reports (cancelTimers c₁) hes) h
  | refused c₁ r htype ec h hs =>
    rw [hs]
    refine of_timers ((answer c₁ (.inr htype) ?_).emit rfl) h
    rw [htype]
    exact nofun

end Responds

/-- `recv` is made of these parts. -/
theorem recv_responds (is : List UInt8) (c : Connection role pb) : Responds c (c.recv is).1 :=
  .of_recvParts (c.recv_parts is)

/-- What is given to the application was received, and allowed. -/
theorem received_of_receives {c : Connection role pb} {is : List UInt8} {pv : PacketVariant pb}
    (hpv : pv ∈ receives (c.recv is).1.events) (htype : pv.type ≠ .publish) :
    c.received is = some pv ∧ c.recvAllowed pv := by
  cases hreceived : c.received is with
  | none =>
    rw [receives_of_none hreceived] at hpv
    exact nomatch hpv
  | some pv₀ =>
    rcases receives_of_signals (signals_of_received hreceived) with
      hnone | ⟨hallowed, pv', hone, hwhich⟩
    · rw [hnone] at hpv
      exact nomatch hpv
    · rw [hone] at hpv
      obtain rfl := List.mem_singleton.mp hpv
      rcases hwhich with rfl | ⟨-, hpublish⟩
      · exact ⟨rfl, hallowed⟩
      · exact absurd hpublish htype

/-- A packet that is allowed is processed. -/
theorem recv_of_allowed {c : Connection role pb} {is : List UInt8} {pv : PacketVariant pb}
    (hreceived : c.received is = some pv) (hallowed : c.recvAllowed pv) :
    ∃ c₁ : Connection role pb, c₁ = { c with rpb := (c.rpb.recv is).1 } ∧
      (c.recv is).1 = c₁.processRecvActual pv := by
  refine ⟨_, rfl, ?_⟩
  rw [recv_of_received hreceived, processRecvDecoded]
  exact if_pos hallowed

/-! ### The other calls -/

/-- Giving a packet identifier back touches no timer. -/
theorem untimed_releasePacketId (packetId : Nat) (c : Connection role pb) :
    Untimed c (c.releasePacketId packetId) := by
  unfold releasePacketId
  split
  · refine ⟨rfl, fun e he => ?_⟩
    rw [List.mem_singleton.mp he]
    rfl
  · exact .nothing rfl

/-- Giving packet identifiers back touches no timer. -/
theorem untimed_releasePacketIds (ids : List Nat) (c : Connection role pb) :
    Untimed c (releasePacketIds ids c) := by
  induction ids generalizing c with
  | nil => exact .nothing rfl
  | cons packetId ids ih => exact .andThen (untimed_releasePacketId packetId c) (ih _)

/-- The identifiers of a set are given back and the set is cleared. -/
theorem untimed_released (ids : List Nat) {f : Connection role pb → Connection role pb}
    (hf : ∀ c, (f c).timers = c.timers) (c : Connection role pb) :
    Untimed c ((releasePacketIds ids c).andThen fun c => ⟨f c, []⟩) :=
  (untimed_releasePacketIds ids c).andThen (.nothing (hf _))

/-- `notify_closed` ends with `cancel_timers`, and has nothing to do with the timers before. -/
theorem notifyClosed_parts (c : Connection role pb) :
    ∃ s, Untimed c s ∧ c.notifyClosed = s.andThen cancelTimers := by
  unfold notifyClosed
  dsimp only
  refine ⟨_, ?_, rfl⟩
  generalize hs : Step.andThen (Step.andThen _ _) _ = s
  -- the identifiers are given back before the timers are cancelled
  have hacks : Untimed c s := by
    rw [← hs]
    refine .andThen (.of_update (untimed_released _ ?_ _) ?_) (untimed_released _ ?_ _)
    · exact fun _ => rfl
    · rfl
    · exact fun _ => rfl
  split
  · exact hacks
  · refine .andThen (.andThen (.andThen (.andThen hacks (.nothing ?_)) (untimed_released _ ?_ _))
      (untimed_released _ ?_ _)) (untimed_released _ ?_ _)
    · rfl
    · exact fun _ => rfl
    · exact fun _ => rfl
    · exact fun _ => rfl

/-- The flag of a timer is reset. -/
def unset (kind : TimerKind) (c : Connection role pb) : Connection role pb :=
  match kind with
  | .pingreqSend => { c with pingreqSendSet := false }
  | .pingreqRecv => { c with pingreqRecvSet := false }
  | .pingrespRecv => { c with pingrespRecvSet := false }

/-- `notify_timer_fired` resets the flag, and then closes the connection or sends a PINGREQ or a
    DISCONNECT, or does nothing. -/
theorem notifyTimerFired_parts (kind : TimerKind) (c : Connection role pb) :
    (∃ es : List (Event pb), (es = [] ∨ es = [.close]) ∧
      c.notifyTimerFired kind = ⟨c.unset kind, es⟩) ∨
    ∃ pv : PacketVariant pb, (pv.type = .pingreq ∨ pv.type = .disconnect) ∧
      c.notifyTimerFired kind = (c.unset kind).send pv := by
  -- the two timers that wait for the peer end the connection alike
  have hfired : ∀ c : Connection role pb,
      (∃ es : List (Event pb), (es = [] ∨ es = [.close]) ∧ c.recvTimerFired = ⟨c, es⟩) ∨
      ∃ pv : PacketVariant pb, (pv.type = .pingreq ∨ pv.type = .disconnect) ∧
        c.recvTimerFired = c.send pv := by
    intro c
    unfold recvTimerFired
    split
    · exact .inl ⟨_, .inr rfl, rfl⟩
    · split
      · exact .inr ⟨_, .inr rfl, rfl⟩
      · exact .inl ⟨_, .inl rfl, rfl⟩
    · exact .inl ⟨_, .inl rfl, rfl⟩
  -- the timer for the PINGREQ sends one in each version
  cases kind with
  | pingreqSend =>
    unfold notifyTimerFired
    dsimp only
    split
    · split
      · exact .inr ⟨_, .inl rfl, rfl⟩
      · exact .inl ⟨_, .inl rfl, rfl⟩
    · split
      · exact .inr ⟨_, .inl rfl, rfl⟩
      · exact .inl ⟨_, .inl rfl, rfl⟩
    · exact .inl ⟨_, .inl rfl, rfl⟩
  | pingreqRecv => exact hfired _
  | pingrespRecv => exact hfired _

end Connection

end AsyncMqtt
