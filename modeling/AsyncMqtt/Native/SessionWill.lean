import AsyncMqtt.Native.RetainedMessages

/-!
# The will of a session

The members of `session_state` that hold the will, and the functions that touch them: `update_will`,
`clear_will`, `send_will`, `send_will_impl`, `renew`, `inherit`, `clean` and the destructor, with
`close_proc` and `disconnect_handler` of the broker that call them.

Time is what the `steady_clock` shows, and a parameter of the functions that read it. A wait that is
cancelled does nothing. One that has expired stands in the queue of the executor until its handler
runs, and is not cancelled any more.
-/

namespace AsyncMqtt

/-- `std::chrono::seconds` as a duration of the clock, whose tick is a nanosecond -/
def seconds (n : Nat) : Nat := n * 1000000000

/-- `duration_cast<seconds>` -/
def durationCast (ticks : Nat) : Nat := ticks / 1000000000

/-- Where the object is: in `sessions_`, extracted from there until the connection is closed, or
    destroyed. -/
inductive SessionPlace where
  | inSessions
  | extracted
  | destroyed
  deriving DecidableEq

/-- The members of `session_state` that hold the will. The will is kept with the number of the CONNECT
    that gave it. Of a timer there is the time of its expiry, for the will delay while a wait is on,
    with the number of its waits that have expired and whose handlers have not run. `sent` is what
    `will_sender_` was called with. -/
structure SessionWill where
  version : ProtocolVersion
  timWillExpiry : Option Nat
  willValue : Option (Nat × Will)
  sessionExpiryInterval : Option Nat
  timWillDelay : Option Nat
  queuedDelays : Nat
  remainAfterClose : Bool
  place : SessionPlace
  sent : List (Nat × PublishParams)

namespace SessionWill

/-- `session_expiry_interval_ && *session_expiry_interval_ != duration::zero()` -/
def hasSessionExpiry (sessionExpiryInterval : Option Nat) : Bool :=
  sessionExpiryInterval.any (· ≠ 0)

/-- `will_expiry_interval` of `connect_handler`, which is read for version 5 only -/
def willExpiryInterval (version : ProtocolVersion) (will : Option Will) : Option Nat :=
  match version, will with
  | .v5, some w =>
    (w.props.filter fun p => p.id = .messageExpiryInterval).getLast?.map Property.val
  | _, _ => none

/-- `wd_sec` of `send_will` -/
def willDelay (w : Will) : Nat :=
  ((Properties.find .willDelayInterval w.props).map Property.val).getD 0

/-- `session_state::update_will` -/
def updateWill (now : Nat) (will : Option (Nat × Will)) (willExpiryInterval : Option Nat)
    (s : SessionWill) : SessionWill :=
  { s with
    willValue := will
    timWillExpiry :=
      if will.isSome then willExpiryInterval.map fun v => now + seconds v else none }

/-- `session_state::clear_will` -/
def clearWill (s : SessionWill) : SessionWill :=
  { s with timWillExpiry := none, willValue := none }

/-- `session_state::send_will_impl` -/
def sendWillImpl (now : Nat) (s : SessionWill) : SessionWill :=
  match s.willValue with
  | none => s
  | some (n, w) =>
    -- what is left of the Message Expiry Interval, and 0 when it has elapsed
    let d := s.timWillExpiry.map fun expiry => durationCast (expiry - now) % 2 ^ 32
    { s with willValue := none, sent := s.sent ++ [(n, willParams s.version w d)] }

/-- `session_state::send_will`. `expires_after` cancels a wait that is on. -/
def sendWill (now : Nat) (s : SessionWill) : SessionWill :=
  match s.willValue with
  | none => s
  | some (_, w) =>
    if s.remainAfterClose ∧ willDelay w ≠ 0 then
      { s with timWillDelay := some (now + seconds (willDelay w)) }
    else s.sendWillImpl now

/-- `session_state::clean`. The timer of the Message Expiry Interval is cancelled and stays in its
    place, so that its handler would find no will. -/
def clean (s : SessionWill) : SessionWill :=
  { s with willValue := none, timWillDelay := none, sessionExpiryInterval := none }

/-- What a CONNECT gives to the session, with its number -/
structure Connect where
  nr : Nat
  version : ProtocolVersion
  will : Option Will
  sessionExpiryInterval : Option Nat

/-- The will with the number of its CONNECT -/
def Connect.willValue (c : Connect) : Option (Nat × Will) := c.will.map fun w => (c.nr, w)

/-- `session_state::create` -/
def create (now : Nat) (c : Connect) (cleanStart : Bool) : SessionWill :=
  let s : SessionWill :=
    { version := c.version
      timWillExpiry := none
      willValue := none
      sessionExpiryInterval := c.sessionExpiryInterval
      timWillDelay := none
      queuedDelays := 0
      remainAfterClose := match c.version with
        | .v311 => !cleanStart
        | _ => hasSessionExpiry c.sessionExpiryInterval
      place := .inSessions
      sent := [] }
  s.updateWill now c.willValue (willExpiryInterval c.version c.will)

/-- `session_state::renew`, which is called with clean start only. The session expiry interval that is
    looked at is the one that `clean` has reset. -/
def renew (now : Nat) (c : Connect) (s : SessionWill) : SessionWill :=
  let s := s.clean
  let s := { s with
    remainAfterClose := match c.version with
      | .v311 => false
      | _ => hasSessionExpiry s.sessionExpiryInterval }
  let s := s.updateWill now c.willValue (willExpiryInterval c.version c.will)
  { s with sessionExpiryInterval := c.sessionExpiryInterval }

/-- `session_state::inherit`. The session expiry interval that is looked at is the old one. -/
def inherit (now : Nat) (c : Connect) (s : SessionWill) : SessionWill :=
  let s := { s with
    remainAfterClose := match c.version with
      | .v311 => true
      | _ => hasSessionExpiry s.sessionExpiryInterval
    timWillDelay := none }
  let s := s.clearWill.updateWill now c.willValue (willExpiryInterval c.version c.will)
  { s with sessionExpiryInterval := c.sessionExpiryInterval }

/-- `~session_state` -/
def destroy (now : Nat) (s : SessionWill) : SessionWill :=
  { (s.sendWillImpl now).clean with place := .destroyed }

/-- `close_proc` of the broker for the connection of the session. A session that does not remain is
    extracted from `sessions_`, and destroyed after the connection has been closed. -/
def closeProc (now : Nat) (sendWill : Bool) (s : SessionWill) : SessionWill :=
  let place := if s.remainAfterClose then .inSessions else .extracted
  { (if sendWill then s.sendWill now else s.clearWill) with place }

/-- `disconnect_handler` of the broker -/
def disconnectHandler (now : Nat) (rc : UInt8) (s : SessionWill) : SessionWill :=
  s.closeProc now (rc = DisconnectReasonCode.disconnectWithWillMessage)

/-- The wait for the will delay expires. -/
def delayExpires (s : SessionWill) : SessionWill :=
  { s with timWillDelay := none, queuedDelays := s.queuedDelays + 1 }

/-- The handler of `send_will` runs. -/
def delayHandler (now : Nat) (s : SessionWill) : SessionWill :=
  { s with queuedDelays := s.queuedDelays - 1 }.sendWillImpl now

/-- What happens to a session -/
inductive Event where
  /-- An error of the connection, or another connection takes the session over. -/
  | lost
  /-- The client sends a DISCONNECT. -/
  | disconnect (rc : UInt8)
  /-- The CONNACK of a resumed session cannot be sent. The broker drops the connection then and does
      not call `close_proc`. -/
  | left
  | renew (c : Connect)
  | inherit (c : Connect)
  | delayExpires
  | delayHandler
  /-- The handler of `update_will` runs. -/
  | willExpires
  /-- The session expires, its connection is closed when it does not remain, or the broker ends. -/
  | destroy

/-- The event happens, if it can. The broker finds a session only in `sessions_`. -/
def perform (now : Nat) (s : SessionWill) : Event → Option SessionWill
  | .lost => if s.place = .inSessions then some (s.closeProc now true) else none
  | .disconnect rc => if s.place = .inSessions then some (s.disconnectHandler now rc) else none
  | .left => if s.place = .inSessions then some s else none
  | .renew c => if s.place = .inSessions then some (s.renew now c) else none
  | .inherit c => if s.place = .inSessions then some (s.inherit now c) else none
  | .delayExpires =>
    if s.place ≠ .destroyed ∧ s.timWillDelay.any (· ≤ now) then some s.delayExpires else none
  | .delayHandler =>
    if s.place ≠ .destroyed ∧ s.queuedDelays ≠ 0 then some (s.delayHandler now) else none
  | .willExpires =>
    if s.place ≠ .destroyed ∧ s.timWillExpiry.any (· ≤ now) then some s.clearWill else none
  | .destroy => if s.place ≠ .destroyed then some (s.destroy now) else none

end SessionWill

end AsyncMqtt
