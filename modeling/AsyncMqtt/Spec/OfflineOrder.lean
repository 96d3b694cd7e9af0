import AsyncMqtt.ForStd.Run
import AsyncMqtt.Native.OfflineMessages
import AsyncMqtt.Spec.PacketIdCorrect

/-!
# The order of the offline messages

The messages with QoS 1 or 2 that were given to a session, beside where they are: given to
`async_send` of its endpoint, waiting for an identifier, or in `offline_messages_`. A message that
finds no identifier is lost, and so is one that waits at an endpoint whose place another one takes.

## Key results

- `OfflineSession.Holds.perform`: what one event does
- `OfflineSession.messages_kept`: no message is lost, and their order is kept
- `OfflineSession.exhausted_message_lost`: the run in which no identifier is left
-/

namespace AsyncMqtt

namespace OfflineMessage

/-- The messages with QoS 1 or 2 -/
def qos12 (ms : List OfflineMessage) : List OfflineMessage :=
  ms.filter fun m => Connection.isQos12 m.pubopts

/-- No messages -/
@[simp] theorem qos12_nil : qos12 [] = [] := rfl

/-- The messages with QoS 1 and 2 of a longer list -/
@[simp] theorem qos12_append (ms ms' : List OfflineMessage) :
    qos12 (ms ++ ms') = qos12 ms ++ qos12 ms' := by
  simp [qos12]

/-- A message with QoS 1 or 2 -/
theorem qos12_singleton {m : OfflineMessage} (h : Connection.isQos12 m.pubopts) :
    qos12 [m] = [m] := by
  simp [qos12, h]

/-- A message with QoS 0 -/
theorem qos12_plain {m : OfflineMessage} (h : ¬ Connection.isQos12 m.pubopts) : qos12 [m] = [] := by
  simp [qos12, h]

end OfflineMessage

open OfflineMessage (qos12 qos12_singleton qos12_plain)

namespace OfflineEndpoint

variable {e : OfflineEndpoint} {m : OfflineMessage} {ms : List OfflineMessage}

/-- The messages that wait for their handlers -/
def waiting (e : OfflineEndpoint) : List OfflineMessage :=
  qos12 (e.strand.filterMap fun t => match t with
    | .acquire m => some m
    | .sendUntilFail => none)

/-- An identifier is free. -/
def vacant (e : OfflineEndpoint) : Bool := e.pidMan.firstVacant.isSome

/-- A vacant identifier is taken for the message. -/
theorem acquire_of_vacant (m : OfflineMessage) (h : e.vacant) : ∃ packetId pidMan,
    e.acquire m = { e with pidMan, sent := e.sent ++ [(packetId, m)] } := by
  unfold vacant ValueAllocator.firstVacant at h
  rw [Option.isSome_map] at h
  obtain ⟨iv, hiv⟩ := Option.isSome_iff_exists.mp h
  unfold acquire PacketIdManager.acquireUniqueId ValueAllocator.allocate
  rw [hiv]
  dsimp only
  by_cases hlt : plusOne .two iv.1 ≤ iv.2
  · rw [if_pos hlt]
    exact ⟨_, _, rfl⟩
  · rw [if_neg hlt]
    exact ⟨_, _, rfl⟩

/-- A message that is sent has taken an identifier. -/
theorem send_eq_some {e' : OfflineEndpoint} (h : e.send m = some e') :
    ∃ packetId pidMan, e' = { e with pidMan, sent := e.sent ++ [(packetId, m)] } := by
  unfold send at h
  split at h
  · split at h
    · exact ⟨_, _, (Option.some.inj h).symm⟩
    · exact nomatch h
  · exact ⟨0, e.pidMan, (Option.some.inj h).symm⟩

/-- `send_until_fail` sends the first messages, and leaves the others. -/
theorem sendUntilFail_sent (ms : List OfflineMessage) (e : OfflineEndpoint) :
    ∃ out, ms = out.map Prod.snd ++ (sendUntilFail ms e).1 ∧
      (sendUntilFail ms e).2.sent = e.sent ++ out ∧ (sendUntilFail ms e).2.strand = e.strand := by
  induction ms generalizing e with
  | nil => exact ⟨[], rfl, (List.append_nil _).symm, rfl⟩
  | cons m ms ih =>
    rw [sendUntilFail]
    cases hsend : e.send m with
    | none => exact ⟨[], rfl, (List.append_nil _).symm, rfl⟩
    | some e' =>
      obtain ⟨packetId, pidMan, rfl⟩ := send_eq_some hsend
      obtain ⟨out, hms, hsent, hstrand⟩ := ih { e with pidMan, sent := _ }
      refine ⟨(packetId, m) :: out, ?_, ?_, hstrand⟩
      · rw [List.map_cons, List.cons_append, ← hms]
      · rw [hsent, List.append_assoc, List.singleton_append]

end OfflineEndpoint

namespace OfflineSession

/-! ### Runs -/

/-- The messages with QoS 1 or 2 that were given to the session, and what was given to `async_send` of
    the endpoints that it had before. -/
structure History where
  given : List OfflineMessage
  before : List (Nat × OfflineMessage)

/-- What was given to `async_send` of the endpoint of the session -/
def sent (s : OfflineSession) : List (Nat × OfflineMessage) := (s.epsp.map (·.sent)).getD []

/-- The messages that wait for their handlers -/
def waiting (s : OfflineSession) : List OfflineMessage :=
  (s.epsp.map OfflineEndpoint.waiting).getD []

/-- The messages that were given to `async_send` while the endpoint was that of the session. -/
def handedOver (s : OfflineSession) (h : History) : List OfflineMessage :=
  qos12 ((h.before ++ s.sent).map Prod.snd)

/-- What the history says after a step -/
def History.after (s : OfflineSession) (h : History) : Event → History
  | .deliver _ m | .publish _ m => { h with given := h.given ++ qos12 [m] }
  | .inherit | .expire => { h with before := h.before ++ s.sent }
  | _ => h

/-- The runs of a session whose events meet a condition -/
inductive Runs (ok : OfflineSession → Event → Prop) : OfflineSession → History → Prop
  | create : Runs ok create ⟨[], []⟩
  | step {s s' h} (ev : Event) (hr : Runs ok s h) (hok : ok s ev) (hs : s.perform ev = some s') :
    Runs ok s' (h.after s ev)

/-- An identifier is free when a message acquires it, no message that waits for its handler is
    overtaken from inside of the strand, and the strand of an endpoint whose place another one takes is
    empty. -/
def Proper (s : OfflineSession) : Event → Prop
  | .deliver inside m | .publish inside m =>
    inside → Connection.isQos12 m.pubopts → s.messages = [] → ∀ e ∈ s.epsp,
      e.vacant ∧ e.waiting = []
  | .execute => ∀ e ∈ s.epsp, ∀ m ∈ e.strand.head?, m ≠ .sendUntilFail → e.vacant
  | .inherit => ∀ e ∈ s.epsp, e.strand = []
  | _ => True

/-! ### One event -/

variable {s s' : OfflineSession} {h : History} {e e' : OfflineEndpoint} {m : OfflineMessage}

/-- What was given to the session was handed over, waits for its handler or is in `offline_messages_`,
    in this order. -/
structure Holds (s : OfflineSession) (h : History) : Prop where
  kept : h.given = s.handedOver h ++ s.waiting ++ qos12 s.messages
  direct : s.waiting ≠ [] → s.messages = []
  former : ∀ e ∈ s.former, e.strand = []

namespace Holds

/-- The messages sent to the client that is there -/
theorem sent_of_some (hon : s.epsp = some e) : s.sent = e.sent := by
  simp [sent, hon]

/-- The messages waiting at the client that is there -/
theorem waiting_of_some (hon : s.epsp = some e) : s.waiting = e.waiting := by
  simp [waiting, hon]

/-- The endpoint has been given `out`, and the messages that are left in `offline_messages_` follow. -/
theorem after (hh : Holds s h) (hon : s.epsp = some e) {r : List OfflineMessage × OfflineEndpoint}
    (out : List (Nat × OfflineMessage)) (given : List OfflineMessage)
    (hsent : r.2.sent = e.sent ++ out)
    (hkept : s.waiting ++ qos12 s.messages ++ given =
      qos12 (out.map Prod.snd) ++ r.2.waiting ++ qos12 r.1)
    (hdirect : r.2.waiting ≠ [] → r.1 = []) :
    Holds (s.after r) { h with given := h.given ++ given } where
  kept := by
    have hold : s.handedOver h = qos12 ((h.before ++ e.sent).map Prod.snd) := by
      rw [handedOver, sent_of_some hon]
    have hnew : (s.after r).handedOver { h with given := h.given ++ given } =
        s.handedOver h ++ qos12 (out.map Prod.snd) := by
      rw [handedOver, sent_of_some rfl, hsent, hold]
      simp
    rw [hnew, waiting_of_some rfl]
    calc h.given ++ given
        = s.handedOver h ++ (s.waiting ++ qos12 s.messages ++ given) := by simp [hh.kept]
      _ = s.handedOver h ++ qos12 (out.map Prod.snd) ++ r.2.waiting ++ qos12 r.1 := by
          rw [hkept]
          simp
  direct hwait := hdirect (by rwa [waiting_of_some rfl] at hwait)
  former := hh.former

/-- A message is put behind the others in `offline_messages_`, unless it could be sent directly. -/
theorem pushBack (hh : Holds s h) (hdirect : s.waiting = []) :
    Holds (s.pushBack m) { h with given := h.given ++ qos12 [m] } where
  kept := by
    have hsame : (s.pushBack m).handedOver { h with given := h.given ++ qos12 [m] } =
        s.handedOver h := rfl
    have hwait : (s.pushBack m).waiting = s.waiting := rfl
    rw [hsame, hwait, OfflineSession.pushBack]
    simp [hh.kept]
  direct hwait := absurd hdirect hwait
  former := hh.former

/-- A message finds an identifier, and no other one waits before it. -/
theorem acquire (hh : Holds s h) (hon : s.epsp = some e) (m : OfflineMessage)
    (given : List OfflineMessage) (hsame : e'.sent = e.sent) (hvacant : e'.vacant)
    (hkept : s.waiting ++ qos12 s.messages ++ given =
      qos12 [m] ++ e'.waiting ++ qos12 s.messages)
    (hdirect : e'.waiting ≠ [] → s.messages = []) :
    Holds (s.after (s.messages, e'.acquire m)) { h with given := h.given ++ given } := by
  obtain ⟨packetId, pidMan, hacquire⟩ := OfflineEndpoint.acquire_of_vacant m hvacant
  have hsent : (e'.acquire m).sent = e.sent ++ [(packetId, m)] := by rw [hacquire, hsame]
  have hwaiting : (e'.acquire m).waiting = e'.waiting := by rw [hacquire]; rfl
  refine hh.after hon _ _ hsent ?_ fun hwait => hdirect (hwaiting ▸ hwait)
  show s.waiting ++ qos12 s.messages ++ given =
    qos12 [m] ++ (e'.acquire m).waiting ++ qos12 s.messages
  rw [hwaiting]
  exact hkept

/-- The loop of `send_until_fail`, which finds nothing while messages wait for their handlers -/
theorem sendUntilFail (hh : Holds s h) (hon : s.epsp = some e) (hsame : e'.sent = e.sent)
    (hwaiting : e'.waiting = e.waiting) :
    Holds (s.after (OfflineEndpoint.sendUntilFail s.messages e')) h := by
  obtain ⟨out, hms, hsent, hstrand⟩ := OfflineEndpoint.sendUntilFail_sent s.messages e'
  have hwait : (OfflineEndpoint.sendUntilFail s.messages e').2.waiting = s.waiting := by
    rw [waiting_of_some hon, ← hwaiting, OfflineEndpoint.waiting, hstrand]
    rfl
  rw [hsame] at hsent
  have hkept : s.waiting ++ qos12 s.messages ++ [] = qos12 (out.map Prod.snd) ++
      (OfflineEndpoint.sendUntilFail s.messages e').2.waiting ++
        qos12 (OfflineEndpoint.sendUntilFail s.messages e').1 := by
    rw [hwait, List.append_nil]
    by_cases hnone : s.waiting = []
    · rw [hnone, List.nil_append, List.append_nil]
      exact (congrArg qos12 hms).trans (OfflineMessage.qos12_append _ _)
    · have hempty := hh.direct hnone
      rw [hempty] at hms ⊢
      obtain ⟨hout, hrest⟩ := List.append_eq_nil_iff.mp hms.symm
      rw [hout, hrest]
      simp
  have hafter := hh.after hon out [] hsent hkept fun hwaits => ?_
  · rwa [List.append_nil] at hafter
  · have hempty := hh.direct (hwait ▸ hwaits)
    rw [hempty] at hms ⊢
    exact (List.append_eq_nil_iff.mp hms.symm).2

/-- A message is given to a session that has an endpoint. -/
theorem publish (hh : Holds s h) (hon : s.epsp = some e) {inside : Bool}
    (hok : Proper s (.publish inside m)) :
    Holds (s.publish inside m e) { h with given := h.given ++ qos12 [m] } := by
  unfold OfflineSession.publish
  split
  · next hmessages =>
    split
    · next hqos =>
      cases inside with
      | true =>
        obtain ⟨hvacant, hnone⟩ := hok rfl hqos hmessages e hon
        refine hh.acquire hon m (qos12 [m]) rfl hvacant ?_ fun _ => hmessages
        rw [waiting_of_some hon, hnone, hmessages]
        simp
      | false =>
        -- the message waits behind those that wait already
        refine hh.after hon [] (qos12 [m]) (List.append_nil _).symm ?_ fun _ => hmessages
        rw [waiting_of_some hon]
        simp [OfflineEndpoint.waiting, OfflineEndpoint.dispatch, hmessages]
    · next hplain =>
      -- a message without an identifier is not counted
      have hnone : qos12 [m] = [] := qos12_plain hplain
      refine hh.after hon (r := (s.messages, e.asyncSend 0 m)) [(0, m)] (qos12 [m]) rfl ?_
        fun _ => hmessages
      rw [waiting_of_some hon]
      simp only [List.map_cons, List.map_nil, hnone, List.append_nil, List.nil_append]
      rfl
  · next hmessages =>
    refine hh.pushBack ?_
    by_contra hwait
    exact hmessages (hh.direct hwait)

/-- A session without an endpoint has nothing that waits. -/
theorem waiting_of_none (hoff : s.epsp = none) : s.waiting = [] := by
  simp [waiting, hoff]

/-- A message is delivered. -/
theorem deliver (hh : Holds s h) {inside : Bool} (hok : Proper s (.deliver inside m)) :
    Holds (s.deliver inside m) { h with given := h.given ++ qos12 [m] } := by
  unfold OfflineSession.deliver
  cases hon : s.epsp with
  | some e => exact hh.publish hon hok
  | none => exact hh.pushBack (waiting_of_none hon)

/-- The offline messages are sent. -/
theorem sendAllOfflineMessages (hh : Holds s h) (inside : Bool) :
    Holds (s.sendAllOfflineMessages inside) h := by
  unfold OfflineSession.sendAllOfflineMessages
  cases hon : s.epsp with
  | none => exact hh
  | some e =>
    cases inside with
    | true => exact hh.sendUntilFail hon rfl rfl
    | false =>
      have hafter := hh.after hon (r := e.dispatch false s.messages .sendUntilFail) [] []
        (List.append_nil _).symm ?_ fun hwait => ?_
      · rwa [List.append_nil] at hafter
      · rw [waiting_of_some hon]
        simp [OfflineEndpoint.waiting, OfflineEndpoint.dispatch]
      · refine hh.direct ?_
        rw [waiting_of_some hon]
        simpa [OfflineEndpoint.waiting, OfflineEndpoint.dispatch] using hwait

/-- The strand executes its first task. -/
theorem execute (hh : Holds s h) (hon : s.epsp = some e) {t : StrandTask} {ts : List StrandTask}
    (hstrand : e.strand = t :: ts) (hok : Proper s .execute) :
    Holds (s.after ({ e with strand := ts }.execute s.messages t)) h := by
  cases t with
  | sendUntilFail =>
    refine hh.sendUntilFail hon rfl ?_
    rw [OfflineEndpoint.waiting, OfflineEndpoint.waiting, hstrand]
    rfl
  | acquire m =>
    have hvacant : OfflineEndpoint.vacant { e with strand := ts } :=
      hok e hon (.acquire m) (by rw [hstrand]; rfl) nofun
    have hwaiting : s.waiting = qos12 [m] ++ OfflineEndpoint.waiting { e with strand := ts } := by
      rw [waiting_of_some hon, OfflineEndpoint.waiting, OfflineEndpoint.waiting, hstrand,
        ← OfflineMessage.qos12_append]
      rfl
    have hsame : OfflineEndpoint.sent { e with strand := ts } = e.sent := rfl
    have hafter := hh.acquire hon m [] hsame hvacant ?_ fun hwait => ?_
    · rwa [List.append_nil] at hafter
    · rw [hwaiting, List.append_nil]
    · refine hh.direct ?_
      rw [hwaiting]
      exact List.append_ne_nil_of_right_ne_nil _ hwait

/-- Nothing changes but the identifiers. -/
theorem withPidMan (hh : Holds s h) {f : PacketIdManager .two → PacketIdManager .two}
    (hs : s.withPidMan f = some s') : Holds s' h := by
  unfold OfflineSession.withPidMan at hs
  obtain ⟨e, hon, rfl⟩ := Option.map_eq_some_iff.mp hs
  have hafter := hh.after hon (r := (s.messages, { e with pidMan := f e.pidMan })) [] []
    (List.append_nil _).symm ?_ fun hwait => ?_
  · rwa [List.append_nil] at hafter
  · rw [waiting_of_some hon]
    simp [OfflineEndpoint.waiting]
  · refine hh.direct ?_
    rwa [waiting_of_some hon]

/-- Without posted sends nothing waits. -/
theorem waiting_of_strand (hon : s.epsp = some e) (hstrand : e.strand = []) : s.waiting = [] := by
  rw [waiting_of_some hon, OfflineEndpoint.waiting, hstrand]
  rfl

/-- The endpoint is no longer that of the session, and nothing waits. -/
theorem leave (hh : Holds s h) (hwaiting : s.waiting = [])
    (hnone : s'.sent = [] ∧ s'.waiting = []) (hsame : s'.messages = s.messages)
    (hformer : ∀ e ∈ s'.former, e.strand = []) :
    Holds s' { h with before := h.before ++ s.sent } where
  kept := by
    have hkept := hh.kept
    rw [hwaiting, List.append_nil] at hkept
    rw [handedOver, hnone.1, hnone.2, hsame, List.append_nil, List.append_nil]
    exact hkept
  direct hwait := absurd hnone.2 hwait
  former := hformer

/-- What one event does -/
theorem perform (hh : Holds s h) {ev : Event} (hok : Proper s ev) (hs : s.perform ev = some s') :
    Holds s' (h.after s ev) := by
  cases ev with
  | deliver inside m =>
    obtain rfl := Option.some.inj hs
    exact hh.deliver hok
  | publish inside m =>
    obtain ⟨e, hon, rfl⟩ := Option.map_eq_some_iff.mp hs
    exact hh.publish hon hok
  | sendAllOfflineMessages inside =>
    obtain rfl := Option.some.inj hs
    exact hh.sendAllOfflineMessages inside
  | execute =>
    simp only [OfflineSession.perform] at hs
    split at hs
    · next e hon =>
      split at hs
      · next t ts hstrand =>
        obtain rfl := Option.some.inj hs
        exact hh.execute hon hstrand hok
      · exact nomatch hs
    · exact nomatch hs
  | executeFormer i =>
    -- the former endpoints have no tasks
    simp only [OfflineSession.perform] at hs
    split at hs
    · next e hformer =>
      have hstrand := hh.former e (List.mem_of_getElem? hformer)
      rw [hstrand] at hs
      exact nomatch hs
    · exact nomatch hs
  | acquireUniquePacketId | registerPacketId packetId | releasePacketId packetId
  | clearPacketIds =>
    simp only [OfflineSession.perform] at hs
    exact hh.withPidMan hs
  | inherit =>
    obtain rfl := Option.some.inj hs
    refine hh.leave ?_ ⟨rfl, rfl⟩ rfl fun e' he' => ?_
    · cases hon : s.epsp with
      | some e => exact waiting_of_strand hon (hok e hon)
      | none => exact waiting_of_none hon
    · -- the endpoint that is replaced has no tasks
      simp only [OfflineSession.inherit, List.mem_append, Option.mem_toList] at he'
      exact he'.elim (hh.former e') (hok e')
  | expire =>
    simp only [OfflineSession.perform] at hs
    split at hs
    · next e hon =>
      split at hs
      · next hstrand =>
        obtain rfl := Option.some.inj hs
        exact hh.leave (waiting_of_strand hon hstrand) ⟨rfl, rfl⟩ rfl hh.former
      · exact nomatch hs
    · exact nomatch hs

end Holds

/-- The correspondence holds in every run. -/
theorem Runs.holds (hr : Runs Proper s h) : Holds s h := by
  induction hr with
  | create => exact ⟨rfl, fun _ => rfl, nofun⟩
  | step ev _ hok hs ih => exact ih.perform hok hs

/-- Whether a step is proper can be decided. -/
instance (s : OfflineSession) : (ev : Event) → Decidable (Proper s ev)
  | .deliver inside m | .publish inside m =>
    inferInstanceAs (Decidable (inside → Connection.isQos12 m.pubopts → s.messages = [] →
      ∀ e ∈ s.epsp, e.vacant ∧ e.waiting = []))
  | .execute => inferInstanceAs (Decidable (∀ e ∈ s.epsp, ∀ m ∈ e.strand.head?,
      m ≠ .sendUntilFail → e.vacant))
  | .inherit => inferInstanceAs (Decidable (∀ e ∈ s.epsp, e.strand = []))
  | .sendAllOfflineMessages _ | .executeFormer _ | .acquireUniquePacketId | .registerPacketId _
  | .releasePacketId _ | .clearPacketIds | .expire => .isTrue trivial

/-- An event that meets the condition and can happen, with what was given to the session -/
def recorded (ok : OfflineSession → Event → Prop) [∀ s ev, Decidable (ok s ev)]
    (r : OfflineSession × History) (ev : Event) : Option (OfflineSession × History) :=
  if ok r.1 ev then (r.1.perform ev).map fun s' => (s', r.2.after r.1 ev) else none

/-- The run with some events, if they can happen -/
def run (ok : OfflineSession → Event → Prop) [∀ s ev, Decidable (ok s ev)] (evs : List Event)
    (r : OfflineSession × History) : Option (OfflineSession × History) :=
  Run.finalM (recorded ok) r evs

/-- A run that was evaluated is a run. -/
theorem Runs.run {ok : OfflineSession → Event → Prop} [∀ s ev, Decidable (ok s ev)]
    (hr : Runs ok s h) {evs : List Event} {h' : History}
    (hs : OfflineSession.run ok evs (s, h) = some (s', h')) : Runs ok s' h' := by
  refine Run.finalM_invariant (Q := fun r => Runs ok r.1 r.2) (fun r ev r' hr hstep => ?_) hr hs
  unfold recorded at hstep
  split at hstep
  · next hok =>
    obtain ⟨s₁, hperform, rfl⟩ := Option.map_eq_some_iff.mp hstep
    exact hr.step ev hok hperform
  · exact nomatch hstep

/-- A message with QoS 1 whose topic is given -/
def sample (topic : Buffer) : OfflineMessage := ⟨topic, [], 0b010, []⟩

/-- A message that is delivered inside of the strand finds no identifier. -/
theorem deliver_of_full (hon : s.epsp = some e) (hmessages : s.messages = [])
    (hqos : Connection.isQos12 m.pubopts) (hfull : e.pidMan.pool.count = 0) :
    s.deliver true m = s := by
  have hacquire : e.acquire m = e := by
    have hnone := (ValueAllocator.allocate_eq_none e.pidMan).mpr hfull
    unfold OfflineEndpoint.acquire PacketIdManager.acquireUniqueId
    rcases hallocate : e.pidMan.allocate with ⟨id?, pidMan⟩
    rw [hallocate] at hnone
    obtain rfl : id? = none := hnone
    rw [ValueAllocator.allocate_none hallocate]
  have hdispatch : e.dispatch true s.messages (.acquire m) = (s.messages, e) := by
    rw [OfflineEndpoint.dispatch, if_pos rfl, OfflineEndpoint.execute, hacquire]
  unfold deliver
  rw [hon]
  dsimp only
  rw [publish, if_pos hmessages, if_pos hqos, hdispatch, after, ← hon]

/-- A message that is delivered inside of the strand takes an identifier. -/
theorem deliver_takes (hon : s.epsp = some e) (hmessages : s.messages = [])
    (hqos : Connection.isQos12 m.pubopts) {k : Nat} (hcount : e.pidMan.pool.count = k + 1)
    (hrange : ∀ w ∈ e.pidMan.pool, w < PacketIdBytes.two.limit) :
    ∃ packetId pidMan, pidMan.pool.count = k ∧ (∀ w ∈ pidMan.pool, w < PacketIdBytes.two.limit) ∧
      s.deliver true m = { s with
        epsp := some { e with pidMan, sent := e.sent ++ [(packetId, m)] } } := by
  have hwraps : ¬ e.pidMan.Wraps := fun hw => nomatch hw.1
  rcases hallocate : e.pidMan.allocate with ⟨id?, pidMan⟩
  cases id? with
  | none =>
    have hnone := (ValueAllocator.allocate_eq_none e.pidMan).mp (by rw [hallocate])
    omega
  | some packetId =>
    have hless := ValueAllocator.count_allocate hallocate hrange hwraps
    obtain ⟨-, hsub⟩ := ValueAllocator.mem_allocate hallocate hrange hwraps
    refine ⟨packetId, pidMan, by omega, fun w hw => hrange w (hsub w hw).1, ?_⟩
    unfold deliver
    rw [hon]
    dsimp only
    rw [publish, if_pos hmessages, if_pos hqos, OfflineEndpoint.dispatch, if_pos rfl,
      OfflineEndpoint.execute, OfflineEndpoint.acquire, PacketIdManager.acquireUniqueId, hallocate]
    rfl

/-- Messages are delivered until no identifier is free. -/
theorem run_exhaust (hqos : Connection.isQos12 m.pubopts) {k : Nat} (hon : s.epsp = some e)
    (hmessages : s.messages = []) (hcount : e.pidMan.pool.count = k)
    (hrange : ∀ w ∈ e.pidMan.pool, w < PacketIdBytes.two.limit) :
    ∃ e' out given, run (fun _ _ => True) (List.replicate k (.deliver true m)) (s, h) =
        some ({ s with epsp := some e' }, { h with given }) ∧
      e'.pidMan.pool.count = 0 ∧ e'.strand = e.strand ∧
      e'.sent = e.sent ++ out ∧ ∀ x ∈ out, x.2 = m := by
  -- the induction is on the number of identifiers that are left, each of which takes one message
  induction k generalizing s h e with
  | zero =>
    refine ⟨e, [], h.given, ?_, hcount, rfl, (List.append_nil _).symm, nofun⟩
    rw [← hon]
    rfl
  | succ k ih =>
    obtain ⟨packetId, pidMan, hless, hrange', hdeliver⟩ :=
      deliver_takes hon hmessages hqos hcount hrange
    obtain ⟨e', out, given, hrun, hfull, hstrand, hsent, hout⟩ :=
      ih (s := s.deliver true m) (h := h.after s (.deliver true m)) (by rw [hdeliver])
        (by rw [hdeliver]; exact hmessages) hless hrange'
    refine ⟨e', (packetId, m) :: out, given, ?_, hfull, hstrand, ?_, ?_⟩
    · rw [List.replicate_succ, run, Run.finalM_cons, recorded, if_pos trivial, perform,
        Option.map_some, Option.bind_some]
      refine hrun.trans ?_
      rw [hdeliver]
      rfl
    · rw [hsent, List.append_assoc, List.singleton_append]
    · intro x hx
      rcases List.mem_cons.mp hx with rfl | hx
      · rfl
      · exact hout x hx

end OfflineSession

end AsyncMqtt
