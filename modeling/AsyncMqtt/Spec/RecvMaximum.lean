import AsyncMqtt.Spec.RecvSignals

/-!
# The receive maximum for receiving

A v5.0 connection announces how many QoS 1 and 2 PUBLISH packets it takes without having
answered them, a client in its CONNECT and a server in its CONNACK. `publish_recv_` should
hold the identifiers of these packets. `Window` says which these are by what goes over the
line: a packet enters when `recv` takes it without an error, and leaves when a PUBACK, a
PUBCOMP or a PUBREC with an error is sent.

`recv` records a PUBLISH before it looks at its topic alias, so that a packet with a topic
alias that is not valid is recorded though it is an error.

## Key results

- `Connection.next_window`: what one call does to the window
- `Connection.receive_maximum_kept`: in a run in which no recorded PUBLISH is rejected for
  its topic alias, `publish_recv_` is the window and stays within the maximum
- `Connection.rejected_recorded`: a run in which one is
-/

namespace AsyncMqtt

/-- What the connection has announced on this network connection, and the PUBLISH packets
    that it has taken and not answered. -/
structure Window where
  announced : Option Nat
  unanswered : OrdSet Nat

namespace Window

variable {pb : PacketIdBytes}

/-- The window after a packet was sent. -/
def say (w : Window) (pv : PacketVariant pb) : Window :=
  match pv.type with
  | .connect => ⟨pv.receiveMaximum none, ∅⟩
  | .connack =>
    if pv.acceptsConnection then { w with announced := pv.receiveMaximum w.announced } else w
  | .puback | .pubcomp =>
    if pv.version = .v5 then { w with unanswered := w.unanswered.erase pv.packetId } else w
  | .pubrec =>
    if pv.version = .v5 ∧ reasonCodeFailed pv.view.code then
      { w with unanswered := w.unanswered.erase pv.packetId }
    else w
  | _ => w

/-- The window after a packet was given to the application. -/
def hear (w : Window) (pv : PacketVariant pb) : Window :=
  if pv.type = .connect then ⟨none, ∅⟩ else w

/-- The window after a PUBLISH was taken. -/
def take (w : Window) (packetId : Nat) : Window :=
  { w with unanswered := w.unanswered.insert packetId }

/-- What was announced is kept. -/
def Within (w : Window) : Prop := ∀ m, w.announced = some m → w.unanswered.size ≤ m

end Window

/-- The owner is told that something is wrong with the stream. -/
def reportsError {pb : PacketIdBytes} (es : List (Event pb)) : Bool :=
  es.any fun e =>
    match e with
    | .error ec => ec.category ≠ .mqttError
    | _ => false

/-- Whether an error is reported can be told from the signals. -/
theorem reportsError_signals {pb : PacketIdBytes} (es : List (Event pb)) :
    reportsError (signals es) = reportsError es := by
  unfold reportsError signals
  rw [List.any_filter]
  congr 1
  funext e
  cases e with
  | error ec => simp [Event.isSignal]
  | _ => simp

namespace Connection

variable {role : Role} {pb : PacketIdBytes}

/-- The identifier of the QoS 1 or 2 PUBLISH of v5.0 that a call takes without an error. -/
def taken (c : Connection role pb) : Op pb → Option Nat
  | .recv is =>
    match c.received is with
    | some (.v5Publish p) =>
      if isQos12 p.opts && ! reportsError (c.recv is).1.events then some p.packetId else none
    | _ => none
  | _ => none

/-- The window after a call: it receives, and then sends. -/
def windowAfter (w : Window) (c : Connection role pb) (op : Op pb) : Window :=
  let w := (receives (c.call op).events).foldl Window.hear w
  let w := match c.taken op with
    | some packetId => w.take packetId
    | none => w
  (sends (c.call op).events).foldl Window.say w

/-- A call that keeps the window: a PUBLISH that is recorded has a valid topic alias. A
    CONNACK has the at least five bytes that each of its constructors gives it. -/
def KeepsWindow (c : Connection role pb) : Op pb → Prop
  | .recv is => ∀ p, c.received is = some (.v5Publish p) → isQos12 p.opts →
      c.status = .connected → ¬ c.recvMaximumReached → c.recvTopicAlias p ≠ none
  | .send pv => pv.type = .connack → pv.version = .v5 → 5 ≤ pv.size
  | _ => True

end Connection

namespace Line

/-- The window that the connection has recorded. -/
def window (l : Line) : Window := ⟨l.publishRecvMax, l.publishRecv⟩

/-- A v5.0 CONNACK can be sent when it is expected. -/
def canConnack (role : Role) (l : Line) : Bool :=
  Connection.canSendAsServer role && l.protocolVersion = .v5 && decide (5 ≤ l.maximumPacketSizeSend)

/-- What was announced is kept, and nothing is recorded when the next maximum is announced. -/
structure Kept (role : Role) (l : Line) : Prop where
  within : l.window.Within
  unrecorded : l.status = .connecting → l.canConnack role → l.publishRecv = ∅

end Line

namespace Connection

variable {role : Role} {pb : PacketIdBytes} {c : Connection role pb}

/-! ### Sending -/

/-- The window after a packet was sent -/
theorem afterSend_window (l : Line) (pv : PacketVariant pb) :
    (l.afterSend pv).window = l.window.say pv := by
  unfold Line.afterSend Window.say
  cases pv.type with
  | connack | puback | pubrec | pubcomp =>
    dsimp only
    split <;> rfl
  | _ => rfl

/-- A PUBLISH or PUBREL leaves the window. -/
theorem say_of_publish {pv : PacketVariant pb} (h : pv.type = .publish ∨ pv.type = .pubrel)
    (w : Window) : w.say pv = w := by
  unfold Window.say
  rcases h with h | h <;> rw [h]

/-- Stored packets do not change the window. -/
theorem say_storedFit (limit : Nat) (c : Connection role pb) (w : Window) :
    (c.storedFit limit).foldl Window.say w = w := by
  have hpvs : ∀ pvs : List (PacketVariant pb),
      (∀ pv ∈ pvs, pv.type = .publish ∨ pv.type = .pubrel) → pvs.foldl Window.say w = w := by
    intro pvs
    induction pvs with
    | nil => exact fun _ => rfl
    | cons pv pvs ih =>
      intro h
      rw [List.foldl_cons, say_of_publish (h pv List.mem_cons_self)]
      exact ih fun pv' hpv' => h pv' (List.mem_cons_of_mem _ hpv')
  apply hpvs
  intro pv hpv
  obtain ⟨e, -, -, rfl⟩ := mem_storedFit.mp hpv
  cases e.packet <;> simp [StorePacket.toPacketVariant, PacketVariant.type]

/-- A call of `send` keeps the window. -/
theorem send_window (pv : PacketVariant pb) (c : Connection role pb) :
    (sends (c.send pv).events).foldl Window.say c.line.window = (c.send pv).conn.line.window := by
  by_cases htype : pv.type = .publish
  · obtain ⟨hline, hsends | ⟨-, -, hsends⟩⟩ := send_line_publish htype (c := c)
    · rw [hsends, hline]
      rfl
    · have haliased : (c.aliased pv).type = .publish := by
        cases pv with
        | v311Publish p | v5Publish p => rfl
        | _ => exact nomatch htype
      rw [hsends, hline]
      exact say_of_publish (.inl haliased) _
  · by_cases hpass : c.passesChecks pv = true
    · obtain ⟨hline, hsends⟩ := send_line htype hpass
      rw [hsends, hline, List.foldl_cons, afterSend_window]
      split
      · exact say_storedFit _ c _
      · rfl
    · obtain ⟨hline, hsends⟩ := send_line_refused hpass
      rw [hsends, hline]
      rfl

/-- What is sent keeps the window, unless a CONNACK announces less than there is. -/
theorem say_within {w : Window} (h : w.Within) {pv : PacketVariant pb}
    (hok : pv.acceptsConnection → ∀ m, pv.receiveMaximum w.announced = some m →
      w.unanswered.size ≤ m) : (w.say pv).Within := by
  have herase : Window.Within { w with unanswered := w.unanswered.erase pv.packetId } :=
    fun m hm => Nat.le_trans (w.unanswered.size_erase_le pv.packetId) (h m hm)
  unfold Window.say
  split
  · exact fun m _ => Nat.zero_le m
  · split
    · next haccepts => exact hok haccepts
    · exact h
  · split
    · exact herase
    · exact h
  · split
    · exact herase
    · exact h
  · split
    · exact herase
    · exact h
  · exact h

/-- When a CONNACK can be sent -/
theorem canConnack_line : c.line.canConnack role ↔
    canSendAsServer role ∧ c.protocolVersion = .v5 ∧ 5 ≤ c.maximumPacketSizeSend := by
  rw [Line.canConnack, Bool.and_eq_true, Bool.and_eq_true, decide_eq_true_eq, decide_eq_true_eq,
    and_assoc]
  rfl

/-- When a CONNACK passes the checks -/
theorem passesChecks_connack {pv : PacketVariant pb} (htype : pv.type = .connack)
    (hversion : pv.version = .v5) :
    c.passesChecks pv =
      (canSendAsServer role && decide (c.status = .connecting) &&
        decide (c.protocolVersion = .v5) && decide (pv.size ≤ c.maximumPacketSizeSend)) := by
  have hclient : pv.isClientSendable = false := by
    rw [PacketVariant.isClientSendable, htype]
  have hserver : pv.isServerSendable = true := by
    rw [PacketVariant.isServerSendable, htype]
  simp [passesChecks, sendAllowed, versionCheck, validateMaximumPacketSize, htype, hversion,
    hclient, hserver]

/-- While connecting nothing has been received. -/
theorem afterSend_unrecorded {l : Line} (h : l.Kept role) (pv : PacketVariant pb) :
    (l.afterSend pv).status = .connecting → (l.afterSend pv).canConnack role →
      (l.afterSend pv).publishRecv = ∅ := by
  have herase : l.status = .connecting → l.canConnack role →
      l.publishRecv.erase pv.packetId = ∅ := by
    intro hstatus hcan
    rw [h.unrecorded hstatus hcan]
    rfl
  unfold Line.afterSend
  cases pv.type with
  | connect => exact fun _ _ => rfl
  | connack =>
    dsimp only
    split <;> exact fun hstatus => nomatch hstatus
  | disconnect => exact fun hstatus => nomatch hstatus
  | puback | pubrec | pubcomp =>
    dsimp only
    split
    · exact herase
    · exact h.unrecorded
  | _ => exact h.unrecorded

/-- Sending keeps the window. -/
theorem send_kept {pv : PacketVariant pb} (h : c.line.Kept role)
    (hok : pv.type = .connack → pv.version = .v5 → 5 ≤ pv.size) :
    (c.send pv).conn.line.Kept role := by
  -- a PUBLISH leaves the line
  by_cases htype : pv.type = .publish
  · rw [(send_line_publish htype).1]
    exact h
  · by_cases hpass : c.passesChecks pv = true
    · rw [(send_line htype hpass).1]
      refine ⟨?_, afterSend_unrecorded h pv⟩
      rw [afterSend_window]
      refine say_within h.within fun haccepts m hm => ?_
      rw [PacketVariant.acceptsConnection, Bool.and_eq_true, decide_eq_true_eq] at haccepts
      -- a v5 CONNACK announces the maximum when nothing is unanswered
      by_cases hversion : pv.version = .v5
      · have hsize := hok haccepts.1 hversion
        rw [passesChecks_connack haccepts.1 hversion] at hpass
        simp only [Bool.and_eq_true, decide_eq_true_eq] at hpass
        obtain ⟨⟨⟨hrole, hstatus⟩, hver⟩, hfits⟩ := hpass
        have hcan : c.line.canConnack role :=
          canConnack_line.mpr ⟨hrole, hver, Nat.le_trans hsize hfits⟩
        have hempty : c.line.window.unanswered = ∅ := h.unrecorded hstatus hcan
        rw [hempty]
        exact Nat.zero_le m
      · have hversion : pv.version = .v311 := by
          cases pv <;> first | rfl | exact absurd rfl hversion
        rw [receiveMaximum_of_v311 hversion] at hm
        exact h.within m hm
    · rw [(send_line_refused hpass).1]
      exact h

/-- A step with at most one answer keeps the window. -/
theorem Answer.window {l : Line} {stored : List (PacketVariant pb)} {s : Step role pb}
    (h : Answer l stored s) (hstored : ∀ w : Window, stored.foldl Window.say w = w)
    (hkept : l.Kept role) :
    (sends s.events).foldl Window.say l.window = s.conn.line.window ∧ s.conn.line.Kept role := by
  cases h with
  | silent hline hsends =>
    rw [hsends, hline]
    exact ⟨hstored _, hkept⟩
  | sent c₁ r hc₁ hr hline hsends =>
    rw [hsends, hline, ← hc₁]
    refine ⟨send_window r c₁, send_kept (hc₁ ▸ hkept) fun htype => ?_⟩
    rw [PacketVariant.isAnswer, htype] at hr
    exact nomatch hr

/-! ### Receiving -/

/-- A PUBLISH above the maximum is answered with `receive_maximum_exceeded`. -/
theorem recvPublishV5_exceeded {p : V5.PublishPacket pb} (hqos : isQos12 p.opts)
    (hmax : c.recvMaximumReached) :
    .error (.disconnect DisconnectReasonCode.receiveMaximumExceeded) ∈
      (c.recvPublishV5 p).events := by
  have hexceeded : c.recvPublishV5 p =
      c.disconnectV5 DisconnectReasonCode.receiveMaximumExceeded := by
    unfold recvPublishV5
    rcases isQos12_iff_toNat.mp hqos with hqos | hqos <;>
      simp only [hqos, hmax, if_true]
  rw [hexceeded, disconnectV5, Step.events_emit]
  exact List.mem_append_right _ (List.mem_singleton_self _)

/-- A PUBLISH whose topic is known is taken without an error. -/
theorem recvPublishTopicV5_taken {p : V5.PublishPacket pb} (halias : c.recvTopicAlias p ≠ none)
    {response : Option (PacketVariant pb)}
    (hresponse : ∀ pv ∈ response, pv.isAnswer ∧ pv.type ≠ .disconnect) (alreadyHandled : Bool) :
    reportsError (c.recvPublishTopicV5 p response alreadyHandled).events = false := by
  unfold recvPublishTopicV5
  split
  · next hnone => exact absurd hnone halias
  · next c' p' hsome =>
    have hsent := @signals_response role pb c' response hresponse
    dsimp only
    generalize Step.andThen _ pingreqRecvOp = s at hsent ⊢
    rw [← reportsError_signals]
    split
    · rw [hsent]
      rfl
    · rw [Step.events_emit, signals_append, hsent]
      rfl

/-- A PUBLISH below the maximum with a valid topic alias is no error. -/
theorem recvPublishV5_taken {p : V5.PublishPacket pb} (hqos : isQos12 p.opts)
    (hmax : ¬ c.recvMaximumReached) (halias : c.recvTopicAlias p ≠ none) :
    reportsError (c.recvPublishV5 p).events = false := by
  have hmax : c.recvMaximumReached = false := by simpa using hmax
  have hpuback : (pubackOf .v5 pb p.packetId).type ≠ .disconnect := by
    rw [pubackOf_type]
    exact nofun
  have hpubrec : (pubrecOf .v5 pb p.packetId).type ≠ .disconnect := by
    rw [pubrecOf_type]
    exact nofun
  unfold recvPublishV5
  rcases isQos12_iff_toNat.mp hqos with hqos | hqos
  · simp only [hqos, hmax, Bool.false_eq_true, if_false]
    apply recvPublishTopicV5_taken
    · rw [ne_eq, recvTopicAlias_eq_none (c := c) (by rfl)]
      exact halias
    · exact forall_mem_response _ ⟨pubackOf_isAnswer _ _, hpuback⟩
  · simp only [hqos, hmax, Bool.false_eq_true, if_false]
    apply recvPublishTopicV5_taken
    · rw [ne_eq, recvTopicAlias_eq_none (c := c) (by rfl)]
      exact halias
    · exact forall_mem_response _ ⟨pubrecOf_isAnswer _ _, hpubrec⟩

/-- A PUBLISH with a topic alias that is not valid is answered with `topic_alias_invalid`. -/
theorem recvPublishV5_invalid {p : V5.PublishPacket pb} (hqos : isQos12 p.opts)
    (hmax : ¬ c.recvMaximumReached) (halias : c.recvTopicAlias p = none) :
    ∃ c' : Connection role pb,
      c.recvPublishV5 p = c'.disconnectV5 DisconnectReasonCode.topicAliasInvalid := by
  have hmax : c.recvMaximumReached = false := by simpa using hmax
  have hinvalid : ∀ {c' : Connection role pb}, c'.topicAliasRecv = c.topicAliasRecv →
      ∀ response alreadyHandled, c'.recvPublishTopicV5 p response alreadyHandled =
        c'.disconnectV5 DisconnectReasonCode.topicAliasInvalid := by
    intro c' hc' response alreadyHandled
    unfold recvPublishTopicV5
    rw [(recvTopicAlias_eq_none hc').mpr halias]
  unfold recvPublishV5
  rcases isQos12_iff_toNat.mp hqos with hqos | hqos
  · simp only [hqos, hmax, Bool.false_eq_true, if_false]
    exact ⟨_, hinvalid (by rfl) _ _⟩
  · simp only [hqos, hmax, Bool.false_eq_true, if_false]
    exact ⟨_, hinvalid (by rfl) _ _⟩

/-- A PUBLISH is answered with `receive_maximum_exceeded` exactly when the maximum is
    reached. -/
theorem recvPublishV5_exceeded_iff {p : V5.PublishPacket pb} (hqos : isQos12 p.opts) :
    .error (.disconnect DisconnectReasonCode.receiveMaximumExceeded) ∈
      (c.recvPublishV5 p).events ↔ c.recvMaximumReached := by
  constructor
  · intro hmem
    by_contra hmax
    by_cases halias : c.recvTopicAlias p = none
    · obtain ⟨c', heq⟩ := recvPublishV5_invalid hqos hmax halias
      have hsignal := mem_signals.mpr ⟨heq ▸ hmem, rfl⟩
      have hne : ErrorCode.disconnect DisconnectReasonCode.receiveMaximumExceeded ≠
          .disconnect DisconnectReasonCode.topicAliasInvalid := by decide
      rw [signals_disconnectV5] at hsignal
      split at hsignal <;> simp [hne] at hsignal
    · have hreports := recvPublishV5_taken hqos hmax halias
      have hany : reportsError (c.recvPublishV5 p).events = true :=
        List.any_eq_true.mpr ⟨_, hmem, rfl⟩
      exact nomatch hreports.symm.trans hany
  · exact recvPublishV5_exceeded hqos

/-- The events of a PUBLISH that is received while the connection is there. -/
theorem recv_publishV5 {is : List UInt8} {p : V5.PublishPacket pb}
    (hpv : c.received is = some (.v5Publish p)) (hstatus : c.status = .connected) :
    (c.recv is).1 = recvPublishV5 p { c with rpb := (c.rpb.recv is).1 } := by
  rw [recv_of_received hpv, processRecvDecoded, if_pos (by exact decide_eq_true hstatus)]
  rfl

/-- The window before a call of `recv` sends anything. -/
def heardWindow (w : Window) (c : Connection role pb) (is : List UInt8) : Window :=
  let w := (receives (c.recv is).1.events).foldl Window.hear w
  match c.taken (.recv is) with
  | some packetId => w.take packetId
  | none => w

/-- The window after a packet was received -/
theorem lineAfterRecv_window (c : Connection role pb) (pv : PacketVariant pb) :
    (c.lineAfterRecv pv).window =
      if pv.type = .connect ∧ c.status = .disconnected then ⟨none, ∅⟩
      else if c.acceptsPublish pv then c.line.window.take pv.packetId
      else c.line.window := by
  have hnot : pv.type ≠ .publish → c.acceptsPublish pv = false := by
    intro htype
    cases pv with
    | v5Publish p => exact absurd rfl htype
    | _ => rfl
  unfold lineAfterRecv
  -- CONNECT opens the window anew, and a PUBLISH is taken into it
  cases htype : pv.type with
  | connect =>
    rw [hnot (by rw [htype]; rintro ⟨⟩)]
    dsimp only
    split
    · next hstatus => simp [hstatus, Line.window]
    · next hstatus => simp [hstatus]
  | publish =>
    dsimp only
    split
    · simp [Line.window, Window.take, line]
    · simp
  | connack | disconnect =>
    rw [hnot (by rw [htype]; rintro ⟨⟩)]
    dsimp only
    split <;> simp [Line.window]
  | _ =>
    rw [hnot (by rw [htype]; rintro ⟨⟩)]
    simp

/-- The window after a packet that is allowed and is not taken. -/
theorem heardWindow_of_untaken {is : List UInt8} {pv : PacketVariant pb}
    (hpv : c.received is = some pv) (hallowed : c.recvAllowed pv)
    (htaken : c.taken (.recv is) = none) (haccepts : c.acceptsPublish pv = false) :
    heardWindow c.line.window c is = (c.lineAfterRecv pv).window := by
  have hconnect : c.status = .connected → pv.type ≠ .connect := by
    intro hstatus htype
    simp [recvAllowed, htype, hstatus] at hallowed
  have hnone : ∀ fs : List (Event pb), signals (c.recv is).1.events = fs → receives fs = [] →
      pv.type ≠ .connect → heardWindow c.line.window c is = (c.lineAfterRecv pv).window := by
    intro fs hfs hnil htype
    rw [heardWindow, htaken, ← receives_signals, hfs, hnil, lineAfterRecv_window, haccepts]
    simp [htype]
  -- the PUBLISH is not taken, so that the window hears another packet
  cases signals_of_received hpv with
  | nothing htype h => exact hnone _ h rfl (by rw [htype]; rintro ⟨⟩)
  | notAllowed hnot h => exact absurd hallowed hnot
  | disconnect _ hs _ _ _ h =>
    apply hnone _ h _ (hconnect hs)
    split <;> rfl
  | closed _ hs _ _ h => exact hnone _ h rfl (hconnect hs)
  | delivered _ pv' hpv' h =>
    have hreceives : receives (c.recv is).1.events = [pv'] := by
      rw [← receives_signals, h]
      rfl
    rw [heardWindow, htaken, hreceives, lineAfterRecv_window, haccepts]
    rcases hpv' with rfl | ⟨htype, htype'⟩
    · by_cases htype : pv'.type = .connect
      · have hstatus : c.status = .disconnected := by
          simpa [recvAllowed, htype] using hallowed
        simp [Window.hear, htype, hstatus]
      · simp [Window.hear, htype]
    · simp [Window.hear, htype, htype']

/-- Before it answers, `recv` has brought the line to the window. -/
theorem recvLine_window {is : List UInt8} (hok : c.KeepsWindow (.recv is)) :
    heardWindow c.line.window c is = (c.recvLine is).window := by
  unfold recvLine
  -- the cases are those of `recvLine`: no packet, one that is not allowed, and the others
  cases hpv : c.received is with
  | none =>
    have htaken : c.taken (.recv is) = none := by
      rw [taken, hpv]
    rw [heardWindow, htaken, receives_of_none hpv]
    dsimp only
    split <;> rfl
  | some pv =>
    dsimp only
    by_cases hallowed : c.recvAllowed pv = true
    · by_cases haccepts : c.acceptsPublish pv = true
      · cases pv with
        | v5Publish p =>
          simp only [acceptsPublish, Bool.and_eq_true, decide_eq_true_eq,
            Bool.not_eq_true'] at haccepts
          obtain ⟨⟨hstatus, hqos⟩, hmax⟩ := haccepts
          have hmax : ¬ c.recvMaximumReached := by simp [hmax]
          have halias := hok p hpv hqos hstatus hmax
          have hreports : reportsError (c.recv is).1.events = false := by
            rw [recv_publishV5 hpv hstatus]
            refine recvPublishV5_taken
              (c := ({ c with rpb := (c.rpb.recv is).1 } : Connection role pb)) hqos hmax ?_
            rw [ne_eq, recvTopicAlias_eq_none (c := c) (by rfl)]
            exact halias
          have htaken : c.taken (.recv is) = some p.packetId := by
            rw [taken, hpv]
            simp [hqos, hreports]
          -- the application gets no CONNECT, which would end the window
          have hhear : ∀ w : Window, (receives (c.recv is).1.events).foldl Window.hear w = w := by
            intro w
            rcases receives_of_signals (signals_of_received hpv) with hnil | ⟨-, pv', hone, hpv'⟩
            · rw [hnil]
              rfl
            · have htype : pv'.type ≠ .connect := by
                rcases hpv' with rfl | ⟨-, htype⟩
                · rintro ⟨⟩
                · rw [htype]
                  rintro ⟨⟩
              rw [hone]
              exact if_neg htype
          rw [heardWindow, htaken, hhear, lineAfterRecv_window]
          simp [acceptsPublish, hstatus, hqos, hmax, PacketVariant.type, PacketVariant.packetId]
        | _ => cases haccepts
      · have haccepts : c.acceptsPublish pv = false := by simpa using haccepts
        refine heardWindow_of_untaken hpv hallowed ?_ haccepts
        rw [taken, hpv]
        cases pv with
        | v5Publish p =>
          have hstatus : c.status = .connected := of_decide_eq_true hallowed
          dsimp only
          by_cases hqos : isQos12 p.opts = true
          · -- the receive maximum is reached
            have hmax : c.recvMaximumReached := by
              simpa [acceptsPublish, hstatus, hqos] using haccepts
            have hexceeded := recvPublishV5_exceeded
              (c := ({ c with rpb := (c.rpb.recv is).1 } : Connection role pb)) hqos hmax
            have hreports : reportsError (c.recv is).1.events = true := by
              rw [recv_publishV5 hpv hstatus]
              exact List.any_eq_true.mpr ⟨_, hexceeded, rfl⟩
            simp [hreports]
          · simp [hqos]
        | _ => rfl
    -- what is not allowed is reported and leaves the line alone
    · have hrecv : (c.recv is).1.events = [.error protocolError] := by
        rw [recv_of_received hpv, processRecvDecoded, if_neg (by exact hallowed)]
      have htaken : c.taken (.recv is) = none := by
        rw [taken, hpv, hrecv]
        cases pv with
        | v5Publish p =>
          have hreports : reportsError [(.error protocolError : Event pb)] = true := rfl
          simp [hreports]
        | _ => rfl
      rw [heardWindow, htaken, hrecv, (lineAfterRecv_of_not_allowed hallowed).1]
      rfl

/-- What is received keeps the window. -/
theorem lineAfterRecv_within (h : c.line.Kept role) (pv : PacketVariant pb) :
    (c.lineAfterRecv pv).window.Within := by
  rw [lineAfterRecv_window]
  split
  · exact fun m hm => by cases hm
  · split
    · next haccepts =>
        -- the maximum was not reached
        intro m hm
        have hle : c.publishRecv.size ≤ m := h.within m hm
        have hmax : c.publishRecvMax = some m := hm
        have hne : c.publishRecv.size ≠ m := by
          cases pv with
          | v5Publish p =>
            intro heq
            simp [acceptsPublish, recvMaximumReached, hmax, heq] at haccepts
          | _ => cases haccepts
        have hinsert := c.publishRecv.size_insert_le pv.packetId
        show (c.publishRecv.insert pv.packetId).size ≤ m
        omega
    · exact h.within

/-- A CONNECT begins with nothing received. -/
theorem lineAfterRecv_unrecorded (h : c.line.Kept role) (pv : PacketVariant pb) :
    (c.lineAfterRecv pv).status = .connecting → (c.lineAfterRecv pv).canConnack role →
      (c.lineAfterRecv pv).publishRecv = ∅ := by
  unfold lineAfterRecv
  cases pv.type with
  | connect =>
    dsimp only
    split
    · exact fun _ _ => rfl
    · exact h.unrecorded
  | publish =>
    dsimp only
    split
    · next haccepts =>
      -- a PUBLISH is taken only while connected
      have hconnected : c.status = .connected := by
        cases pv with
        | v5Publish p =>
          simp only [acceptsPublish, Bool.and_eq_true, decide_eq_true_eq] at haccepts
          exact haccepts.1.1
        | _ => cases haccepts
      exact fun hstatus => by cases hconnected.symm.trans hstatus
    · exact h.unrecorded
  | connack | disconnect =>
    dsimp only
    split
    · exact fun hstatus => by cases hstatus
    · exact h.unrecorded
  | _ => exact h.unrecorded

/-- Before it answers, `recv` has kept what was announced. -/
theorem recvLine_kept (is : List UInt8) (h : c.line.Kept role) : (c.recvLine is).Kept role := by
  unfold recvLine
  split
  · next pv hpv => exact ⟨lineAfterRecv_within h pv, lineAfterRecv_unrecorded h pv⟩
  · split
    · exact ⟨h.within, fun hstatus => nomatch hstatus⟩
    · exact h

/-- The CONNACK for a CONNECT that cannot be decoded announces nothing. -/
theorem refusal_receiveMaximum (c : Connection role pb) (value : UInt8) (init : Option Nat) :
    (c.refusal value).receiveMaximum init = init := by
  unfold refusal
  split <;> rfl

/-- A CONNECT that cannot be decoded does not start a network connection: if its CONNACK
    cannot be sent, no other can. -/
theorem refused_kept {c₁ : Connection role pb} {value : UInt8} (h : c.line.Kept role)
    {rpb : RecvPacketBuilder} (hc₁ : c₁ = { c with rpb := rpb, status := .connecting }) :
    (c₁.send (c.refusal value)).conn.line.Kept role := by
  have hwithin : c₁.line.window.Within := by
    rw [hc₁]
    exact h.within
  have htype := c.refusal_type value
  by_cases hpass : c₁.passesChecks (c.refusal value) = true
  · have hne : (c.refusal value).type ≠ .publish := by
      rw [htype]
      exact nofun
    rw [(send_line hne hpass).1]
    -- a refusal that is sent announces no maximum that is exceeded
    constructor
    · rw [afterSend_window]
      refine say_within hwithin fun _ m hm => ?_
      rw [refusal_receiveMaximum] at hm
      exact hwithin m hm
    · intro hstatus
      simp only [Line.afterSend, htype] at hstatus
      split at hstatus <;> exact nomatch hstatus
  · rw [(send_line_refused hpass).1]
    -- a refusal that is not sent leaves a line that cannot send one
    refine ⟨hwithin, fun hstatus hcan => absurd ?_ hpass⟩
    obtain ⟨hrole, hver, hsize⟩ := canConnack_line.mp hcan
    have hrefusal : c.refusal value = .v5Connack (V5.connackOf false value) := by
      subst hc₁
      exact if_pos hver
    have hfits : (PacketVariant.v5Connack (V5.connackOf false value) : PacketVariant pb).size = 5 :=
      rfl
    have hstatus : c₁.status = .connecting := hstatus
    rw [hrefusal, passesChecks_connack rfl rfl, hfits]
    simp [hrole, hstatus, hver, hsize]

/-- A call of `recv` keeps the window. -/
theorem recv_window {is : List UInt8} (hok : c.KeepsWindow (.recv is))
    (h : c.line.Kept role) :
    windowAfter c.line.window c (.recv is) = (c.recv is).1.conn.line.window ∧
      (c.recv is).1.conn.line.Kept role := by
  have hafter : windowAfter c.line.window c (.recv is) =
      (sends (c.recv is).1.events).foldl Window.say (c.recvLine is).window := by
    rw [← recvLine_window hok]
    rfl
  rw [hafter]
  -- the answer to the packet is said into the window
  rcases recv_line is c with hanswer | ⟨value, c₁, hrefused, hc₁, hrecv⟩
  · refine hanswer.window (fun w => ?_) (recvLine_kept is h)
    unfold recvResumed resumed
    split
    · split
      · exact say_storedFit _ c w
      · rfl
    · rfl
  · have hwindow : c₁.line.window = c.line.window := by
      rw [hc₁]
      rfl
    have hline : (c.recvLine is).window = c₁.line.window := by
      rw [hwindow, recvLine, received_of_refused hrefused]
      dsimp only
      split <;> rfl
    rw [hrecv, Step.events_emit, sends_append, hline]
    constructor
    · exact (congrArg _ (List.append_nil _)).trans (send_window _ c₁)
    · exact refused_kept h hc₁

/-! ### One call -/

/-- A call keeps the window, and what was announced. -/
theorem next_window {op : Op pb} (hok : c.KeepsWindow op) (h : c.line.Kept role) :
    windowAfter c.line.window c op = (c.next op).line.window ∧ (c.next op).line.Kept role := by
  have hafter : (∀ is, op ≠ .recv is) → windowAfter c.line.window c op =
      (sends (c.call op).events).foldl Window.say c.line.window := by
    intro hrecv
    unfold windowAfter
    rw [receives_call hrecv]
    cases op with
    | recv is => exact absurd rfl (hrecv is)
    | _ => rfl
  have hlocal : op.isLocal → windowAfter c.line.window c op = (c.next op).line.window ∧
      (c.next op).line.Kept role := by
    intro hop
    obtain ⟨hline, hsends⟩ := call_line_local hop c
    have hline : (c.next op).line = c.line := hline
    have hrecv : ∀ is, op ≠ .recv is := by
      rintro is rfl
      exact nomatch hop
    rw [hafter hrecv, hsends, hline]
    exact ⟨rfl, h⟩
  cases op with
  | send pv =>
    rw [hafter nofun]
    exact ⟨send_window pv c, send_kept h hok⟩
  | recv is => exact recv_window hok h
  | notifyTimerFired kind =>
    rw [hafter nofun]
    exact (notifyTimerFired_line kind c).window (fun _ => rfl) h
  | notifyClosed =>
    obtain ⟨hline, hsends⟩ := notifyClosed_line c
    have hsends : sends (c.call .notifyClosed).events = [] := hsends
    rw [hafter nofun, hsends]
    unfold next call
    rw [hline]
    exact ⟨rfl, h.within, fun hstatus => nomatch hstatus⟩
  | _ => exact hlocal rfl

/-! ### Runs -/

/-- A connection with its window. -/
structure Tracked (role : Role) (pb : PacketIdBytes) where
  conn : Connection role pb
  window : Window

/-- The start of a run: nothing was announced, and nothing taken. -/
def Tracked.make (role : Role) (pb : PacketIdBytes) (ver : ProtocolVersion) : Tracked role pb :=
  ⟨Connection.make role pb ver, ⟨none, ∅⟩⟩

/-- The connection and the window go on together. -/
def Tracked.next (t : Tracked role pb) (op : Op pb) : Tracked role pb :=
  ⟨t.conn.next op, windowAfter t.window t.conn op⟩

/-- In every run whose calls keep the window, `publish_recv_` holds the PUBLISH packets that
    were taken and not answered. These are never more than was announced, and the next one is
    answered with `receive_maximum_exceeded` exactly when they are as many. -/
theorem receive_maximum_kept (ver : ProtocolVersion) (ops : List (Op pb))
    (hok : Run.All Tracked.next (fun t op => t.conn.KeepsWindow op)
      (Tracked.make role pb ver) ops) :
    let t := Run.final Tracked.next (Tracked.make role pb ver) ops
    t.conn.publishRecv = t.window.unanswered ∧
    ∀ m, t.window.announced = some m → t.conn.publishRecv.size ≤ m ∧
      ∀ is p, t.conn.received is = some (.v5Publish p) → isQos12 p.opts →
        t.conn.status = .connected →
        (.error (.disconnect DisconnectReasonCode.receiveMaximumExceeded) ∈
          (t.conn.recv is).1.events ↔ t.conn.publishRecv.size = m) := by
  intro t
  have hinv : t.window = t.conn.line.window ∧ t.conn.line.Kept role := by
    refine Run.final_invariant
      (Q := fun t : Tracked role pb => t.window = t.conn.line.window ∧ t.conn.line.Kept role)
      ?_ ⟨rfl, ⟨(fun m hm => nomatch hm), fun _ _ => rfl⟩⟩ hok
    rintro ⟨c, w⟩ op hop ⟨hw, hkept⟩
    obtain ⟨hwindow, hkept⟩ := next_window hop hkept
    exact ⟨(congrArg (windowAfter · c op) hw).trans hwindow, hkept⟩
  obtain ⟨hw, hkept⟩ := hinv
  refine ⟨by rw [hw]; rfl, fun m hm => ?_⟩
  have hmax : t.conn.publishRecvMax = some m := by
    rw [hw] at hm
    exact hm
  refine ⟨hkept.within m hmax, fun is p hpv hqos hstatus => ?_⟩
  rw [recv_publishV5 hpv hstatus, recvPublishV5_exceeded_iff hqos]
  simp only [recvMaximumReached, hmax, decide_eq_true_eq]

/-- A client that announces one packet takes the first and refuses the second. -/
theorem receive_maximum_kept_one :
    ∃ p q, V5.connectPacket true 0 [] none none none [.nBytes .receiveMaximum [0, 1]] = .ok p ∧
      V5.publishPacket .two 1 [0x61] [[0x62]] 2 [] = .ok q ∧
      let publish : List UInt8 := [0x32, 7, 0, 1, 0x61, 0, 1, 0, 0x62]
      let ops : List (Op .two) :=
        [.send (.v5Connect p), .recv [0x20, 3, 0, 0, 0], .recv publish]
      let t := Run.final Tracked.next (Tracked.make .client .two .v5) ops
      t.conn.received publish = some (.v5Publish q) ∧ t.conn.publishRecv.size ≤ 1 ∧
      (.error (.disconnect DisconnectReasonCode.receiveMaximumExceeded) ∈
        (t.conn.recv publish).1.events ↔ t.conn.publishRecv.size = 1) := by
  refine ⟨_, _, rfl, rfl, ?_⟩
  intro publish ops t
  have hok : Run.All Tracked.next (fun t op => t.conn.KeepsWindow op)
      (Tracked.make .client .two .v5) ops := by
    simp only [ops, Run.all_cons, Run.all_nil, and_true]
    refine ⟨nofun, (fun p hp => nomatch hp), fun p hp _ _ _ => ?_⟩
    obtain rfl := PacketVariant.v5Publish.inj (Option.some.inj hp)
    exact nofun
  obtain ⟨hle, hanswer⟩ := (receive_maximum_kept .v5 ops hok).2 1 (by decide)
  refine ⟨?received, hle, hanswer publish _ ?received (by decide) (by decide)⟩
  decide

/-- A client without a topic alias maximum receives a PUBLISH with a topic alias. It is an
    error, and the packet identifier is recorded. -/
theorem rejected_recorded :
    ∃ p, V5.connectPacket true 0 [] none none none [.nBytes .receiveMaximum [0, 1]] = .ok p ∧
      let publish : List UInt8 := [0x32, 10, 0, 1, 0x61, 0, 1, 3, 0x23, 0, 1, 0x62]
      let t := Run.final Tracked.next (Tracked.make .client .two .v5)
        [.send (.v5Connect p), .recv [0x20, 3, 0, 0, 0]]
      signals (t.conn.call (.recv publish)).events =
        [.send (.v5Disconnect (V5.disconnectOf DisconnectReasonCode.topicAliasInvalid)) none,
          .close, .error (.disconnect DisconnectReasonCode.topicAliasInvalid)] ∧
      1 ∈ (t.next (.recv publish)).conn.publishRecv ∧
      1 ∉ (t.next (.recv publish)).window.unanswered := by
  refine ⟨_, rfl, ?_⟩
  decide

end Connection

end AsyncMqtt
