import AsyncMqtt.ForStd.Run
import AsyncMqtt.Spec.RecvSignals
import AsyncMqtt.Spec.StoreSteps

/-!
# A client speaks in turn

What a client may send depends on what it has sent and heard before: nothing but a CONNECT
without a connection, nothing but AUTH until the CONNACK, and then everything else until
either side sends a DISCONNECT. `Turn` is this rule as an automaton that knows nothing of
the state of a connection. It reads what can be seen of a run from outside, `Seen`.

The status of the connection is the turn, whatever the calls are, as long as no CONNECT is
received: `recv` does not ask for the role of the connection.

## Key results

- `Connection.next_in_turn`: one call
- `Connection.client_in_turn`: a run
- `Connection.client_out_of_turn`: a CONNECT follows a CONNECT without `notify_closed`
-/

namespace AsyncMqtt

/-- Where a client is in its exchange with the server. -/
inductive Turn where
  | idle
  | connecting
  | connected
  deriving DecidableEq

/-- What can be seen of a connection from outside. -/
inductive Seen (pb : PacketIdBytes) where
  /-- `notify_closed` was called -/
  | closed
  /-- the stream of the peer could not be cut into frames, and the owner was told to close -/
  | broken
  /-- a packet was received -/
  | heard (pv : PacketVariant pb)
  /-- a packet was sent -/
  | said (pv : PacketVariant pb)
  deriving DecidableEq

namespace Turn

variable {pb : PacketIdBytes}

/-- The turn after a packet of the server. -/
def hear (t : Turn) (pv : PacketVariant pb) : Turn :=
  match pv.type with
  | .connack => if t = .connecting ∧ pv.acceptsConnection then .connected else t
  | .disconnect => .idle
  | _ => t

/-- The turn after a packet of the client, if it may send it. -/
def speak (t : Turn) (type : ControlPacketType) : Option Turn :=
  match t, type with
  | .idle, .connect => some .connecting
  | .idle, _ => none
  | .connecting, .auth => some .connecting
  | .connecting, _ => none
  | .connected, .connect => none
  | .connected, .disconnect => some .idle
  | .connected, _ => some .connected

/-- The turn after something was seen. Of the packets of a client, all are of its protocol
    version, and none is one that only a server sends. -/
def follow (ver : ProtocolVersion) (t : Turn) : Seen pb → Option Turn
  | .closed | .broken => some .idle
  | .heard pv => some (t.hear pv)
  | .said pv => if pv.version = ver ∧ pv.isClientSendable then t.speak pv.type else none

/-- The turn of a connection with this status. -/
def ofStatus : ConnectionStatus → Turn
  | .disconnected => .idle
  | .connecting => .connecting
  | .connected => .connected

/-- Packets that change nothing while the client is connected. -/
theorem follow_said_connected {ver : ProtocolVersion} {pvs : List (PacketVariant pb)}
    (h : ∀ pv ∈ pvs, pv.version = ver ∧ (pv.type = .publish ∨ pv.type = .pubrel)) :
    (pvs.map Seen.said).foldlM (follow ver) .connected = some .connected := by
  induction pvs with
  | nil => rfl
  | cons pv pvs ih =>
    obtain ⟨hver, htype⟩ := h pv List.mem_cons_self
    have hfirst : follow ver .connected (.said pv) = some .connected := by
      rcases htype with htype | htype <;>
        simp [follow, hver, PacketVariant.isClientSendable, htype, speak]
    rw [List.map_cons, List.foldlM_cons, hfirst]
    exact ih fun pv hpv => h pv (List.mem_cons_of_mem _ hpv)

end Turn

/-- A stored packet is a PUBLISH or a PUBREL. -/
theorem StorePacket.toPacketVariant_type {pb : PacketIdBytes} (p : StorePacket pb) :
    p.toPacketVariant.type = .publish ∨ p.toPacketVariant.type = .pubrel := by
  cases p <;> simp [toPacketVariant, PacketVariant.type]

theorem StorePacketVariant.version_ne {pb : PacketIdBytes} (e : StorePacketVariant pb) :
    e.version ≠ .undetermined := by
  unfold version
  cases e.packet <;> exact nofun

namespace Connection

variable {pb : PacketIdBytes}

/-- What can be seen of a call: the end of a network connection, the packets that it
    receives, and the packets that it sends. -/
def seen (c : Connection .client pb) (op : Op pb) : List (Seen pb) :=
  (match op with
    | .notifyClosed => [.closed]
    | .recv is => if c.framingFails is then [.broken] else []
    | _ => []) ++
  (receives (c.call op).events).map .heard ++ (sends (c.call op).events).map .said

/-- The client is not taken for a server: it gets no CONNECT while it is disconnected. And
    the packets that the application restores are of the version of the connection. -/
def MeetsServer (c : Connection .client pb) : Op pb → Prop
  | .recv is => c.refusedConnect is = none ∧
      ∀ pv, c.received is = some pv → pv.type = .connect → c.status ≠ .disconnected
  | .restorePackets pvs => ∀ pv ∈ pvs, pv.version = c.protocolVersion
  | _ => True

/-- The turn is the status, and what the store holds may be sent. -/
structure InTurn (ver : ProtocolVersion) (c : Connection .client pb) (t : Turn) : Prop where
  turn : t = .ofStatus c.status
  version : c.protocolVersion = ver
  stored : ∀ e ∈ c.store.elems, e.version = ver

section

variable {c : Connection .client pb} {ver : ProtocolVersion}

/-! ### Sending -/

/-- A client sends what its turn allows. -/
theorem follow_said {pv : PacketVariant pb} (h : c.passesChecks pv)
    (htype : pv.type ≠ .publish) :
    (Turn.ofStatus c.status).follow c.protocolVersion (.said pv) =
      some (.ofStatus (c.line.afterSend pv).status) := by
  have hallowed := (Bool.and_eq_true_iff.mp h).1
  simp only [sendAllowed, Bool.and_eq_true] at hallowed
  obtain ⟨⟨hrole, hstatus⟩, hver⟩ := hallowed
  have hsendable : pv.isClientSendable = true := by
    simpa [canSendAsClient, canSendAsServer] using hrole
  have hver : pv.version = c.protocolVersion := (of_decide_eq_true hver).symm
  rw [Turn.follow, if_pos ⟨hver, hsendable⟩]
  unfold Line.afterSend
  -- what may be sent depends on the status
  cases hpv : pv.type with
  | publish => exact absurd hpv htype
  | connack | suback | unsuback | pingresp =>
    simp [PacketVariant.isClientSendable, hpv] at hsendable
  | connect =>
    rw [hpv] at hstatus
    have hstatus : c.status = .disconnected := of_decide_eq_true hstatus
    rw [hstatus]
    rfl
  | auth =>
    rw [hpv] at hstatus
    have hstatus : c.status ≠ .disconnected := of_decide_eq_true hstatus
    cases hs : c.status with
    | disconnected => exact absurd hs hstatus
    | connecting => exact congrArg (some <| Turn.ofStatus ·) hs.symm
    | connected => exact congrArg (some <| Turn.ofStatus ·) hs.symm
  | disconnect =>
    rw [hpv] at hstatus
    have hstatus : c.status = .connected := of_decide_eq_true hstatus
    rw [hstatus]
    rfl
  | _ =>
    rw [hpv] at hstatus
    have hstatus : c.status = .connected := of_decide_eq_true hstatus
    dsimp only
    rw [hstatus]
    first
      | exact congrArg (some <| Turn.ofStatus ·) hstatus.symm
      | split <;> exact congrArg (some <| Turn.ofStatus ·) hstatus.symm

theorem afterSend_version (l : Line) (pv : PacketVariant pb) :
    (l.afterSend pv).protocolVersion = l.protocolVersion := by
  unfold Line.afterSend
  split <;> (try split) <;> rfl

/-- A call of `send` is in turn. -/
theorem send_in_turn (pv : PacketVariant pb) (c : Connection .client pb) :
    ((sends (c.send pv).events).map Seen.said).foldlM (Turn.follow c.protocolVersion)
        (.ofStatus c.status) = some (.ofStatus (c.send pv).conn.status) ∧
      (c.send pv).conn.protocolVersion = c.protocolVersion := by
  have hsame : (c.send pv).conn.line = c.line → sends (c.send pv).events = [] →
      ((sends (c.send pv).events).map Seen.said).foldlM (Turn.follow c.protocolVersion)
        (.ofStatus c.status) = some (.ofStatus (c.send pv).conn.status) ∧
      (c.send pv).conn.protocolVersion = c.protocolVersion := by
    intro hline hsends
    have hstatus : (c.send pv).conn.status = c.status := congrArg Line.status hline
    rw [hsends, hstatus]
    exact ⟨rfl, congrArg Line.protocolVersion hline⟩
  -- a PUBLISH may be kept back, any other packet is sent when it passes the checks
  by_cases htype : pv.type = .publish
  · obtain ⟨hline, hsends | ⟨hstatus, hpass, hsends⟩⟩ := send_line_publish htype (c := c)
    · exact hsame hline hsends
    · have hver := sendAllowed_version (Bool.and_eq_true_iff.mp hpass).1
      have haliased : (c.aliased pv).type = .publish ∧ (c.aliased pv).version = pv.version := by
        cases pv with
        | v311Publish p | v5Publish p => exact ⟨rfl, rfl⟩
        | _ => exact nomatch htype
      have hstatus' : (c.send pv).conn.status = .connected :=
        (congrArg Line.status hline).trans hstatus
      refine ⟨?_, congrArg Line.protocolVersion hline⟩
      rw [hsends, hstatus, hstatus']
      apply Turn.follow_said_connected
      intro pv' hpv'
      obtain rfl := List.mem_singleton.mp hpv'
      exact ⟨haliased.2.trans hver.symm, .inl haliased.1⟩
  · by_cases hpass : c.passesChecks pv = true
    · obtain ⟨hline, hsends⟩ := send_line htype hpass
      have hconnack : pv.type ≠ .connack := by
        intro hconnack
        have hallowed := (Bool.and_eq_true_iff.mp hpass).1
        simp [sendAllowed, canSendAsClient, canSendAsServer, PacketVariant.isClientSendable,
          hconnack] at hallowed
      rw [if_neg hconnack] at hsends
      have hstatus : (c.send pv).conn.status = (c.line.afterSend pv).status :=
        congrArg Line.status hline
      refine ⟨?_, (congrArg Line.protocolVersion hline).trans (afterSend_version _ pv)⟩
      rw [hsends, hstatus, List.map_cons, List.foldlM_cons, follow_said hpass htype]
      rfl
    · obtain ⟨hline, hsends⟩ := send_line_refused hpass
      exact hsame hline hsends

/-- A step that sends stored packets or one answer is in turn. -/
theorem Answer.in_turn {l : Line} {stored : List (PacketVariant pb)} {s : Step .client pb}
    (h : Answer l stored s) (hver : l.protocolVersion = ver)
    (hstored : stored ≠ [] → l.status = .connected)
    (hsendable : ∀ pv ∈ stored, pv.version = ver ∧ (pv.type = .publish ∨ pv.type = .pubrel)) :
    ((sends s.events).map Seen.said).foldlM (Turn.follow ver) (.ofStatus l.status) =
        some (.ofStatus s.conn.status) ∧ s.conn.protocolVersion = ver := by
  cases h with
  | silent hline hsends =>
    have hstatus : s.conn.status = l.status := congrArg Line.status hline
    refine ⟨?_, (congrArg Line.protocolVersion hline).trans hver⟩
    rw [hsends, hstatus]
    cases hnil : stored with
    | nil => rfl
    | cons pv pvs =>
      rw [hstored (hnil ▸ List.cons_ne_nil pv pvs)]
      exact Turn.follow_said_connected (hnil ▸ hsendable)
  | sent c₁ r hc₁ hr hline hsends =>
    obtain ⟨hturn, hversion⟩ := c₁.send_in_turn r
    have hver₁ : c₁.protocolVersion = ver := (congrArg Line.protocolVersion hc₁).trans hver
    have hstatus₁ : c₁.status = l.status := congrArg Line.status hc₁
    have hstatus : s.conn.status = (c₁.send r).conn.status := congrArg Line.status hline
    rw [hver₁, hstatus₁] at hturn
    rw [hsends, hstatus]
    exact ⟨hturn, (congrArg Line.protocolVersion hline).trans (hversion.trans hver₁)⟩

/-! ### Receiving -/

/-- Only a CONNACK and a DISCONNECT change the status of a client. -/
theorem lineAfterRecv_status {pv : PacketVariant pb}
    (hconnect : pv.type = .connect → c.status ≠ .disconnected) :
    (c.lineAfterRecv pv).protocolVersion = c.protocolVersion ∧
    (c.lineAfterRecv pv).status =
      if c.acceptsConnack pv then .connected
      else if pv.type = .disconnect ∧ c.status = .connected then .disconnected
      else c.status := by
  have hnot : pv.type ≠ .connack → c.acceptsConnack pv = false := by
    intro htype
    simp [acceptsConnack, PacketVariant.acceptsConnection, htype]
  unfold lineAfterRecv
  -- only CONNACK and DISCONNECT change the status of a client
  cases htype : pv.type with
  | connect =>
    rw [if_neg (hconnect htype), hnot (by rw [htype]; rintro ⟨⟩)]
    exact ⟨rfl, rfl⟩
  | connack =>
    dsimp only
    split <;> exact ⟨rfl, rfl⟩
  | disconnect =>
    rw [hnot (by rw [htype]; rintro ⟨⟩)]
    dsimp only
    split
    · next hstatus => simp [hstatus, line]
    · next hstatus => simp [hstatus, line]
  | publish =>
    rw [hnot (by rw [htype]; rintro ⟨⟩)]
    dsimp only
    split <;> exact ⟨rfl, rfl⟩
  | _ =>
    rw [hnot (by rw [htype]; rintro ⟨⟩)]
    exact ⟨rfl, rfl⟩

/-- What a client hears makes its turn what its status becomes. -/
theorem Signals.in_turn {pv : PacketVariant pb} {es : List (Event pb)} (h : Signals c pv es)
    (hconnect : pv.type = .connect → c.status ≠ .disconnected) :
    ((receives es).map Seen.heard).foldlM (Turn.follow ver) (.ofStatus c.status) =
      some (.ofStatus (c.lineAfterRecv pv).status) := by
  obtain ⟨-, hstatus⟩ := lineAfterRecv_status hconnect
  -- what is not delivered leaves the turn and the status alone
  have hnone : ∀ fs : List (Event pb), signals es = fs → receives fs = [] →
      (c.lineAfterRecv pv).status = c.status →
      ((receives es).map Seen.heard).foldlM (Turn.follow ver) (.ofStatus c.status) =
        some (.ofStatus (c.lineAfterRecv pv).status) := by
    intro fs hfs hnil hsame
    rw [← receives_signals, hfs, hnil, hsame]
    rfl
  have hconnected : c.status = .connected → pv.type ≠ .disconnect →
      (c.lineAfterRecv pv).status = c.status := by
    intro hs htype
    rw [hstatus, if_neg (by simp [acceptsConnack, hs]), if_neg fun h => htype h.1]
  cases h with
  | nothing htype h =>
    apply hnone _ h rfl
    rw [hstatus, if_neg (by simp [acceptsConnack, PacketVariant.acceptsConnection, htype]),
      if_neg (by simp [htype])]
  | notAllowed hallowed h =>
    apply hnone _ h rfl
    rw [(lineAfterRecv_of_not_allowed hallowed).1]
    rfl
  | disconnect hallowed hs htype hversion reasonCode h =>
    apply hnone _ h _ (hconnected hs htype)
    split <;> rfl
  | closed hallowed hs htype hversion h => exact hnone _ h rfl (hconnected hs htype)
  | delivered hallowed pv' hpv' h =>
    have hheard : ((receives es).map Seen.heard).foldlM (Turn.follow ver) (.ofStatus c.status) =
        some ((Turn.ofStatus c.status).hear pv') := by
      rw [← receives_signals, h]
      rfl
    rw [hheard, hstatus]
    -- what is delivered is the packet, or a PUBLISH that has its topic again
    rcases hpv' with rfl | ⟨htype, htype'⟩
    · unfold recvAllowed at hallowed
      unfold Turn.hear acceptsConnack
      cases htype : pv'.type with
      | connack =>
        rw [htype] at hallowed
        have hs : c.status = .connecting := of_decide_eq_true hallowed
        rw [hs]
        by_cases haccepts : pv'.acceptsConnection = true <;> simp [haccepts, Turn.ofStatus]
      | disconnect =>
        rw [htype] at hallowed
        have hs : c.status = .connected := of_decide_eq_true hallowed
        rw [hs]
        simp [Turn.ofStatus]
      | _ => simp [PacketVariant.acceptsConnection, htype]
    · simp [Turn.hear, htype, htype', acceptsConnack, PacketVariant.acceptsConnection]

/-- The end of the stream and the packet that is received, before it is answered. -/
theorem heard_in_turn {is : List UInt8} (hok : c.MeetsServer (.recv is)) :
    ((if c.framingFails is then [Seen.broken] else []) ++
        (receives (c.recv is).1.events).map Seen.heard).foldlM (Turn.follow ver)
        (.ofStatus c.status) = some (.ofStatus (c.recvLine is).status) ∧
      (c.recvLine is).protocolVersion = c.protocolVersion := by
  have hnone : c.received is = none → ¬ c.framingFails is → ∀ fs : List (Event pb),
      signals (c.recv is).1.events = fs → receives fs = [] →
      ((if c.framingFails is then [Seen.broken] else []) ++
        (receives (c.recv is).1.events).map Seen.heard).foldlM (Turn.follow ver)
        (.ofStatus c.status) = some (.ofStatus (c.recvLine is).status) ∧
      (c.recvLine is).protocolVersion = c.protocolVersion := by
    intro hpv hframing fs hfs hnil
    rw [← receives_signals, hfs, hnil, if_neg hframing, recvLine, hpv]
    dsimp only
    rw [if_neg hframing]
    exact ⟨rfl, rfl⟩
  -- a packet that was taken, and the ways in which none was
  cases recv_signals is c with
  | taken pv hpv h =>
    have hconnect := hok.2 pv hpv
    rw [framingFails_of_received hpv, recvLine, hpv]
    exact ⟨h.in_turn hconnect, (lineAfterRecv_status hconnect).1⟩
  | nothing hpv hframing h => exact hnone hpv hframing _ h rfl
  | framing hpv hframing ec h =>
    rw [← receives_signals, h, if_pos hframing, recvLine, hpv]
    dsimp only
    rw [if_pos hframing]
    exact ⟨rfl, rfl⟩
  | refused hpv hframing value hvalue h => exact hnone hpv hframing _ h rfl
  | disconnect hpv hframing hwhy reasonCode h =>
    apply hnone hpv hframing _ h
    split <;> rfl
  | closed hpv hframing hwhy ec h => exact hnone hpv hframing _ h rfl

/-- A call of `recv` is in turn. -/
theorem recv_in_turn {is : List UInt8} (hok : c.MeetsServer (.recv is))
    (hver : c.protocolVersion = ver) (hstored : ∀ e ∈ c.store.elems, e.version = ver) :
    (c.seen (.recv is)).foldlM (Turn.follow ver) (.ofStatus c.status) =
        some (.ofStatus (c.recv is).1.conn.status) ∧
      (c.recv is).1.conn.protocolVersion = ver := by
  obtain ⟨hheard, hversion⟩ := @heard_in_turn pb c ver is hok
  have hanswer : ((sends (c.recv is).1.events).map Seen.said).foldlM (Turn.follow ver)
      (.ofStatus (c.recvLine is).status) = some (.ofStatus (c.recv is).1.conn.status) ∧
      (c.recv is).1.conn.protocolVersion = ver := by
    rcases recv_line is c with h | ⟨value, c₁, hvalue, -⟩
    · apply h.in_turn (hversion.trans hver)
      · -- the stored packets follow the CONNACK
        intro hne
        unfold recvResumed at hne
        unfold recvLine
        -- without a CONNACK the store is not sent again
        cases hpv : c.received is with
        | none =>
          rw [hpv] at hne
          exact absurd rfl hne
        | some pv =>
          rw [hpv] at hne
          have haccepts : c.acceptsConnack pv := by
            by_contra hnot
            exact hne (if_neg fun h => hnot h.1)
          rw [(lineAfterRecv_status (hok.2 pv hpv)).2, if_pos haccepts]
      · intro pv' hpv'
        unfold recvResumed at hpv'
        split at hpv'
        · unfold resumed at hpv'
          split at hpv'
          · obtain ⟨e, he, -, rfl⟩ := mem_storedFit.mp hpv'
            exact ⟨hstored e he, e.packet.toPacketVariant_type⟩
          · exact nomatch hpv'
        · exact nomatch hpv'
    · rw [hok.1] at hvalue
      exact nomatch hvalue
  refine ⟨?_, hanswer.2⟩
  unfold seen
  rw [List.foldlM_append]
  dsimp only [call]
  rw [hheard]
  exact hanswer.1

/-! ### One call -/

/-- The packets in the store keep being of the version of the connection. -/
theorem next_stored {op : Op pb} (hok : c.MeetsServer op) (hver : c.protocolVersion = ver)
    (hstored : ∀ e ∈ c.store.elems, e.version = ver) :
    ∀ e ∈ (c.next op).store.elems, e.version = ver := by
  intro e he
  -- the store gets packets of the version by a send and by a restoration
  cases op with
  | send pv =>
    rcases send_store pv he with hk | ⟨hs, -⟩
    · exact hstored e hk.1
    · exact hs.2.trans hver
  | recv is =>
    have hversion : ∀ pv, c.received is = some pv → c.status = .connected → e ∈ c.store.elems →
        e.version = pv.version := by
      intro pv hpv _ hmem
      have hdetermined : c.protocolVersion ≠ .undetermined := by
        rw [hver, ← hstored e hmem]
        exact e.version_ne
      rw [received_version hpv hdetermined, hver]
      exact hstored e hmem
    have hclean : ∀ pv, c.received is = some pv → pv.type = .connect →
        c.status = .disconnected → pv.view.cleanStart → c.store.elems = [] :=
      fun pv hpv htype hstatus _ => absurd hstatus (hok.2 pv hpv htype)
    rcases recv_store hversion hclean he with hk | hs
    · exact hstored e hk.1
    · exact hs.2.trans hver
  | notifyTimerFired kind => exact hstored e ((notifyTimerFired_quiet kind c).1.store ▸ he)
  | notifyClosed =>
    rw [next, call, notifyClosed_conn] at he
    exact hstored e he
  | restorePackets pvs =>
    rcases restorePackets_store he with hk | ⟨-, pv, hpv, hpacket⟩
    · exact hstored e hk.1
    · rw [StorePacketVariant.version, hpacket]
      exact (hok pv hpv).trans hver
  | releasePacketId packetId =>
    rw [next, call, releasePacketId_conn] at he
    exact hstored e he
  | setPingreqSendInterval duration =>
    rw [next, call, setPingreqSendInterval] at he
    split at he <;> exact hstored e he
  | _ => exact hstored e he

/-- A call of any member function is in turn, and the turn goes on to be the status. -/
theorem next_in_turn {op : Op pb} {t : Turn} (hok : c.MeetsServer op) (h : InTurn ver c t) :
    ∃ t', (c.seen op).foldlM (Turn.follow ver) t = some t' ∧ InTurn ver (c.next op) t' := by
  obtain ⟨rfl, hver, hstored⟩ := h
  have hstored' := next_stored hok hver hstored
  suffices hcall : (c.seen op).foldlM (Turn.follow ver) (.ofStatus c.status) =
      some (.ofStatus (c.next op).status) ∧ (c.next op).protocolVersion = ver from
    ⟨_, hcall.1, rfl, hcall.2, hstored'⟩
  -- besides receiving and closing only what is sent is seen
  have hseen : (∀ is, op ≠ .recv is) → op ≠ .notifyClosed →
      c.seen op = (sends (c.call op).events).map Seen.said := by
    intro hrecv hclosed
    unfold seen
    rw [receives_call hrecv]
    cases op with
    | recv is => exact absurd rfl (hrecv is)
    | notifyClosed => exact absurd rfl hclosed
    | _ => rfl
  -- calls that do not reach the line show nothing
  have hlocal : op.isLocal → (c.seen op).foldlM (Turn.follow ver) (.ofStatus c.status) =
      some (.ofStatus (c.next op).status) ∧ (c.next op).protocolVersion = ver := by
    intro h
    obtain ⟨hline, hsends⟩ := call_line_local h c
    have hstatus : (c.next op).status = c.status := congrArg Line.status hline
    have hrecv : ∀ is, op ≠ .recv is := by
      rintro is rfl
      exact nomatch h
    have hclosed : op ≠ .notifyClosed := by
      rintro rfl
      exact nomatch h
    rw [hseen hrecv hclosed, hsends, hstatus]
    exact ⟨rfl, (congrArg Line.protocolVersion hline).trans hver⟩
  cases op with
  | send pv =>
    obtain ⟨hturn, hversion⟩ := c.send_in_turn pv
    rw [hseen nofun nofun, ← hver]
    exact ⟨hturn, hversion⟩
  | recv is => exact recv_in_turn hok hver hstored
  | notifyTimerFired kind =>
    rw [hseen nofun nofun]
    exact (c.notifyTimerFired_line kind).in_turn hver (fun h => absurd rfl h) nofun
  | notifyClosed =>
    obtain ⟨hline, hsends⟩ := c.notifyClosed_line
    have hstatus : c.notifyClosed.conn.status = .disconnected := congrArg Line.status hline
    constructor
    · unfold seen next call
      dsimp only
      rw [receives_notifyClosed, hsends, hstatus]
      rfl
    · exact (congrArg Line.protocolVersion hline).trans hver
  | _ => exact hlocal rfl

end

/-! ### Runs -/

/-- In every run of a client that is not taken for a server, the packets that it sends are
    in turn. -/
theorem client_in_turn (ver : ProtocolVersion) (ops : List (Op pb))
    (hok : Run.All next MeetsServer (make .client pb ver) ops) :
    ((Run.trace next seen (make .client pb ver) ops).foldlM (Turn.follow ver) .idle).isSome := by
  have hinit : InTurn ver (make .client pb ver) .idle := ⟨rfl, rfl, fun _ he => nomatch he⟩
  obtain ⟨t, hread, -⟩ := Run.trace_accepted (R := InTurn ver)
    (fun c t op hok h => next_in_turn hok h) hinit hok
  rw [hread]
  rfl

/-- A CONNECT, the CONNACK, a PINGREQ of the timer and a DISCONNECT. -/
theorem client_in_turn_ping :
    ∃ p, V311.connectPacket true 10 [0x61] none none none = .ok p ∧
      let ops : List (Op .two) :=
        [.send (.v311Connect p), .recv [0x20, 2, 0, 0], .notifyTimerFired .pingreqSend,
          .send (.v311Disconnect (TwoBytePacket.make .disconnect))]
      ((Run.trace next seen (make .client .two .v311) ops).foldlM (Turn.follow .v311)
        .idle).isSome := by
  refine ⟨_, rfl, client_in_turn .v311 _ ?_⟩
  simp only [Run.all_cons, Run.all_nil, and_true]
  refine ⟨trivial, ⟨by decide, fun pv hpv htype => ?_⟩, trivial, trivial⟩
  obtain rfl := Option.some.inj hpv
  exact nomatch htype

/-- Without `notify_closed` a CONNECT follows a CONNECT, because the stream could not be cut
    into frames in between. And a client that got a CONNECT sends AUTH before it has sent
    any. -/
theorem client_out_of_turn :
    (∃ p, V311.connectPacket true 10 [0x61] none none none = .ok p ∧
      let said : Seen .two := .said (.v311Connect p)
      Run.trace next seen (make .client .two .v311) [.send (.v311Connect p),
        .recv [0x20, 0xFF, 0xFF, 0xFF, 0xFF], .send (.v311Connect p)] = [said, .broken, said] ∧
      [said, said].foldlM (Turn.follow .v311) .idle = none) ∧
    ∃ p pv, V5.authPacket none [] = .ok p ∧
      Run.trace next seen (make .client .two .v5)
        [.recv [0x10, 0x0D, 0, 4, 0x4D, 0x51, 0x54, 0x54, 5, 2, 0, 10, 0, 0, 0],
          .send (.v5Auth p)] = [.heard pv, .said (.v5Auth p)] :=
  ⟨⟨_, rfl, by decide, by decide⟩, _, _, rfl, rfl⟩

end Connection

end AsyncMqtt
