import AsyncMqtt.Spec.ExchangeTraffic

/-!
# The begin of a connection and the exchanges

CONNECT and CONNACK, between two sides that set no limits and go on with their session: a
CONNECT changes nothing about the exchanges, and with a CONNACK that accepts the connection
each side sends all that it keeps.

## Key results

- `Connection.sendConnect_turn`, `Connection.recvConnect_turn`: CONNECT
- `Connection.sendConnack_turn`, `Connection.recvConnack_turn`: CONNACK
-/

namespace AsyncMqtt

open Delivery

namespace Connection

variable {role : Role} {pb : PacketIdBytes} {ver : ProtocolVersion} {c : Connection role pb}
  {pv : PacketVariant pb}

/-! ### Properties -/

/-- The properties ask for the session to be kept. -/
def keepsSession (props : Properties) : Bool :=
  props.any fun prop => prop.id = .sessionExpiryInterval && prop.val ≠ 0

/-- The first property sets no limit, and neither do the others. -/
theorem noLimits_cons {prop : Property} {props : Properties}
    (h : PacketVariant.NoLimits (prop :: props)) :
    (prop.id ≠ .topicAliasMaximum ∧ prop.id ≠ .receiveMaximum ∧ prop.id ≠ .maximumPacketSize) ∧
      PacketVariant.NoLimits props :=
  ⟨h prop List.mem_cons_self, fun p hp => h p (List.mem_cons_of_mem _ hp)⟩

/-- Without limits the properties of a CONNECT that is sent can only keep the session. -/
theorem sendConnectProps_noLimits {props : Properties} (h : PacketVariant.NoLimits props)
    (c : Connection role pb) : props.foldl sendConnectProp c =
      { c with needStore := c.needStore || keepsSession props } := by
  induction props generalizing c with
  | nil => rw [keepsSession, List.any_nil, Bool.or_false]; rfl
  | cons prop props ih =>
    obtain ⟨⟨h₁, h₂, h₃⟩, hrest⟩ := noLimits_cons h
    have hone : sendConnectProp c prop =
        { c with needStore := c.needStore ||
            (decide (prop.id = .sessionExpiryInterval) && decide (prop.val ≠ 0)) } := by
      unfold sendConnectProp
      generalize prop.id = id at h₁ h₂ h₃
      cases id <;> first
        | exact absurd rfl h₁
        | exact absurd rfl h₂
        | exact absurd rfl h₃
        | (by_cases hval : prop.val = 0 <;> simp [hval])
    rw [List.foldl_cons, hone, ih hrest]
    simp only [keepsSession, List.any_cons, Bool.or_assoc]

/-- Without limits the properties of a CONNECT that is received can only keep the session. -/
theorem recvConnectProps_noLimits {props : Properties} (h : PacketVariant.NoLimits props)
    (c : Connection role pb) : props.foldl recvConnectProp c =
      { c with needStore := c.needStore || keepsSession props } := by
  induction props generalizing c with
  | nil => rw [keepsSession, List.any_nil, Bool.or_false]; rfl
  | cons prop props ih =>
    obtain ⟨⟨h₁, h₂, h₃⟩, hrest⟩ := noLimits_cons h
    have hone : recvConnectProp c prop =
        { c with needStore := c.needStore ||
            (decide (prop.id = .sessionExpiryInterval) && decide (prop.val ≠ 0)) } := by
      unfold recvConnectProp
      generalize prop.id = id at h₁ h₂ h₃
      cases id <;> first
        | exact absurd rfl h₁
        | exact absurd rfl h₂
        | exact absurd rfl h₃
        | (by_cases hval : prop.val = 0 <;> simp [hval])
    rw [List.foldl_cons, hone, ih hrest]
    simp only [keepsSession, List.any_cons, Bool.or_assoc]

/-- Without limits the properties of a CONNACK that is sent do nothing. -/
theorem sendConnackProps_noLimits {props : Properties} (h : PacketVariant.NoLimits props)
    (c : Connection role pb) : props.foldl sendConnackProp c = c := by
  induction props generalizing c with
  | nil => rfl
  | cons prop props ih =>
    obtain ⟨⟨h₁, h₂, h₃⟩, hrest⟩ := noLimits_cons h
    have hone : sendConnackProp c prop = c := by
      unfold sendConnackProp
      generalize prop.id = id at h₁ h₂ h₃
      cases id <;> first
        | exact absurd rfl h₁
        | exact absurd rfl h₂
        | exact absurd rfl h₃
        | rfl
    rw [List.foldl_cons, hone, ih hrest]

/-- Without limits the properties of a CONNACK that is received set only the interval of the
    PINGREQ. -/
theorem recvConnackProps_noLimits {props : Properties} (h : PacketVariant.NoLimits props)
    (c : Connection role pb) : ∃ int set, (recvConnackProps props c).conn =
      { c with pingreqSendIntervalMs := int, pingreqSendSet := set } := by
  induction props generalizing c with
  | nil => exact ⟨_, _, rfl⟩
  | cons prop props ih =>
    obtain ⟨⟨h₁, h₂, h₃⟩, hrest⟩ := noLimits_cons h
    have hone : ∃ int set, (recvConnackProp prop c).conn =
        { c with pingreqSendIntervalMs := int, pingreqSendSet := set } := by
      unfold recvConnackProp setPingreqSendInterval
      -- the three limits are excluded, and Server Keep Alive is the only other property that counts
      generalize prop.id = id at h₁ h₂ h₃
      cases id <;> first
        | exact absurd rfl h₁
        | exact absurd rfl h₂
        | exact absurd rfl h₃
        | exact ⟨_, _, rfl⟩
        | (dsimp only
           split
           · split <;> exact ⟨_, _, rfl⟩
           · exact ⟨_, _, rfl⟩)
    obtain ⟨int, set, hone⟩ := hone
    obtain ⟨int', set', hprops⟩ := ih hrest (recvConnackProp prop c).conn
    refine ⟨int', set', ?_⟩
    rw [recvConnackProps, Step.conn_andThen, hprops, hone]

/-! ### CONNECT -/

/-- The state after a CONNECT of a session that is kept. -/
structure Begun (ver : ProtocolVersion) (c c' : Connection role pb) : Prop where
  state : ∃ isClient int timeout, c' = { c with
    status := .connecting, isClient := isClient, needStore := true, publishSendMax := none
    publishRecvMax := none, publishSendCount := 0, topicAliasSend := none, topicAliasRecv := none
    publishRecv := ∅, qos2PublishProcessing := ∅, pidSuback := ∅, pidUnsuback := ∅
    pingreqSendIntervalMs := int, pingreqRecvTimeoutMs := timeout }

/-- A connection without limits has none after a CONNECT. -/
theorem Begun.unlimited {c' : Connection role pb} (h : c.Unlimited ver) (hb : Begun ver c c') :
    c'.Unlimited ver := by
  obtain ⟨isClient, int, timeout, rfl⟩ := hb.state
  exact { h with
    topicAliasSend := rfl
    topicAliasRecv := rfl
    publishSendMax := rfl
    publishRecvMax := rfl
    unstarted := fun hns => absurd rfl hns
    connecting := fun _ => ⟨rfl, rfl⟩ }

/-- A CONNECT does not touch the exchanges. -/
theorem Begun.idle {c' : Connection role pb} (hb : Begun ver c c') : c'.idle = c.idle := by
  obtain ⟨isClient, int, timeout, rfl⟩ := hb.state
  rfl

/-- After a CONNECT the connection is being set up. -/
theorem Begun.status {c' : Connection role pb} (hb : Begun ver c c') : c'.status = .connecting := by
  obtain ⟨isClient, int, timeout, rfl⟩ := hb.state
  rfl

/-- A plain v5 CONNECT asks for a session that is kept. -/
theorem keepsSession_of_plain (hp : pv.Plain .v5) (htype : pv.type = .connect) :
    keepsSession pv.view.props = true := by
  obtain ⟨prop, hprop, hid, hval⟩ := (hp.connect htype).2 rfl
  refine List.any_eq_true.mpr ⟨prop, hprop, ?_⟩
  rw [hid, decide_eq_true hval]
  rfl

/-- A CONNECT is sent by itself and sets up the connection anew. -/
theorem sendConnect_begun (hv : c.protocolVersion = ver) (hp : pv.Plain ver)
    (htype : pv.type = .connect) : ∃ c', c.processSendActual pv = .send c' pv none ∧ Begun ver c c' := by
  cases pv with
  | v311Connect p =>
    have hclean : ¬ p.cleanSession := (hp.connect rfl).1
    refine ⟨c.sendConnectV311 p, rfl, ?_⟩
    unfold sendConnectV311
    simp only [if_neg hclean]
    split <;> exact ⟨_, _, _, rfl⟩
  | v5Connect p =>
    obtain rfl : ProtocolVersion.v5 = ver := hp.version
    have hclean : ¬ p.cleanStart := (hp.connect rfl).1
    have hkeeps : keepsSession p.props = true := keepsSession_of_plain hp rfl
    have hlimits : PacketVariant.NoLimits p.props := hp.handshake (.inl rfl)
    refine ⟨c.sendConnectV5 p, rfl, ?_⟩
    unfold sendConnectV5
    simp only [if_neg hclean, sendConnectProps_noLimits hlimits, hkeeps, Bool.or_true]
    split <;> exact ⟨_, _, _, rfl⟩
  | _ => cases htype

/-- A client that sends its CONNECT is left without limits, and its exchanges are as before. -/
theorem sendConnect_turn (h : c.Unlimited ver) (hp : pv.Plain ver) (htype : pv.type = .connect)
    (hpass : c.passesChecks pv) :
    (c.send pv).conn.Unlimited ver ∧ (c.send pv).traffic = c.idle ∧
      sends (c.send pv).events = [pv] ∧ (c.send pv).conn.status = .connecting := by
  obtain ⟨hallowed, hsize⟩ := Bool.and_eq_true_iff.mp hpass
  obtain ⟨c', hactual, hbegun⟩ := sendConnect_begun h.protocolVersion hp htype
  have hpublish : pv.type ≠ .publish := by rw [htype]; exact ControlPacketType.noConfusion
  have hconnack : pv.type ≠ .connack := by rw [htype]; exact ControlPacketType.noConfusion
  -- only the timer of the PINGREQ is set behind the CONNECT
  have hq : Quiet c' (c.send pv).conn := by
    rw [send_of_allowed hallowed hsize, hactual, if_neg hconnack]
    exact quiet_resetPingreqSend c'
  obtain ⟨hline, hsends⟩ := send_line hpublish hpass
  rw [if_neg hconnack] at hsends
  refine ⟨(hbegun.unlimited h).quiet hq, ?_, hsends, ?_⟩
  · have hnone : outgoings [pv] = [] ∧ replies [pv] = [] := by
      constructor
      · rw [outgoings, List.filterMap_cons, PacketVariant.outgoing?, htype]
        rfl
      · rw [replies, List.filterMap_cons, PacketVariant.reply?, htype]
        rfl
    rw [hq.traffic, hsends, hnone.1, hnone.2, deliveries, receives_send, hbegun.idle]
    rfl
  · have hstatus := congrArg Line.status hline
    rw [Line.afterSend, htype] at hstatus
    exact hstatus

/-- A CONNECT that is received is handed over and sets up the connection anew. -/
theorem recvConnect_begun (hv : c.protocolVersion = ver) (hp : pv.Plain ver)
    (htype : pv.type = .connect) :
    ∃ c', c.processRecvActual pv = c'.receive pv ∧ Begun ver c c' := by
  cases pv with
  | v311Connect p =>
    obtain rfl : ProtocolVersion.v311 = ver := hp.version
    have hclean : ¬ p.cleanSession := (hp.connect rfl).1
    refine ⟨c.recvConnectV311 p, rfl, ?_⟩
    unfold recvConnectV311 recvKeepAlive
    simp only [if_neg hclean, ← hv]
    split <;> exact ⟨_, _, _, rfl⟩
  | v5Connect p =>
    obtain rfl : ProtocolVersion.v5 = ver := hp.version
    have hclean : ¬ p.cleanStart := (hp.connect rfl).1
    have hkeeps : keepsSession p.props = true := keepsSession_of_plain hp rfl
    have hlimits : PacketVariant.NoLimits p.props := hp.handshake (.inl rfl)
    refine ⟨c.recvConnectV5 p, rfl, ?_⟩
    unfold recvConnectV5 recvKeepAlive
    simp only [if_neg hclean, recvConnectProps_noLimits hlimits, hkeeps, Bool.or_true, ← hv]
    split <;> exact ⟨_, _, _, rfl⟩
  | _ => cases htype

/-- A server that receives a CONNECT while disconnected is left without limits, and its exchanges
    are as before. -/
theorem recvConnect_turn (h : c.Unlimited ver) (hp : pv.Plain ver) (htype : pv.type = .connect)
    (hstatus : c.status = .disconnected) :
    (c.processRecvDecoded pv).conn.Unlimited ver ∧ (c.processRecvDecoded pv).traffic = c.idle ∧
      (∀ r ∈ sends (c.processRecvDecoded pv).events, r.isAside ∧ r.version = ver) ∧
      (c.processRecvDecoded pv).conn.status = .connecting := by
  have hallowed : c.recvAllowed pv = true := by
    rw [recvAllowed, htype]
    exact decide_eq_true hstatus
  obtain ⟨c', hactual, hbegun⟩ := recvConnect_begun h.protocolVersion hp htype
  rw [processRecvDecoded, if_pos hallowed, hactual]
  have hout : pv.outgoing? = none := by rw [PacketVariant.outgoing?, htype]
  have hstay : Aside ver c' ⟨c', []⟩ := aside_stay (hbegun.unlimited h) rfl rfl
  have haside : Aside ver c' (c'.receive pv) := hstay.receive hout
  refine ⟨haside.unlimited, haside.traffic.trans hbegun.idle, haside.packets, ?_⟩
  rw [receive_conn]
  exact hbegun.status

/-! ### CONNACK -/

/-- The stored packets, as they are sent -/
def resent (c : Connection role pb) : List (PacketVariant pb) :=
  c.store.elems.map (·.packet.toPacketVariant)

/-- Nothing in the store is too large. -/
theorem storedFit_eq (h : c.Unlimited ver) {limit : Nat} (hlimit : packetSizeNoLimit ≤ limit) :
    c.storedFit limit = c.resent := by
  rw [storedFit, List.filter_eq_self.mpr fun e he => decide_eq_true ((h.stored e he).1.trans hlimit)]
  rfl

/-- What is sent again are the exchanges of the store. -/
theorem outgoings_resent (c : Connection role pb) :
    outgoings c.resent = c.kept ∧ replies c.resent = [] := by
  constructor
  · rw [outgoings, resent, List.filterMap_map, kept, ← List.filterMap_eq_map]
    exact List.filterMap_congr fun e _ => e.outgoing?_eq
  · refine List.filterMap_eq_nil_iff.mpr fun r hr => ?_
    obtain ⟨e, -, rfl⟩ := List.mem_map.mp hr
    cases e.packet <;> rfl

/-- What is sent again are plain packets of an exchange. -/
theorem resent_plain (h : c.Unlimited ver) : ∀ r ∈ c.resent, r.Plain ver ∧ ¬ r.isHandshake := by
  intro r hr
  obtain ⟨e, he, rfl⟩ := List.mem_map.mp hr
  refine ⟨(h.stored e he).2, ?_⟩
  cases e.packet <;> exact Bool.false_ne_true

/-- No stored packet is too large. -/
theorem sendStored_fit (h : ∀ e ∈ c.store.elems, e.size ≤ c.maximumPacketSizeSend) :
    c.sendStored.conn = c := by
  have hids : ∀ (es : List (StorePacketVariant pb)) (m : PacketIdManager pb),
      (∀ e ∈ es, e.size ≤ c.maximumPacketSizeSend) →
      es.foldl (releaseTooLarge c.maximumPacketSizeSend) m = m := by
    intro es
    induction es with
    | nil => exact fun _ _ => rfl
    | cons e es ih =>
      intro m hes
      have hone : releaseTooLarge c.maximumPacketSizeSend m e = m :=
        if_neg (Nat.not_lt.mpr (hes e List.mem_cons_self))
      rw [List.foldl_cons, hone]
      exact ih m fun e he => hes e (List.mem_cons_of_mem _ he)
  have hstore : (c.store.filter fun pv => pv.size ≤ c.maximumPacketSizeSend) = c.store := by
    unfold Store.filter
    congr 1
    exact List.filter_eq_self.mpr fun e he => decide_eq_true (h e he)
  rw [sendStored_conn, hids _ _ h, hstore]

/-- The state after a CONNACK, before the stored packets are sent -/
structure Answered (c c' : Connection role pb) (accepts : Bool) : Prop where
  state : ∃ int a b d, c' = { c with
    status := if accepts then .connected else .disconnected, pingreqSendIntervalMs := int
    pingreqSendSet := a, pingreqRecvSet := b, pingrespRecvSet := d }

/-- A connection without limits has none after the answer. -/
theorem Answered.unlimited {c' : Connection role pb} {accepts : Bool} (h : c.Unlimited ver)
    (hstatus : c.status ≠ .disconnected) (ha : Answered c c' accepts) : c'.Unlimited ver := by
  obtain ⟨int, a, b, d, rfl⟩ := ha.state
  exact { h with
    unstarted := fun hns => absurd (h.started hstatus) hns
    connecting := fun hs => by
      cases accepts <;> cases hs }

/-- The answer does not touch the exchanges. -/
theorem Answered.idle {c' : Connection role pb} {accepts : Bool} (ha : Answered c c' accepts) :
    c'.idle = c.idle ∧ c'.resent = c.resent := by
  obtain ⟨int, a, b, d, rfl⟩ := ha.state
  exact ⟨rfl, rfl⟩

/-- The answer decides the status. -/
theorem Answered.status {c' : Connection role pb} {accepts : Bool} (ha : Answered c c' accepts) :
    c'.status = if accepts then .connected else .disconnected := by
  obtain ⟨int, a, b, d, rfl⟩ := ha.state
  rfl

/-- A CONNACK that is sent answers the CONNECT. -/
theorem sendConnack_answered (hp : pv.Plain ver) (htype : pv.type = .connack) :
    ∃ c', (c.processSendActual pv).step.conn = c' ∧ Answered c c' pv.acceptsConnection ∧
      (c.processSendActual pv).ok = true := by
  -- a refusal only cancels the timers
  have hrefused : ∃ int a b d, (({ c with status := .disconnected } : Connection role pb).cancelTimers).conn =
      { c with
        status := if false then .connected else .disconnected, pingreqSendIntervalMs := int
        pingreqSendSet := a, pingreqRecvSet := b, pingrespRecvSet := d } := by
    rw [cancelTimers_conn]
    exact ⟨_, _, _, _, rfl⟩
  cases pv with
  | v311Connack p =>
    refine ⟨_, rfl, ⟨?_⟩, rfl⟩
    have haccepts : (PacketVariant.v311Connack p : PacketVariant pb).acceptsConnection =
        decide (p.code = 0) := Bool.true_and _
    rw [haccepts]
    change ∃ int a b d, (c.sendConnackV311 p).conn = _
    unfold sendConnackV311
    split
    · next hcode =>
      rw [decide_eq_true hcode]
      exact ⟨_, _, _, _, rfl⟩
    · next hcode =>
      rw [decide_eq_false hcode]
      exact hrefused
  | v5Connack p =>
    have hlimits : PacketVariant.NoLimits p.props := hp.handshake (.inr rfl)
    refine ⟨_, rfl, ⟨?_⟩, rfl⟩
    have haccepts : (PacketVariant.v5Connack p : PacketVariant pb).acceptsConnection =
        decide (p.code = 0) := Bool.true_and _
    rw [haccepts]
    change ∃ int a b d, (c.sendConnackV5 p).conn = _
    unfold sendConnackV5
    split
    · next hcode =>
      have hcode : p.code = 0 := hcode
      rw [decide_eq_true hcode, sendConnackProps_noLimits hlimits]
      exact ⟨_, _, _, _, rfl⟩
    · next hcode =>
      have hcode : ¬ p.code = 0 := hcode
      rw [decide_eq_false hcode]
      exact hrefused
  | _ => cases htype

/-- A CONNACK is followed by all that is kept. -/
theorem sendConnack_turn (h : c.Unlimited ver) (hp : pv.Plain ver) (htype : pv.type = .connack)
    (hpass : c.passesChecks pv) :
    (c.send pv).conn.Unlimited ver ∧ (c.send pv).traffic = { c.idle with outgoings := c.kept } ∧
      sends (c.send pv).events = pv :: c.resent ∧
      (c.send pv).conn.status = if pv.acceptsConnection then .connected else .disconnected := by
  obtain ⟨hallowed, hsize⟩ := Bool.and_eq_true_iff.mp hpass
  have hstatus : c.status = .connecting := by
    have hst := (Bool.and_eq_true_iff.mp (Bool.and_eq_true_iff.mp hallowed).1).2
    rw [htype] at hst
    exact of_decide_eq_true hst
  obtain ⟨c', hconn, ha, hok⟩ := sendConnack_answered (c := c) hp htype
  have h' := ha.unlimited h (by rw [hstatus]; exact ConnectionStatus.noConfusion)
  -- the stored packets follow the CONNACK, and none of them is too large
  have hq : Quiet c' (c.send pv).conn := by
    rw [send_of_allowed hallowed hsize, if_pos hok, if_pos htype]
    simp only [Step.conn_andThen, hconn, sendStored_fit fun e he =>
      (h'.stored e he).1.trans (Nat.le_of_eq h'.maximumPacketSizeSend.symm)]
    exact quiet_resetPingreqSend c'
  obtain ⟨hline, hsends⟩ := send_line (by rw [htype]; exact ControlPacketType.noConfusion) hpass
  rw [if_pos htype, storedFit_eq h (Nat.le_of_eq h.maximumPacketSizeSend.symm)] at hsends
  refine ⟨h'.quiet hq, ?_, hsends, ?_⟩
  · have hone : outgoings (pv :: c.resent) = c.kept ∧ replies (pv :: c.resent) = [] := by
      obtain ⟨hout, hreplies⟩ := c.outgoings_resent
      constructor
      · rw [outgoings, List.filterMap_cons, PacketVariant.outgoing?, htype]
        exact hout
      · rw [replies, List.filterMap_cons, PacketVariant.reply?, htype]
        exact hreplies
    rw [hq.traffic, hsends, hone.1, hone.2, deliveries, receives_send, ha.idle.1]
    rfl
  · have hst := congrArg Line.status hline
    rw [Line.afterSend, htype] at hst
    dsimp only at hst
    split at hst
    · next haccepts =>
      rw [if_pos haccepts]
      exact hst
    · next haccepts =>
      rw [if_neg haccepts]
      exact hst

/-- A CONNACK that does not accept the connection changes nothing. -/
theorem recvConnack_refused (h : c.Unlimited ver) (htype : pv.type = .connack)
    (hnot : ¬ (pv.acceptsConnection ∧ c.status = .connecting)) :
    Aside ver c (c.processRecvDecoded pv) ∧ (c.processRecvDecoded pv).conn.status = c.status := by
  unfold processRecvDecoded
  split
  · next hallowed =>
    have hstatus : c.status = .connecting := by
      rw [recvAllowed, htype] at hallowed
      exact of_decide_eq_true hallowed
    have hactual : c.processRecvActual pv = ⟨c, [.receive pv]⟩ := by
      -- the reason code refuses the connection, so that the packet is only handed over
      cases pv with
      | v311Connack p =>
        have hcode : ¬ p.code = 0 := fun hcode =>
          hnot ⟨(Bool.true_and _).trans (decide_eq_true hcode), hstatus⟩
        rw [processRecvActual, recvConnackV311, if_neg hcode]
        rfl
      | v5Connack p =>
        have hcode : ¬ p.code = ConnectReasonCode.success := fun hcode =>
          hnot ⟨(Bool.true_and _).trans (decide_eq_true hcode), hstatus⟩
        rw [processRecvActual, recvConnackV5, if_neg hcode]
        rfl
      | _ => cases htype
    have hout : pv.outgoing? = none := by rw [PacketVariant.outgoing?, htype]
    rw [hactual]
    refine ⟨aside_of_quiet h (Quiet.refl c) (fun r hr => by cases hr) ?_, rfl⟩
    change messages (outgoings [pv]) = []
    rw [outgoings, List.filterMap_cons, hout]
    rfl
  · exact ⟨aside_stay h rfl rfl, rfl⟩

/-- A CONNACK that accepts answers the CONNECT, resumes the session and is handed over. -/
theorem recvConnack_answered (hp : pv.Plain ver) (haccepts : pv.acceptsConnection) :
    ∃ c', Answered c c' true ∧
      (c.processRecvActual pv).conn = (c'.resumeSession pv.view.sessionPresent).conn ∧
      sends (c.processRecvActual pv).events =
        sends (c'.resumeSession pv.view.sessionPresent).events ∧
      receives (c.processRecvActual pv).events = [pv] := by
  have hresume : ∀ (present : Bool) (c' : Connection role pb),
      receives (c'.resumeSession present).events = [] := by
    intro present c'
    rw [← receives_signals, signals_resumeSession]
    rfl
  -- the reason code accepts in both versions
  cases pv with
  | v311Connack p =>
    have hcode : p.code = 0 := of_decide_eq_true haccepts
    have hactual : c.processRecvActual (.v311Connack p) =
        (({ c with status := .connected } : Connection role pb).resumeSession p.sessionPresent).emit
          (.receive (.v311Connack p)) := by
      rw [processRecvActual, recvConnackV311, if_pos hcode]
    refine ⟨{ c with status := .connected }, ⟨_, _, _, _, rfl⟩, ?_, ?_, ?_⟩
    · rw [hactual]
      rfl
    · rw [hactual, Step.events_emit, sends_append]
      exact List.append_nil _
    · rw [hactual, Step.events_emit, receives_append, hresume]
      rfl
  -- the properties of a v5 CONNACK are handled before the session is resumed
  | v5Connack p =>
    have hcode : p.code = ConnectReasonCode.success := of_decide_eq_true haccepts
    have hlimits : PacketVariant.NoLimits p.props := hp.handshake (.inr rfl)
    generalize hprops : recvConnackProps p.props
      ({ c with status := .connected } : Connection role pb) = t
    have hactual : c.processRecvActual (.v5Connack p) =
        (t.andThen (resumeSession p.sessionPresent)).emit (.receive (.v5Connack p)) := by
      rw [processRecvActual, recvConnackV5, if_pos hcode, hprops]
    have ht : sends t.events = [] ∧ receives t.events = [] := by
      rw [← hprops, ← receives_signals, signals_recvConnackProps]
      exact ⟨sends_recvConnackProps _ _, rfl⟩
    obtain ⟨int, set, hconn⟩ := recvConnackProps_noLimits hlimits
      ({ c with status := .connected } : Connection role pb)
    rw [hprops] at hconn
    refine ⟨t.conn, ⟨int, set, _, _, hconn⟩, ?_, ?_, ?_⟩
    · rw [hactual]
      rfl
    · rw [hactual, Step.events_emit, Step.events_andThen, sends_append, sends_append, ht.1]
      exact List.append_nil _
    · rw [hactual, Step.events_emit, Step.events_andThen, receives_append, receives_append, ht.2,
        hresume]
      rfl
  | _ => cases haccepts

/-- A CONNACK that accepts the connection lets the client send all that it keeps. -/
theorem recvConnack_turn (h : c.Unlimited ver) (hp : pv.Plain ver) (haccepts : pv.acceptsConnection)
    (hstatus : c.status = .connecting) (hsession : ¬ pv.view.sessionPresent → c.store.elems = []) :
    (c.processRecvDecoded pv).conn.Unlimited ver ∧
      (∀ r ∈ sends (c.processRecvDecoded pv).events, r.Plain ver ∧ ¬ r.isHandshake) ∧
      (c.processRecvDecoded pv).traffic = { c.idle with outgoings := c.kept } ∧
      (c.processRecvDecoded pv).conn.status = .connected := by
  have htype : pv.type = .connack := of_decide_eq_true (Bool.and_eq_true_iff.mp haccepts).1
  have hallowed : c.recvAllowed pv = true := by
    rw [recvAllowed, htype]
    exact decide_eq_true hstatus
  rw [processRecvDecoded, if_pos hallowed]
  obtain ⟨c', ha, hconn, hsends, hreceives⟩ := recvConnack_answered (c := c) hp haccepts
  have h' := ha.unlimited h (by rw [hstatus]; exact ConnectionStatus.noConfusion)
  have hdeliveries : deliveries (c.processRecvActual pv).events = [] := by
    have hout : pv.outgoing? = none := by rw [PacketVariant.outgoing?, htype]
    rw [deliveries, hreceives, outgoings, List.filterMap_cons, hout]
    rfl
  rw [(resumeSession_line _ c').2] at hsends
  by_cases hpresent : pv.view.sessionPresent = true
  · -- the client goes on with its session
    rw [if_pos hpresent, storedFit_eq h' (Nat.le_of_eq h'.maximumPacketSizeSend.symm),
      ha.idle.2] at hsends
    rw [resumeSession, if_pos hpresent, sendStored_fit fun e he =>
      (h'.stored e he).1.trans (Nat.le_of_eq h'.maximumPacketSizeSend.symm)] at hconn
    refine ⟨hconn ▸ h', hsends ▸ resent_plain h, ?_, ?_⟩
    · have hidle := ha.idle.1
      have hkept : c'.kept = c.kept := congrArg Traffic.kept hidle
      have hhandled : c'.handled = c.handled := congrArg Traffic.handled hidle
      rw [Step.traffic, hconn, hsends, hdeliveries, (outgoings_resent c).1, (outgoings_resent c).2,
        hkept, hhandled]
      rfl
    · rw [hconn, ha.status]
      rfl
  · -- nothing was kept
    rw [if_neg hpresent] at hsends
    rw [resumeSession, if_neg hpresent] at hconn
    have hnone := hsession hpresent
    have hkept : c.kept = [] := by rw [kept, hnone]; rfl
    have hclear : (c'.clearSession).Unlimited ver := by
      refine { h' with
        unstarted := fun hns => ?_
        connecting := h'.connecting
        stored := fun e he => by cases he }
      exact ⟨rfl, (h'.unstarted hns).2⟩
    refine ⟨hconn ▸ hclear, fun r hr => ?_, ?_, ?_⟩
    · rw [hsends] at hr
      cases hr
    · have hhandled : c'.handled = c.handled := congrArg Traffic.handled ha.idle.1
      rw [Step.traffic, hconn, hsends, hdeliveries, hkept, idle, hkept]
      exact congrArg (fun f => Traffic.mk [] f [] [] []) hhandled
    · rw [hconn]
      exact ha.status

end Connection

end AsyncMqtt
