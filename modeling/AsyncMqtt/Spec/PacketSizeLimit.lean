import AsyncMqtt.Spec.Line
import AsyncMqtt.Spec.WireCorrect

/-!
# The maximum packet size of the peer

A v5.0 peer may announce a maximum packet size, a server in its CONNACK and a client in
its CONNECT. From then on, until the network connection is closed, no packet above it
should be sent.

`send` checks the size of the packet that it is given. A PUBLISH that gets a topic alias
automatically is changed after this check, and it can become longer: the alias takes three
bytes, the length fields may take one more each, and a topic that is replaced may be
shorter than that.

## Key results

- `Connection.sends_fit`: the packets of one call are within the limit
- `Connection.sent_within_limit`: in a run in which every PUBLISH still fits with its alias,
  everything that is sent fits
- `Connection.sent_above_limit`: a PUBLISH of 8 bytes for a peer that accepts 8 bytes goes
  out with 11
-/

namespace AsyncMqtt

namespace V5.PublishPacket

variable {pb : PacketIdBytes}

/-- `size()` after a topic alias was added and the topic has become shorter. -/
def sizeWithAlias (topicRemoved : Nat) (p : PublishPacket pb) : Nat :=
  let remainingLength := p.remainingLength + 3 +
    (valToVariableBytes (p.propertyLength + 3)).length -
    (p.propertyLengthBuf.length + topicRemoved)
  1 + (valToVariableBytes remainingLength).length + remainingLength

theorem size_append_topicAlias (props : Properties) (ta : Nat) :
    Properties.size (props ++ [.topicAlias ta]) = Properties.size props + 3 := by
  simp [Properties.size, Property.topicAlias, Property.size, length_endianStore]

/-- The size after a topic alias was added by `update`. -/
theorem size_update_topicAlias (topic : Buffer) (ta topicRemoved : Nat) (p : PublishPacket pb)
    (htopic : topic.length + topicRemoved = p.topicName.length) :
    (p.update topic (p.props ++ [.topicAlias ta])).size = p.sizeWithAlias topicRemoved := by
  have hprops := size_append_topicAlias p.props ta
  have hlength : p.propertyLength + (Properties.size p.props + 3) - Properties.size p.props =
      p.propertyLength + 3 := by omega
  simp only [size, update, sizeWithAlias, hprops, hlength]
  generalize (valToVariableBytes (p.propertyLength + 3)).length = propertyLengthSize
  have hremaining : p.remainingLength + (Properties.size p.props + 3) + propertyLengthSize +
      topic.length - (Properties.size p.props + p.propertyLengthBuf.length + p.topicName.length) =
      p.remainingLength + 3 + propertyLengthSize -
        (p.propertyLengthBuf.length + topicRemoved) := by omega
  rw [hremaining]

theorem size_addTopicAlias (ta : Nat) (p : PublishPacket pb) :
    (p.addTopicAlias ta).size = p.sizeWithAlias 0 :=
  size_update_topicAlias p.topicName ta 0 p rfl

theorem size_removeTopicAddTopicAlias (ta : Nat) (p : PublishPacket pb) :
    (p.removeTopicAddTopicAlias ta).size = p.sizeWithAlias p.topic.length :=
  size_update_topicAlias [] ta p.topic.length p (Nat.zero_add _)

end V5.PublishPacket

theorem StorePacketVariant.size_toPacketVariant {pb : PacketIdBytes}
    (e : StorePacketVariant pb) : e.packet.toPacketVariant.size = e.size := by
  unfold size
  cases e.packet <;> rfl

/-- The maximum packet size that a CONNECT or CONNACK announces. -/
def PacketVariant.announcedSize {pb : PacketIdBytes} (pv : PacketVariant pb) : Option Nat :=
  Connection.lastVal .maximumPacketSize some none pv.view.props

theorem PacketVariant.maximumPacketSize_eq {pb : PacketIdBytes} (pv : PacketVariant pb)
    (n : Nat) : pv.maximumPacketSize n = pv.announcedSize.getD n := by
  have hprops : ∀ (props : Properties) (m : Option Nat),
      Connection.lastVal .maximumPacketSize (fun n => n) (m.getD n) props =
        (Connection.lastVal .maximumPacketSize some m props).getD n := by
    intro props
    induction props with
    | nil => exact fun _ => rfl
    | cons prop props ih =>
      intro m
      simp only [Connection.lastVal, List.foldl_cons]
      split
      · exact ih (some prop.val)
      · exact ih m
  exact hprops pv.view.props none

namespace Connection

variable {role : Role} {pb : PacketIdBytes}

/-- A PUBLISH that gets a topic alias automatically, and how much of its topic it loses. -/
def autoAliased (c : Connection role pb) (p : V5.PublishPacket pb) : Option Nat :=
  if p.topic ≠ [] ∧ getTopicAlias p.props = none ∧ c.status = .connected then
    match c.topicAliasSend with
    | none => none
    | some tas =>
      if (tas.findAlias p.topic).isSome then
        if c.autoMapTopicAliasSend || c.autoReplaceTopicAliasSend then some p.topic.length
        else none
      else if c.autoMapTopicAliasSend then some 0 else none
  else none

/-- A PUBLISH that passes all checks of `send` and gets a topic alias automatically is
    within the maximum packet size of the peer with it. -/
def KeepsSize (c : Connection role pb) (op : Op pb) : Prop :=
  ∀ p topicRemoved, op = .send (.v5Publish p) → c.passesChecks (.v5Publish p) →
    (isQos12 p.opts → c.publishEnters (.v5Publish p) ∧ ¬ c.publishFailsLate (.v5Publish p)) →
    c.autoAliased p = some topicRemoved → p.sizeWithAlias topicRemoved ≤ c.maximumPacketSizeSend

/-- The peer announces its maximum packet size, in a CONNECT or in a CONNACK that accepts
    the connection. -/
def Announces (m : Nat) (c : Connection role pb) (op : Op pb) : Prop :=
  ∃ is pv, op = .recv is ∧ c.received is = some pv ∧ pv.announcedSize = some m ∧
    (pv.type = .connect ∧ c.status = .disconnected ∨ c.acceptsConnack pv)

section

variable {c : Connection role pb}

/-! ### Topic aliases -/

/-- The size of the PUBLISH that goes out. -/
theorem size_aliasApplied (c : Connection role pb) (p : V5.PublishPacket pb) :
    (c.aliasApplied p).2.size = match c.autoAliased p with
      | some topicRemoved => p.sizeWithAlias topicRemoved
      | none => p.size := by
  unfold aliasApplied autoAliased
  by_cases htopic : p.topic = []
  · rw [if_pos htopic, if_neg fun h => h.1 htopic]
  · rw [if_neg htopic]
    cases halias : getTopicAlias p.props with
    | some ta => simp
    | none =>
      by_cases hstatus : c.status = .connected
      · simp only [htopic, hstatus, ne_eq, not_false_eq_true, and_self, if_true]
        unfold autoTopicAlias
        cases c.topicAliasSend with
        | none => rfl
        | some tas =>
          dsimp only
          cases tas.findAlias p.topic <;> cases c.autoMapTopicAliasSend <;>
            cases c.autoReplaceTopicAliasSend <;>
            simp [V5.PublishPacket.size_addTopicAlias,
              V5.PublishPacket.size_removeTopicAddTopicAlias]
      · simp only [hstatus, and_false, if_false]

/-- A PUBLISH with QoS 1 or 2 that is sent has passed the later checks. -/
theorem enters_of_sends {p : V5.PublishPacket pb}
    (h : sends (c.send (.v5Publish p)).events ≠ []) (hqos : isQos12 p.opts) :
    c.publishEnters (.v5Publish p) ∧ ¬ c.publishFailsLate (.v5Publish p) := by
  have hpass : c.passesChecks (.v5Publish p) := by
    by_contra hnot
    exact h (send_line_refused hnot).2
  obtain ⟨hallowed, hsize⟩ := Bool.and_eq_true_iff.mp hpass
  -- what is sent is sent by the processing of the packet
  have hactual : sends (c.sendPublishV5 p).step.events ≠ [] := by
    intro hnil
    apply h
    have hconnack : (PacketVariant.v5Publish p).type ≠ .connack := nofun
    rw [send_of_allowed hallowed hsize, if_neg hconnack]
    split
    · rw [Step.events_andThen, sends_append, sends_resetPingreqSend, List.append_nil]
      exact hnil
    · exact hnil
  -- of the outcomes only an entered PUBLISH is sent
  cases c.sendPublishV5_outcome p with
  | stopped henters hs =>
    refine absurd ?_ hactual
    rcases (hs.line (.v5Publish p)).2 with hnil | ⟨-, hsent⟩
    · exact hnil
    · obtain ⟨release, he⟩ := mem_sends.mp (hsent ▸ List.mem_singleton_self _)
      rcases hs.events _ he with ⟨ec, h⟩ | h | ⟨x, h⟩ <;> exact nomatch h
  | plain hnot => exact absurd hqos hnot
  | failed hlate ec hc₁ hr =>
    refine absurd ?_ hactual
    rw [hr]
    exact (failRelease_line _ _ _).2
  | entered henters hlate => exact ⟨henters, hlate⟩

/-! ### One call -/

/-- The packets of a call are within the limit, and so are the stored ones. -/
theorem storedFit_fits {limit : Nat} : ∀ pv ∈ c.storedFit limit, pv.size ≤ limit := by
  intro pv hpv
  obtain ⟨e, -, hsize, rfl⟩ := mem_storedFit.mp hpv
  rw [e.size_toPacketVariant]
  exact hsize

theorem afterSend_limit (l : Line) (pv : PacketVariant pb) :
    (l.afterSend pv).maximumPacketSizeSend = l.maximumPacketSizeSend := by
  unfold Line.afterSend
  split <;> (try split) <;> rfl

/-- A packet that is not a PUBLISH is sent as it was checked. -/
theorem send_fits {pv : PacketVariant pb} (htype : pv.type ≠ .publish) (c : Connection role pb) :
    (c.send pv).conn.maximumPacketSizeSend = c.maximumPacketSizeSend ∧
      ∀ pv' ∈ sends (c.send pv).events, pv'.size ≤ c.maximumPacketSizeSend := by
  by_cases hpass : c.passesChecks pv = true
  · obtain ⟨hline, hsends⟩ := send_line htype hpass
    refine ⟨?_, ?_⟩
    · exact (congrArg Line.maximumPacketSizeSend hline).trans (afterSend_limit c.line pv)
    · intro pv' hpv'
      have hsize : pv.size ≤ c.maximumPacketSizeSend :=
        of_decide_eq_true (Bool.and_eq_true_iff.mp hpass).2
      rw [hsends] at hpv'
      rcases List.mem_cons.mp hpv' with rfl | hstored
      · exact hsize
      · split at hstored
        · exact storedFit_fits pv' hstored
        · exact nomatch hstored
  · obtain ⟨hline, hsends⟩ := send_line_refused hpass
    refine ⟨congrArg Line.maximumPacketSizeSend hline, ?_⟩
    rw [hsends]
    exact nofun

/-- A PUBLISH is sent as it was checked, or with a topic alias. -/
theorem sendPublish_fits {pv : PacketVariant pb} (htype : pv.type = .publish)
    (hok : c.KeepsSize (.send pv)) :
    (c.send pv).conn.maximumPacketSizeSend = c.maximumPacketSizeSend ∧
      ∀ pv' ∈ sends (c.send pv).events, pv'.size ≤ c.maximumPacketSizeSend := by
  obtain ⟨hline, hsends⟩ := send_line_publish htype (c := c)
  refine ⟨congrArg Line.maximumPacketSizeSend hline, fun pv' hpv' => ?_⟩
  rcases hsends with hsends | ⟨hstatus, hpass, hsends⟩
  · rw [hsends] at hpv'
    exact nomatch hpv'
  · have hsize : pv.size ≤ c.maximumPacketSizeSend :=
      of_decide_eq_true (Bool.and_eq_true_iff.mp hpass).2
    have hne : sends (c.send pv).events ≠ [] := by
      rw [hsends]
      exact List.cons_ne_nil _ _
    rw [hsends] at hpv'
    obtain rfl := List.mem_singleton.mp hpv'
    cases pv with
    | v311Publish p => exact hsize
    | v5Publish p =>
      show (c.aliasApplied p).2.size ≤ c.maximumPacketSizeSend
      rw [size_aliasApplied]
      cases hauto : c.autoAliased p with
      | none => exact hsize
      | some topicRemoved => exact hok p topicRemoved rfl hpass (enters_of_sends hne) hauto
    | _ => exact nomatch htype

theorem Answer.fits {l : Line} {stored : List (PacketVariant pb)} {s : Step role pb}
    (h : Answer l stored s) (hstored : ∀ pv ∈ stored, pv.size ≤ l.maximumPacketSizeSend) :
    s.conn.maximumPacketSizeSend = l.maximumPacketSizeSend ∧
      ∀ pv ∈ sends s.events, pv.size ≤ l.maximumPacketSizeSend := by
  cases h with
  | silent hline hsends =>
    rw [hsends]
    exact ⟨congrArg Line.maximumPacketSizeSend hline, hstored⟩
  | sent c₁ r hc₁ hr hline hsends =>
    have htype : r.type ≠ .publish := by
      intro htype
      simp [PacketVariant.isAnswer, htype] at hr
    have hlimit : c₁.maximumPacketSizeSend = l.maximumPacketSizeSend :=
      congrArg Line.maximumPacketSizeSend hc₁
    obtain ⟨hsame, hfits⟩ := send_fits htype c₁
    rw [hsends, ← hlimit]
    exact ⟨(congrArg Line.maximumPacketSizeSend hline).trans hsame, hfits⟩

/-- The limit after a packet was received. -/
theorem lineAfterRecv_limit (c : Connection role pb) (pv : PacketVariant pb) :
    (c.lineAfterRecv pv).maximumPacketSizeSend =
      if pv.type = .connect ∧ c.status = .disconnected ∨ c.acceptsConnack pv then
        pv.announcedSize.getD c.maximumPacketSizeSend
      else c.maximumPacketSizeSend := by
  have hnot : pv.type ≠ .connack → c.acceptsConnack pv = false := by
    intro htype
    simp [acceptsConnack, PacketVariant.acceptsConnection, htype]
  unfold lineAfterRecv
  simp only [← PacketVariant.maximumPacketSize_eq]
  -- only CONNECT and an accepted CONNACK announce a size
  cases htype : pv.type with
  | connect =>
    rw [hnot (by rw [htype]; rintro ⟨⟩)]
    dsimp only
    split
    · next hstatus => simp [hstatus]
    · next hstatus => simp [hstatus, line]
  | connack =>
    dsimp only
    split
    · next haccepts => simp [haccepts]
    · next haccepts => simp [haccepts, line]
  | disconnect | publish =>
    rw [hnot (by rw [htype]; rintro ⟨⟩)]
    dsimp only
    split <;> simp [line]
  | _ =>
    rw [hnot (by rw [htype]; rintro ⟨⟩)]
    simp [line]

theorem recvLine_limit (is : List UInt8) (c : Connection role pb) :
    (c.recvLine is).maximumPacketSizeSend =
      match c.received is with
      | some pv =>
        if pv.type = .connect ∧ c.status = .disconnected ∨ c.acceptsConnack pv then
          pv.announcedSize.getD c.maximumPacketSizeSend
        else c.maximumPacketSizeSend
      | none => c.maximumPacketSizeSend := by
  unfold recvLine
  cases c.received is with
  | some pv => exact lineAfterRecv_limit c pv
  | none =>
    dsimp only
    split <;> rfl

/-- `recv` sends within the limit that holds after the packet. -/
theorem recv_fits (is : List UInt8) (c : Connection role pb) :
    (c.recv is).1.conn.maximumPacketSizeSend = (c.recvLine is).maximumPacketSizeSend ∧
      ∀ pv ∈ sends (c.recv is).1.events, pv.size ≤ (c.recvLine is).maximumPacketSizeSend := by
  rcases recv_line is c with h | ⟨value, c₁, hvalue, hc₁, hs⟩
  · apply h.fits
    intro pv hpv
    unfold recvResumed at hpv
    -- the stored packets that follow a CONNACK fit its limit
    cases hreceived : c.received is with
    | none =>
      rw [hreceived] at hpv
      exact nomatch hpv
    | some pv' =>
      rw [hreceived] at hpv
      dsimp only at hpv
      unfold resumed at hpv
      split at hpv
      · next haccepts =>
        rw [recvLine_limit, hreceived]
        dsimp only
        rw [if_pos (.inr haccepts.1), ← PacketVariant.maximumPacketSize_eq]
        exact storedFit_fits pv hpv
      · exact nomatch hpv
  · -- a CONNECT that cannot be decoded changes no limit
    have htype : (c.refusal value).type ≠ .publish := by
      rw [c.refusal_type]
      exact nofun
    have hlimit : c₁.maximumPacketSizeSend = (c.recvLine is).maximumPacketSizeSend := by
      rw [recvLine_limit, received_of_refused hvalue, hc₁]
    obtain ⟨hsame, hfits⟩ := send_fits htype c₁
    rw [hs, Step.conn_emit, Step.events_emit, sends_append, ← hlimit]
    exact ⟨hsame, fun pv hpv => hfits pv ((List.mem_append.mp hpv).resolve_right nofun)⟩

/-- The packets of a call are within the limit that holds after it. -/
theorem sends_fit {op : Op pb} (hok : c.KeepsSize op) :
    ∀ pv ∈ sends (c.call op).events, pv.size ≤ (c.next op).maximumPacketSizeSend := by
  have hsilent : sends (c.call op).events = [] →
      ∀ pv ∈ sends (c.call op).events, pv.size ≤ (c.next op).maximumPacketSizeSend := by
    intro hnil
    rw [hnil]
    exact nofun
  have hlocal : op.isLocal →
      ∀ pv ∈ sends (c.call op).events, pv.size ≤ (c.next op).maximumPacketSizeSend :=
    fun h => hsilent (call_line_local h c).2
  -- the calls that send something
  cases op with
  | send pv =>
    have h : (c.send pv).conn.maximumPacketSizeSend = c.maximumPacketSizeSend ∧
        ∀ pv' ∈ sends (c.send pv).events, pv'.size ≤ c.maximumPacketSizeSend := by
      by_cases htype : pv.type = .publish
      · exact sendPublish_fits htype hok
      · exact send_fits htype c
    show ∀ pv' ∈ sends (c.send pv).events, pv'.size ≤ (c.send pv).conn.maximumPacketSizeSend
    rw [h.1]
    exact h.2
  | recv is =>
    obtain ⟨hsame, hfits⟩ := recv_fits is c
    show ∀ pv ∈ sends (c.recv is).1.events, pv.size ≤ (c.recv is).1.conn.maximumPacketSizeSend
    rw [hsame]
    exact hfits
  | notifyTimerFired kind =>
    obtain ⟨hsame, hfits⟩ := (c.notifyTimerFired_line kind).fits nofun
    show ∀ pv ∈ sends (c.notifyTimerFired kind).events,
      pv.size ≤ (c.notifyTimerFired kind).conn.maximumPacketSizeSend
    rw [hsame]
    exact hfits
  | notifyClosed => exact hsilent c.notifyClosed_line.2
  | _ => exact hlocal rfl

/-- The limit changes only when it is announced and when the connection is closed. -/
theorem next_limit {op : Op pb} (hclosed : op ≠ .notifyClosed)
    (hannounces : ∀ m, ¬ Announces m c op) :
    (c.next op).maximumPacketSizeSend = c.maximumPacketSizeSend := by
  have hlocal : op.isLocal → (c.next op).maximumPacketSizeSend = c.maximumPacketSizeSend :=
    fun h => congrArg Line.maximumPacketSizeSend (call_line_local h c).1
  cases op with
  | send pv =>
    by_cases htype : pv.type = .publish
    · exact congrArg Line.maximumPacketSizeSend (send_line_publish htype).1
    · exact (send_fits htype c).1
  | recv is =>
    show (c.recv is).1.conn.maximumPacketSizeSend = c.maximumPacketSizeSend
    rw [(recv_fits is c).1, recvLine_limit]
    cases hpv : c.received is with
    | none => rfl
    | some pv =>
      dsimp only
      split
      · next hwhen =>
        cases hsize : pv.announcedSize with
        | none => rfl
        | some m => exact absurd ⟨is, pv, rfl, hpv, hsize, hwhen⟩ (hannounces m)
      · rfl
  | notifyTimerFired kind => exact ((c.notifyTimerFired_line kind).fits nofun).1
  | notifyClosed => exact absurd rfl hclosed
  | _ => exact hlocal rfl

theorem Announces.limit {op : Op pb} {m : Nat} (h : Announces m c op) :
    (c.next op).maximumPacketSizeSend = m := by
  obtain ⟨is, pv, rfl, hpv, hsize, hwhen⟩ := h
  show (c.recv is).1.conn.maximumPacketSizeSend = m
  rw [(recv_fits is c).1, recvLine_limit, hpv]
  dsimp only
  rw [if_pos hwhen, hsize]
  rfl

end

/-! ### Runs -/

/-- In every run in which each PUBLISH still fits when it has got its topic alias: once the
    peer has announced its maximum packet size, every packet that is sent is within it, until
    the network connection is closed or the peer announces another size. -/
theorem sent_within_limit (ver : ProtocolVersion) (ops : List (Op pb))
    (hok : Run.All next KeepsSize (make role pb ver) ops) {j k m : Nat} (hjk : j ≤ k)
    {op op' : Op pb} (hj : ops[j]? = some op)
    (hannounced : Announces m ((make role pb ver).run (ops.take j)) op)
    (hk : ops[k]? = some op')
    (hbetween : ∀ i a, j < i → i ≤ k → ops[i]? = some a → a ≠ .notifyClosed ∧
      ∀ m', ¬ Announces m' ((make role pb ver).run (ops.take i)) a) :
    ∀ pv ∈ sends (((make role pb ver).run (ops.take k)).call op').events, pv.size ≤ m := by
  have hklt : k < ops.length := (List.getElem?_eq_some_iff.mp hk).1
  have hknown : (Run.final next (make role pb ver) (ops.take (j + 1))).maximumPacketSizeSend =
      m := by
    rw [Run.final_take_succ next hj]
    exact hannounced.limit
  -- the limit stays what it was after the announcement
  have hlimit : (Run.final next (make role pb ver) (ops.take (k + 1))).maximumPacketSizeSend =
      m := by
    have hle : j + 1 ≤ k + 1 := Nat.succ_le_succ hjk
    refine Run.invariant_between
      (Q := fun c : Connection role pb => c.maximumPacketSizeSend = m) hle hklt
      (fun i a hi hik ha hm => ?_) hknown
    obtain ⟨hclosed, hother⟩ := hbetween i a (by omega) (by omega) ha
    exact (next_limit hclosed hother).trans hm
  rw [Run.final_take_succ next hk] at hlimit
  intro pv hpv
  have hfits := sends_fit (hok k op' hk) pv hpv
  rwa [← hlimit]

/-- A server whose client accepts packets of up to 8 bytes sends a PUBLISH of 8 bytes. -/
theorem sent_within_limit_publish :
    ∃ p, V5.publishPacket .two 0 [0x61] [[0x62, 0x63]] 0 [] = .ok p ∧
      let ops : List (Op .two) :=
        [.recv [0x10, 0x12, 0, 4, 0x4D, 0x51, 0x54, 0x54, 5, 2, 0, 10, 5, 0x27, 0, 0, 0, 8, 0, 0],
          .send (.v5Connack (V5.connackOf false 0)), .send (.v5Publish p)]
      ∀ pv ∈ sends (((make .server .two .v5).run (ops.take 2)).call (.send (.v5Publish p))).events,
        pv.size ≤ 8 := by
  refine ⟨_, rfl, sent_within_limit .v5 _ ?_ (j := 0) (k := 2) (by decide) rfl ?_ rfl ?_⟩
  · simp only [Run.all_cons, Run.all_nil, and_true]
    refine ⟨nofun, nofun, ?_⟩
    rintro p topicRemoved hp - - hauto
    obtain rfl := PacketVariant.v5Publish.inj (Op.send.inj hp)
    exact nomatch hauto
  · exact ⟨_, _, rfl, rfl, by decide, .inl (by decide)⟩
  · intro i a hi hik ha
    have hcases : i = 1 ∨ i = 2 := by omega
    rcases hcases with rfl | rfl <;>
    · obtain rfl := Option.some.inj ha
      exact ⟨nofun, fun m' ⟨_, _, hrecv, _⟩ => nomatch hrecv⟩

/-- A client that uses topic aliases automatically, and a server that accepts packets of up
    to 8 bytes: a PUBLISH of 8 bytes goes out with 11. -/
theorem sent_above_limit :
    ∃ p q, V5.connectPacket true 0 [] none none none [] = .ok p ∧
      V5.publishPacket .two 0 [0x61] [[0x62, 0x63]] 0 [] = .ok q ∧
      let connack : List UInt8 := [0x20, 0x0B, 0, 0, 8, 0x27, 0, 0, 0, 8, 0x22, 0, 10]
      let c := (make .client .two .v5).run
        [.setAutoMapTopicAliasSend true, .send (.v5Connect p), .recv connack]
      Announces 8 ((make .client .two .v5).run [.setAutoMapTopicAliasSend true, .send (.v5Connect p)])
        (.recv connack) ∧
      q.size = 8 ∧ (sends (c.call (.send (.v5Publish q))).events).map PacketVariant.size = [11] := by
  refine ⟨_, _, rfl, rfl, ?_, by decide, by decide⟩
  exact ⟨_, _, rfl, rfl, by decide, .inr (by decide)⟩

end Connection

end AsyncMqtt
