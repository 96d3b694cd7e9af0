import AsyncMqtt.ForStd.Run
import AsyncMqtt.Spec.InflightStore

/-!
# Resumed inflight messages

Runs of a session over any number of connections, beside what the client has not acknowledged: the
PUBLISH and PUBREL packets that were sent, in the order in which they were first sent, without those
whose exchange has ended. An inflight message that is left behind by `pubrec_handler`, and one whose
identifier is taken while it is not in use, break the correspondence.

## Key results

- `InflightSession.Holds.perform`: what one event does
- `InflightSession.resumes_unacked`: what is sent when a session is resumed
- `InflightSession.refused_message_resent`: the run in which a PUBLISH is sent again that the client
  has refused
-/

namespace AsyncMqtt

open Connection (resendOf isAck Tidy Resends Acknowledged)

/-- The identifier is that of no inflight message. -/
def InflightMessages.isFree (m : InflightMessages) (packetId : Nat) : Bool :=
  packetId ∉ m.elems.map StorePacketVariant.packetId

namespace InflightSession

/-! ### What is not acknowledged -/

/-- What the client and the broker send to each other: a packet is sent for the first time, a packet
    is received, and the connection ends. -/
inductive Obs where
  | sent (pv : PacketVariant .two)
  | received (pv : PacketVariant .two)
  | ended

/-- The packets that were sent and are not acknowledged, and those that were not when the last
    connection ended. -/
structure Exchanges where
  unacked : List (StorePacketVariant .two)
  ended : List (StorePacketVariant .two)

namespace Exchanges

/-- A PUBREC ends the stay of the PUBLISH, and a PUBREL takes its place when it is sent. -/
def after (h : Exchanges) : Obs → Exchanges
  | .sent pv => { h with unacked := h.unacked ++ (resendOf pv).toList }
  | .received pv =>
    if isAck pv.type then
      { h with unacked := h.unacked.filter fun e => e.packetId ≠ pv.packetId }
    else h
  | .ended => { h with ended := h.unacked }

end Exchanges

/-- The PUBREL that `pubrec_handler` sends -/
def observeAnswer (pubrelProps : Properties) (pv : PacketVariant .two)
    (c : Connection .server .two) : List Obs :=
  if pv.type = .pubrec ∧ ¬ reasonCodeFailed pv.view.code then
    match pubrelAnswer pubrelProps pv.packetId c with
    | .ok answer => if wasSent (c.send answer) then [.sent answer] else []
    | .error _ => []
  else []

/-- What is seen of an event. -/
def observe (s : InflightSession) (e : Event) : List Obs :=
  match s.epsp, e with
  | some c, .publish pv => if wasSent (c.acquireUniquePacketId.2.send pv) then [.sent pv] else []
  | some c, .recv pubrelProps pv =>
    let r := c.processRecvDecoded pv
    if .receive pv ∈ r.events then .received pv :: observeAnswer pubrelProps pv r.conn else []
  | some _, .close | some _, .connackFailed => [.ended]
  | _, _ => []

/-- The runs of a session whose events meet a condition, with what is not acknowledged -/
inductive Runs (ok : InflightSession → Event → Prop) : InflightSession → Exchanges → Prop
  | create (connect connack : PacketVariant .two) (htype : connack.type = .connack)
      (hok : ok ⟨.make, none, false⟩ (.inherit connect connack)) :
    Runs ok (create connect connack) ⟨[], []⟩
  | step {s s' h} (e : Event) (hr : Runs ok s h) (hok : ok s e) (hs : s.perform e = some s') :
    Runs ok s' ((s.observe e).foldl Exchanges.after h)

/-- The events that leave the inflight messages and the endpoint in step: every connection stores what
    it sends; an identifier that is acquired is not that of an inflight message, and its PUBLISH need
    not wait for the receive maximum; the connection refuses no inflight message; no PUBREC with an
    error comes for an inflight message; and an endpoint that is dropped has stored nothing. -/
def Proper (s : InflightSession) : Event → Prop
  | .inherit connect connack => (accept connect connack).needStore = true
  | .connackSent => ∀ c ∈ s.epsp, Resends s.messages.elems c
  | .connackFailed => ∀ c ∈ s.epsp, c.store.elems = []
  | .publish pv => s.messages.isFree pv.packetId ∧ ∀ c ∈ s.epsp, ¬ c.sendMaximumReached
  | .recv _ pv => pv.type = .pubrec → reasonCodeFailed pv.view.code →
      ∀ c ∈ s.epsp, pv.packetId ∈ c.pidPubrec → s.messages.isFree pv.packetId
  | .send _ | .close => True

/-! ### One event -/

variable {s s' : InflightSession} {h : Exchanges} {c c' : Connection .server .two}
  {pv : PacketVariant .two} {m : InflightMessages}

/-- What is not acknowledged is what is inflight, followed by what the endpoint has stored with other
    identifiers. While the session is offline or is being resumed, the inflight messages are those that
    were not acknowledged when the last connection ended. -/
structure Holds (s : InflightSession) (h : Exchanges) : Prop where
  offline : s.epsp = none → s.messages.elems = h.unacked
  online : ∀ c, s.epsp = some c → c.Tidy ∧ h.unacked = s.messages.elems ++
    c.store.elems.filter fun e => s.messages.isFree e.packetId
  ended : s.epsp = none ∨ s.resuming = true → s.messages.elems = h.ended

/-- Inserting entries is inserting one behind the other. -/
theorem foldl_insert_elems (es : List (StorePacketVariant .two)) :
    (es.foldl InflightMessages.insert m).elems =
      es.foldl (Keyed.insertBack StorePacketVariant.packetId) m.elems := by
  induction es generalizing m with
  | nil => rfl
  | cons e es ih => exact ih

/-- The stored packets have different identifiers. -/
theorem nodup_stored (h : c.Tidy) : (c.store.elems.map StorePacketVariant.packetId).Nodup := by
  rw [List.Nodup, List.pairwise_map]
  refine c.store.unique.imp_of_mem fun {a b} ha hb hne hid => ?_
  obtain rfl := h.ackable.eq_of_id h.determined ha hb hid
  exact hne ⟨rfl, rfl⟩

namespace Holds

/-- The session is inherited. -/
theorem inherit {connect connack : PacketVariant .two} (hh : Holds s h) (hoff : s.epsp = none)
    (htype : connack.type = .connack) (hneed : (accept connect connack).needStore = true) :
    Holds { s with epsp := some (accept connect connack), resuming := true } h := by
  obtain ⟨htidy, hempty⟩ := Connection.accept_tidy htype hneed
  refine ⟨nofun, fun c hc => ?_, fun _ => hh.ended (.inl hoff)⟩
  obtain rfl := Option.some.inj hc
  refine ⟨htidy, ?_⟩
  rw [hempty, List.filter_nil, List.append_nil]
  exact (hh.offline hoff).symm

/-- The CONNACK was sent, and the messages follow it. -/
theorem connackSent (hh : Holds s h) (hon : s.epsp = some c) (hok : Resends s.messages.elems c) :
    Holds (s.sendInflightMessages c).1 h := by
  obtain ⟨htidy, hunacked⟩ := hh.online c hon
  obtain ⟨htidy', -, hfilter⟩ := htidy.sendAll hok
  refine ⟨nofun, fun c' hc' => ?_, nofun⟩
  obtain rfl := Option.some.inj hc'
  refine ⟨htidy', hunacked.trans (congrArg _ (hfilter _ fun e he => ?_).symm)⟩
  simpa [InflightMessages.isFree] using ⟨e, he, rfl⟩

/-- Only a PUBLISH with QoS 1 or 2 is forwarded. -/
theorem isForwarded_publish (h : isForwarded pv) :
    pv.type = .publish ∧ Connection.isQos12 pv.view.opts := by
  cases pv with
  | v311Publish p => exact ⟨rfl, h⟩
  | v5Publish p =>
    simp only [isForwarded, Bool.and_eq_true] at h
    exact ⟨rfl, h.1.1⟩
  | _ => cases h

/-- A message is forwarded. -/
theorem publish (hh : Holds s h) (hon : s.epsp = some c) (hstatus : c.status = .connected)
    (hid : c.acquireUniquePacketId = (some pv.packetId, c')) (hforward : isForwarded pv)
    (hok : Proper s (.publish pv)) :
    Holds { s with epsp := some (c'.send pv).conn }
      ((s.observe (.publish pv)).foldl Exchanges.after h) := by
  obtain ⟨htidy, hunacked⟩ := hh.online c hon
  obtain ⟨hfree, hmax⟩ := hok
  obtain ⟨htype, hqos⟩ := isForwarded_publish hforward
  obtain ⟨htidy', ⟨m, hc'⟩, hun, -⟩ := htidy.acquire hid
  have hstatus' : c'.status = .connected := by rw [hc']; exact hstatus
  have hlate : ¬ c'.publishFailsLate pv := by
    refine Connection.not_failsLate hstatus' hforward ?_
    rw [hc']
    exact hmax c hon
  have hstored : c'.store = c.store := by rw [hc']
  obtain ⟨htidy'', hstore⟩ := htidy'.publish htype hqos hun hstatus' fun _ => hlate
  have hobserve : s.observe (.publish pv) = if wasSent (c'.send pv) then [.sent pv] else [] := by
    simp only [observe, hon, hid]
  rw [hobserve]
  split
  · next hsent =>
    -- the PUBLISH is stored behind the others
    obtain ⟨henters, -, -⟩ := Connection.passes_of_wasSent htype hqos hsent
    rw [if_pos hsent] at hstore
    have helems := (congrArg Store.elems hstore).trans
      (Connection.storeEntered_elems htidy' hstatus' hun hforward henters)
    refine ⟨nofun, fun c'' hc'' => ?_, fun hended => ?_⟩
    · obtain rfl := Option.some.inj hc''
      refine ⟨htidy'', ?_⟩
      have hnew : (resendOf pv).toList.filter (fun e => s.messages.isFree e.packetId) =
          (resendOf pv).toList := by
        refine List.filter_eq_self.mpr fun e he => ?_
        rw [Connection.resendOf_packetId he fun _ => hqos]
        exact hfree
      rw [helems, hstored, List.filter_append, hnew, ← List.append_assoc, ← hunacked]
      rfl
    · exact hh.ended (hended.imp_left nofun)
  · next hnot =>
    rw [if_neg hnot] at hstore
    refine ⟨nofun, fun c'' hc'' => ?_, fun hended => hh.ended (hended.imp_left nofun)⟩
    obtain rfl := Option.some.inj hc''
    refine ⟨htidy'', ?_⟩
    rw [hstore, hstored]
    exact hunacked

/-- The connection is closed. -/
theorem close (hh : Holds s h) (hon : s.epsp = some c) :
    Holds (s.becomeOffline c.store.elems) (h.after .ended) := by
  obtain ⟨htidy, hunacked⟩ := hh.online c hon
  have helems : (s.becomeOffline c.store.elems).messages.elems = h.unacked := by
    rw [becomeOffline, foldl_insert_elems, Keyed.foldl_insertBack (nodup_stored htidy), hunacked]
    rfl
  exact ⟨fun _ => helems, fun _ hc => (nomatch hc), fun _ => helems⟩

/-- The CONNACK could not be sent. -/
theorem connackFailed (hh : Holds s h) (hon : s.epsp = some c) (hempty : c.store.elems = []) :
    Holds { s with epsp := none, resuming := false } (h.after .ended) := by
  obtain ⟨-, hunacked⟩ := hh.online c hon
  rw [hempty, List.filter_nil, List.append_nil] at hunacked
  exact ⟨fun _ => hunacked.symm, fun _ hc => (nomatch hc), fun _ => hunacked.symm⟩

/-- A packet of no exchange is sent. -/
theorem send (hh : Holds s h) (hon : s.epsp = some c) (hother : isOther pv) :
    Holds { s with epsp := some (c.send pv).conn } h := by
  obtain ⟨htidy, hunacked⟩ := hh.online c hon
  obtain ⟨htidy', hstore⟩ := htidy.sendOther hother
  refine ⟨nofun, fun c' hc' => ?_, fun hended => hh.ended (hended.imp_left nofun)⟩
  obtain rfl := Option.some.inj hc'
  refine ⟨htidy', ?_⟩
  rw [hstore]
  exact hunacked

/-- A session that is not being resumed -/
theorem of_online (hon : s.epsp = some c) (hresuming : s.resuming = false) (htidy : c.Tidy)
    (hunacked : h.unacked = s.messages.elems ++
      c.store.elems.filter fun e => s.messages.isFree e.packetId) : Holds s h where
  offline hnone := nomatch hon.symm.trans hnone
  online c' hc' := by
    obtain rfl := Option.some.inj (hon.symm.trans hc')
    exact ⟨htidy, hunacked⟩
  ended hended := by
    rcases hended with hnone | htrue
    · exact nomatch hon.symm.trans hnone
    · exact nomatch hresuming.symm.trans htrue

end Holds

/-- The packets with an identifier are taken out of the inflight messages and of the store. -/
theorem filter_unacked {m m' : InflightMessages} {stored : List (StorePacketVariant .two)}
    {packetId : Nat} (hm : m'.elems = m.elems.filter fun e => e.packetId ≠ packetId) :
    (m.elems ++ stored.filter fun e => m.isFree e.packetId).filter (fun e => e.packetId ≠ packetId) =
      m'.elems ++ (stored.filter fun e => e.packetId ≠ packetId).filter fun e =>
        m'.isFree e.packetId := by
  rw [List.filter_append, hm, List.filter_filter, List.filter_filter]
  refine congrArg _ (List.filter_congr fun e _ => ?_)
  -- an identifier that stays is free before if and only if it is free afterwards
  by_cases hid : e.packetId = packetId
  · simp [hid]
  · have hfree : m.isFree e.packetId = m'.isFree e.packetId := by
      unfold InflightMessages.isFree
      refine decide_eq_decide.mpr (not_congr ?_)
      rw [hm, List.mem_map, List.mem_map]
      constructor
      · rintro ⟨a, ha, heq⟩
        exact ⟨a, List.mem_filter.mpr ⟨ha, by simpa [heq] using hid⟩, heq⟩
      · rintro ⟨a, ha, heq⟩
        exact ⟨a, (List.mem_filter.mp ha).1, heq⟩
    rw [hfree, Bool.and_comm]

/-- The PUBREL with which a PUBREC is answered -/
theorem pubrelAnswer_ok {pubrelProps : Properties} {packetId : Nat}
    (hlt : packetId < PacketIdBytes.two.limit)
    (h : pubrelAnswer pubrelProps packetId c = .ok pv) :
    ∃ p : StorePacket .two, p.toPacketVariant = pv ∧ pv.type = .pubrel ∧ pv.packetId = packetId ∧
      resendOf pv = StorePacketVariant.ofPacket? p := by
  have hload : endianLoad 2 (endianStore 2 packetId) = packetId := endianLoad_endianStore hlt
  have hv5 {rc : Option UInt8} {props : Properties} {p : V5.PubResponsePacket .two}
      (hp : V5.pubrelPacket .two packetId rc props = .ok p) : p.packetId = packetId := by
    simp only [V5.pubrelPacket, V5.pubResponsePacket, Except.bind_eq_ok, Except.pure_eq_ok] at hp
    obtain ⟨_, -, _, -, rfl⟩ := hp
    exact hload
  unfold pubrelAnswer at h
  split at h
  · split at h
    all_goals
      simp only [Except.bind_eq_ok, Except.pure_eq_ok] at h
      obtain ⟨p, hp, rfl⟩ := h
      exact ⟨.v5Pubrel p, rfl, rfl, hv5 hp, rfl⟩
  · obtain rfl := Except.ok.inj h
    exact ⟨.v311Pubrel (V311.pubrelPacket .two packetId), rfl, rfl, hload, rfl⟩

namespace Holds

/-- An acknowledgement that the connection has delivered is handled. -/
theorem acknowledged (hh : Holds s h) (hon : s.epsp = some c) (hresuming : s.resuming = false)
    {pubrelProps : Properties} (htidy : c'.Tidy) (hack : Acknowledged c c' pv)
    (hok : Proper s (.recv pubrelProps pv)) :
    Holds ({ s with epsp := some c' }.handle pubrelProps pv c')
      ((observeAnswer pubrelProps pv c').foldl Exchanges.after (h.after (.received pv))) := by
  obtain ⟨-, hunacked⟩ := hh.online c hon
  have hafter : (h.after (.received pv)).unacked =
      h.unacked.filter fun e => e.packetId ≠ pv.packetId := by
    simp only [Exchanges.after, hack.isAck, if_true]
  -- whatever is left of the inflight messages has other identifiers
  have hleft (m' : InflightMessages)
      (hm : m'.elems = s.messages.elems.filter fun e => e.packetId ≠ pv.packetId) :
      (h.after (.received pv)).unacked =
        m'.elems ++ c'.store.elems.filter fun e => m'.isFree e.packetId := by
    rw [hafter, hunacked, hack.store]
    exact filter_unacked hm
  have herased := hleft (s.messages.erase pv.packetId) rfl
  have htype := hack.isAck
  unfold isAck at htype
  simp only [List.mem_cons, List.not_mem_nil, or_false, decide_eq_true_eq] at htype
  by_cases hpubrec : pv.type = .pubrec
  · by_cases hcode : reasonCodeFailed pv.view.code
    · -- the inflight messages are not touched, and need not be
      have hfree := hok hpubrec hcode c hon (hack.awaited hpubrec)
      have hsame : s.messages.elems =
          s.messages.elems.filter fun e => e.packetId ≠ pv.packetId := by
        refine (List.filter_eq_self.mpr fun e he => ?_).symm
        unfold InflightMessages.isFree at hfree
        simp only [List.mem_map, decide_eq_true_eq, not_exists, not_and] at hfree
        exact decide_eq_true (hfree e he)
      have hobserve : observeAnswer pubrelProps pv c' = [] := if_neg fun hno => hno.2 hcode
      rw [hobserve, handle, hpubrec]
      dsimp only
      rw [pubrecHandler, if_pos hcode]
      exact of_online rfl hresuming htidy (hleft _ hsame)
    · have hobserve : observeAnswer pubrelProps pv c' =
          match pubrelAnswer pubrelProps pv.packetId c' with
          | .ok answer => if wasSent (c'.send answer) then [.sent answer] else []
          | .error _ => [] := if_pos ⟨hpubrec, hcode⟩
      rw [hobserve, handle, hpubrec]
      dsimp only
      rw [pubrecHandler, if_neg hcode]
      dsimp only
      cases hanswer : pubrelAnswer pubrelProps pv.packetId c' with
      | error _ => exact of_online rfl hresuming htidy herased
      | ok answer =>
        obtain ⟨p, hp, hpubrel, hid, hresend⟩ := pubrelAnswer_ok pv.packetId_lt hanswer
        have hun : c'.Unwaited answer.packetId := by
          rw [hid]
          exact hack.unwaited hpubrec hcode
        have hused : c'.pidMan.isUsedId answer.packetId := by
          rw [hid]
          exact hack.used hpubrec hcode
        obtain ⟨htidy', hstore⟩ := htidy.pubrel hp hpubrel hun hused
        refine of_online rfl hresuming htidy' ?_
        dsimp only
        rw [hstore]
        split
        · -- the PUBREL is stored behind the others
          have hpid : p.packetId = pv.packetId := by
            rw [← hid, ← hp, StorePacket.packetId_toPacketVariant]
          have hadd := Connection.add_elems (s := c'.store) (p := p) fun e he heq =>
            htidy.not_stored hun ⟨e, he, heq.trans (hpid.trans hid.symm)⟩
          have hnew : (StorePacketVariant.ofPacket? p).toList.filter
              (fun e => (s.messages.erase pv.packetId).isFree e.packetId) =
                (StorePacketVariant.ofPacket? p).toList := by
            refine List.filter_eq_self.mpr fun e he => ?_
            rw [Connection.ofPacket?_packetId he, hpid]
            simp [InflightMessages.isFree, InflightMessages.erase]
          rw [hadd, List.filter_append, hnew, ← List.append_assoc, ← herased, ← hresend]
          rfl
        · exact herased
  · have hobserve : observeAnswer pubrelProps pv c' = [] := if_neg fun hno => hpubrec hno.1
    have hhandle : { s with epsp := some c' }.handle pubrelProps pv c' =
        { s with messages := s.messages.erase pv.packetId, epsp := some c' } := by
      rcases htype with htype | htype | htype
      · simp only [handle, htype, pubackHandler]
      · exact absurd htype hpubrec
      · simp only [handle, htype, pubackHandler]
    rw [hobserve, hhandle]
    exact of_online rfl hresuming htidy herased

/-- A packet is received. -/
theorem recv (hh : Holds s h) (hon : s.epsp = some c) (hstatus : c.status = .connected)
    (hresuming : s.resuming = false) (hversion : pv.version = c.protocolVersion)
    {pubrelProps : Properties} (hok : Proper s (.recv pubrelProps pv)) :
    Holds
      (if .receive pv ∈ (c.processRecvDecoded pv).events then
        { s with epsp := some (c.processRecvDecoded pv).conn }.handle pubrelProps pv
          (c.processRecvDecoded pv).conn
      else { s with epsp := some (c.processRecvDecoded pv).conn })
      ((s.observe (.recv pubrelProps pv)).foldl Exchanges.after h) := by
  obtain ⟨htidy, hunacked⟩ := hh.online c hon
  obtain ⟨htidy', hcase⟩ := htidy.recv hstatus hversion
  have hobserve : s.observe (.recv pubrelProps pv) =
      if .receive pv ∈ (c.processRecvDecoded pv).events then
        .received pv :: observeAnswer pubrelProps pv (c.processRecvDecoded pv).conn
      else [] := by
    simp only [observe, hon]
  rw [hobserve]
  rcases hcase with ⟨hreceive, hack⟩ | ⟨hstore, hnot⟩
  · rw [if_pos hreceive, if_pos hreceive]
    exact hh.acknowledged hon hresuming htidy' hack hok
  · have hsame : Holds { s with epsp := some (c.processRecvDecoded pv).conn } h := by
      refine of_online rfl hresuming htidy' ?_
      rw [hstore]
      exact hunacked
    split
    · next hreceive =>
      -- what is delivered is no acknowledgement
      have htype := hnot hreceive
      have hafter : h.after (.received pv) = h := if_neg htype
      unfold isAck at htype
      simp only [List.mem_cons, List.not_mem_nil, or_false, not_or, decide_eq_true_eq] at htype
      obtain ⟨hpuback, hpubrec, hpubcomp⟩ := htype
      have hanswer : observeAnswer pubrelProps pv (c.processRecvDecoded pv).conn = [] :=
        if_neg fun hno => hpubrec hno.1
      have hhandle : { s with epsp := some (c.processRecvDecoded pv).conn }.handle pubrelProps pv
          (c.processRecvDecoded pv).conn =
            { s with epsp := some (c.processRecvDecoded pv).conn } := by
        unfold handle
        split <;> first | contradiction | rfl
      rw [hanswer, hhandle, List.foldl_cons, hafter]
      exact hsame
    · exact hsame

/-- What one event does -/
theorem perform (hh : Holds s h) {e : Event} (hok : Proper s e) (hs : s.perform e = some s') :
    Holds s' ((s.observe e).foldl Exchanges.after h) := by
  unfold InflightSession.perform at hs
  split at hs
  -- the session is offline
  · next hoff =>
    split at hs
    · next htype =>
      obtain rfl := Option.some.inj hs
      have hobserve : ∀ e, s.observe e = [] := fun e => by simp only [observe, hoff]
      rw [hobserve]
      exact hh.inherit hoff htype hok
    · exact nomatch hs
  -- the session is online, with a branch for each event
  · next c hon =>
    split at hs
    · obtain rfl := Option.some.inj hs
      have hobserve : s.observe .connackSent = [] := by simp only [observe, hon]
      rw [hobserve]
      exact hh.connackSent hon (hok c hon)
    · exact nomatch hs
  · next c hon =>
    split at hs
    · obtain rfl := Option.some.inj hs
      have hobserve : s.observe .connackFailed = [.ended] := by simp only [observe, hon]
      rw [hobserve]
      exact hh.connackFailed hon (hok c hon)
    · exact nomatch hs
  · next c pv hon =>
    dsimp only at hs
    split at hs
    · next hcond =>
      obtain ⟨hstatus, hid, hforward⟩ := hcond
      obtain rfl := Option.some.inj hs
      exact hh.publish hon hstatus (Prod.ext hid rfl) hforward hok
    · exact nomatch hs
  · next c pv hon =>
    split at hs
    · next hcond =>
      obtain rfl := Option.some.inj hs
      have hobserve : s.observe (.send pv) = [] := by simp only [observe, hon]
      rw [hobserve]
      exact hh.send hon hcond.2
    · exact nomatch hs
  · next c pubrelProps pv hon =>
    split at hs
    · next hcond =>
      obtain ⟨hstatus, hresuming, hversion⟩ := hcond
      obtain rfl := Option.some.inj hs
      exact hh.recv hon hstatus hresuming hversion hok
    · exact nomatch hs
  · next c hon =>
    obtain rfl := Option.some.inj hs
    have hobserve : s.observe .close = [.ended] := by simp only [observe, hon]
    rw [hobserve]
    exact hh.close hon
  · exact nomatch hs

end Holds

/-- The correspondence holds in every run. -/
theorem Runs.holds (hr : Runs Proper s h) : Holds s h := by
  induction hr with
  | create connect connack htype hok =>
    obtain ⟨htidy, hempty⟩ := Connection.accept_tidy htype hok
    refine Holds.of_online rfl rfl htidy ?_
    rw [hempty]
    rfl
  | step e _ hok hs ih => exact ih.perform hok hs

/-- Sending the messages again sends each of them. -/
theorem sendAll_sent (es : List (StorePacketVariant .two)) :
    (InflightMessages.sendAll es c).2 = es := by
  induction es generalizing c with
  | nil => rfl
  | cons e es ih => exact congrArg (e :: ·) ih

/-! ### Runs that are computed -/

/-- Whether the messages can be sent again can be decided. -/
instance decidableResends : (es : List (StorePacketVariant .two)) → (c : Connection .server .two) →
    Decidable (Resends es c)
  | [], _ => .isTrue trivial
  | e :: es, c =>
    have := decidableResends es (InflightMessages.send e c).conn
    inferInstanceAs (Decidable (_ ∧ _ ∧ _))

/-- Whether a step is proper can be decided. -/
instance (s : InflightSession) : (e : Event) → Decidable (Proper s e)
  | .inherit connect connack =>
    inferInstanceAs (Decidable ((accept connect connack).needStore = true))
  | .connackSent => inferInstanceAs (Decidable (∀ c ∈ s.epsp, Resends s.messages.elems c))
  | .connackFailed => inferInstanceAs (Decidable (∀ c ∈ s.epsp, c.store.elems = []))
  | .publish pv =>
    inferInstanceAs (Decidable (s.messages.isFree pv.packetId ∧ ∀ c ∈ s.epsp, ¬ c.sendMaximumReached))
  | .recv _ pv =>
    inferInstanceAs (Decidable (pv.type = .pubrec → reasonCodeFailed pv.view.code →
      ∀ c ∈ s.epsp, pv.packetId ∈ c.pidPubrec → s.messages.isFree pv.packetId))
  | .send _ | .close => .isTrue trivial

/-- An event that meets the condition and can happen, with what is not acknowledged -/
def recorded (ok : InflightSession → Event → Prop) [∀ s e, Decidable (ok s e)]
    (r : InflightSession × Exchanges) (e : Event) : Option (InflightSession × Exchanges) :=
  if ok r.1 e then
    (r.1.perform e).map fun s' => (s', (r.1.observe e).foldl Exchanges.after r.2)
  else none

/-- The run with some events, if they can happen -/
def run (ok : InflightSession → Event → Prop) [∀ s e, Decidable (ok s e)] (es : List Event)
    (r : InflightSession × Exchanges) : Option (InflightSession × Exchanges) :=
  Run.finalM (recorded ok) r es

/-- A run that was evaluated is a run. -/
theorem Runs.run {ok : InflightSession → Event → Prop} [∀ s e, Decidable (ok s e)]
    (hr : Runs ok s h) {es : List Event} {h' : Exchanges}
    (hs : InflightSession.run ok es (s, h) = some (s', h')) : Runs ok s' h' := by
  refine Run.finalM_invariant (Q := fun r => Runs ok r.1 r.2) (fun r e r' hr hstep => ?_) hr hs
  unfold recorded at hstep
  split at hstep
  · next hok =>
    obtain ⟨s₁, hperform, rfl⟩ := Option.map_eq_some_iff.mp hstep
    exact hr.step e hok hperform
  · exact nomatch hstep

/-- The types and identifiers of what is sent when a session is resumed, and of what was not
    acknowledged -/
def resumed (r : InflightSession × Exchanges) :
    Option (List (ControlPacketType × Nat) × List (ControlPacketType × Nat)) :=
  let id (e : StorePacketVariant .two) := (e.packet.toPacketVariant.type, e.packetId)
  if r.1.resuming then
    r.1.epsp.map fun c => ((r.1.sendInflightMessages c).2.map id, r.2.ended.map id)
  else none

/-- What a run has shown when the session is resumed -/
theorem Runs.resumed {ok : InflightSession → Event → Prop} [∀ s e, Decidable (ok s e)]
    (hr : Runs ok s h) {es : List Event} {sent unacked : List (ControlPacketType × Nat)}
    (hs : (InflightSession.run ok es (s, h)).bind InflightSession.resumed = some (sent, unacked)) :
    ∃ s' h' c, InflightSession.run ok es (s, h) = some (s', h') ∧ Runs ok s' h' ∧
      s'.epsp = some c ∧ s'.resuming = true ∧
      (s'.sendInflightMessages c).2.map (fun e => (e.packet.toPacketVariant.type, e.packetId)) = sent ∧
      h'.ended.map (fun e => (e.packet.toPacketVariant.type, e.packetId)) = unacked := by
  obtain ⟨⟨s', h'⟩, hrun, hresumed⟩ := Option.bind_eq_some_iff.mp hs
  unfold InflightSession.resumed at hresumed
  dsimp only at hresumed
  split at hresumed
  · next hresuming =>
    obtain ⟨c, hon, hsame⟩ := Option.map_eq_some_iff.mp hresumed
    obtain ⟨rfl, rfl⟩ := Prod.mk.inj hsame
    exact ⟨s', h', c, hrun, hr.run hrun, hon, hresuming, rfl, rfl⟩
  · exact nomatch hresumed

end InflightSession

end AsyncMqtt
