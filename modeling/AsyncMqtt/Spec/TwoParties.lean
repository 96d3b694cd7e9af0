import AsyncMqtt.ForStd.Run
import AsyncMqtt.Spec.LineStage

/-!
# Two parties

A client and a server of the library on a line that carries packets in order, breaks at any
moment and comes up again. Each party is a connection together with the identifiers that its
application holds, and every call of an application that keeps to the rules of the library, every
packet that arrives, and every break of the line is a step. The parties set no limits, keep the
session and leave the acknowledgements to the library.

## Key results

- `Parties.init_inv`, `Parties.step_inv`: what the parties know of each other is kept by every step
- `Parties.run_inv`: it holds after every run
-/

namespace AsyncMqtt

open Delivery

namespace Connection

variable {role : Role} {pb : PacketIdBytes} {ver : ProtocolVersion} {s : Owned role pb}
  {pv : PacketVariant pb}

/-! ### The accounts of a party -/

/-- Without limits among the properties the limit stays. -/
theorem maximumPacketSize_noLimits (h : PacketVariant.NoLimits pv.view.props) (m : Nat) :
    pv.maximumPacketSize m = m := by
  unfold PacketVariant.maximumPacketSize lastVal
  generalize pv.view.props = props at h
  induction props with
  | nil => rfl
  | cons prop props ih =>
    obtain ⟨⟨-, -, hsize⟩, hrest⟩ := noLimits_cons h
    rw [List.foldl_cons, if_neg hsize]
    exact ih hrest

/-- Without limits every store fits. -/
theorem Unlimited.storedFit {c : Connection role pb} (h : c.Unlimited ver) {limit : Nat}
    (hlimit : limit = c.maximumPacketSizeSend) : c.StoredFit limit := by
  intro e he hlarge
  rw [hlimit, h.maximumPacketSizeSend] at hlarge
  exact absurd (h.stored e he).1 (Nat.not_le.mpr hlarge)

/-- A packet that arrives keeps the accounts. -/
theorem Sound.received (h : Sound ver s) (hp : pv.Plain ver)
    (hunlimited : (s.conn.processRecvDecoded pv).conn.Unlimited ver) :
    Sound ver ⟨(s.conn.processRecvDecoded pv).conn, s.held⟩ := by
  have hu := h.unlimited
  have hout := processRecvDecoded_cases pv s.conn
  have hversion : pv.version = s.conn.protocolVersion := hp.version.trans hu.protocolVersion.symm
  have hdetermined : s.conn.protocolVersion ≠ .undetermined := by
    rw [hu.protocolVersion]
    exact hu.determined
  refine ⟨hunlimited, hout.accounted h.accounted fun haccepts hstatus => ?_,
    hout.ackable h.ackable (fun _ => ⟨hdetermined, hversion⟩) (fun htype _ => ⟨fun hclean => ?_, ?_⟩)
      fun _ hmem _ _ => ⟨?_, fun k hk => .inl ?_⟩⟩
  · have htype : pv.type = .connack := of_decide_eq_true (Bool.and_eq_true_iff.mp haccepts).1
    split
    · exact hu.storedFit (maximumPacketSize_noLimits (hp.handshake (.inr htype)) _)
    · exact hu.connecting hstatus
  · exact absurd hclean (hp.connect htype).1
  · intro e he
    rw [hversion]
    exact h.ackable.version hdetermined e he
  · exact ValueAllocator.isUsed_iff.mpr (h.accounted.used .pubrec _ hmem)
  · exact h.accounted.alone .pubrec _ hmem k hk

/-- So does the begin of a connection. -/
theorem Sound.began (h : Sound ver s) (hhandshake : pv.isHandshake)
    (hunlimited : (s.conn.send pv).conn.Unlimited ver) : Sound ver (s.next (.send pv)) := by
  have htype : pv.type = .connect ∨ pv.type = .connack := by
    simpa [PacketVariant.isHandshake] using hhandshake
  have hown : pv.ownPacketId = false := by
    rcases htype with htype | htype <;> rw [PacketVariant.ownPacketId, htype]
  have hnot : ¬ pv.ownPacketId := by rw [hown]; exact Bool.false_ne_true
  refine ⟨hunlimited, Owned.next_accounted h.accounted (by rintro _ ⟨⟩) fun _ => ?_,
    next_ackable h.ackable fun _ => ?_⟩
  · split
    · unfold Accepts
      rcases htype with htype | htype <;> rw [htype]
      · trivial
      · exact h.unlimited.storedFit rfl
    · exact fun hpv => absurd hpv hnot
  · split
    · unfold AcceptKeeps
      rcases htype with htype | htype <;> rw [htype] <;> trivial
    · exact fun hpv => absurd hpv hnot

end Connection

/-- A client, a server and the line between them, with the messages that were handed over and
    those that arrived -/
structure Parties (pb : PacketIdBytes) where
  client : Connection.Owned .client pb
  server : Connection.Owned .server pb
  link : LinkState
  toServer : List (PacketVariant pb)
  toClient : List (PacketVariant pb)
  /-- the client was told that the server has accepted the connection -/
  joined : Bool
  clientOffered : List Message
  serverDelivered : List Message
  serverOffered : List Message
  clientDelivered : List Message

namespace Parties

variable {pb : PacketIdBytes}

/-- Two new connections of this version that acknowledge by themselves, without a line -/
def init (pb : PacketIdBytes) (ver : ProtocolVersion) : Parties pb where
  client := ⟨{ Connection.make .client pb ver with autoPubResponse := true }, ∅⟩
  server := ⟨{ Connection.make .server pb ver with autoPubResponse := true }, ∅⟩
  link := .closed
  toServer := []
  toClient := []
  joined := false
  clientOffered := []
  serverDelivered := []
  serverOffered := []
  clientDelivered := []

/-- What can happen: a call of one of the applications, the receipt of the packet that is first on
    the line in one direction, a new line, or the break of the line. -/
inductive Action (pb : PacketIdBytes) where
  | client (op : Connection.Op pb)
  | server (op : Connection.Op pb)
  | toServer
  | toClient
  | dial
  | cut

/-- The client has done something. -/
def clientActs (s : Parties pb) (t : Step .client pb) (held : OrdSet Nat) (offered : List Message) :
    Parties pb :=
  { s with
    client := ⟨t.conn, held⟩
    link := s.link.clientSent (sends t.events)
    toServer := put s.link s.toServer (sends t.events)
    clientOffered := s.clientOffered ++ offered
    clientDelivered := s.clientDelivered ++ deliveries t.events }

/-- The server has done something. -/
def serverActs (s : Parties pb) (t : Step .server pb) (held : OrdSet Nat) (offered : List Message) :
    Parties pb :=
  { s with
    server := ⟨t.conn, held⟩
    link := s.link.serverSent (sends t.events)
    toClient := put s.link s.toClient (sends t.events)
    serverOffered := s.serverOffered ++ offered
    serverDelivered := s.serverDelivered ++ deliveries t.events }

/-- The state after a step -/
def step (s : Parties pb) : Action pb → Parties pb
  | .client op =>
    s.clientActs (s.client.conn.call op) (s.client.heldAfter op) (s.client.conn.offers op)
  | .server op =>
    s.serverActs (s.server.conn.call op) (s.server.heldAfter op) (s.server.conn.offers op)
  | .toServer =>
    match s.toServer with
    | [] => s
    | pv :: rest =>
      { s with toServer := rest }.serverActs (s.server.conn.processRecvDecoded pv) s.server.held []
  | .toClient =>
    match s.toClient with
    | [] => s
    | pv :: rest =>
      { s with
        toClient := rest
        joined := s.joined || pv.acceptsConnection && decide (s.client.conn.status = ConnectionStatus.connecting)
      }.clientActs (s.client.conn.processRecvDecoded pv) s.client.held []
  | .dial =>
    if s.link = .closed ∧ s.client.conn.status = .disconnected ∧
        s.server.conn.status = .disconnected then
      { s with link := .fresh }
    else s
  | .cut => { s with link := .closed, toServer := [], toClient := [] }

/-! ### The rules -/

/-- The CONNECT or CONNACK that a call hands over -/
def handshake? : Connection.Op pb → Option (PacketVariant pb)
  | .send pv => if pv.isHandshake then some pv else none
  | _ => none

/-- The call hands over a PUBLISH with QoS 1 or 2. -/
def publishes : Connection.Op pb → Bool
  | .send pv => pv.type = .publish && Connection.isQos12 pv.view.opts
  | _ => false

/-- The calls of the client: it asks for a connection once on each line, and publishes with QoS 1
    or 2 when its session was accepted once. -/
def ClientObeys (ver : ProtocolVersion) (s : Parties pb) (op : Connection.Op pb) : Prop :=
  (∀ pv ∈ handshake? op, pv.Plain ver ∧ s.link = .fresh) ∧
    (handshake? op = none → Connection.Permits ver s.client op ∧ (publishes op → s.joined))

/-- The calls of the server: it says that there is no session only as long as the client does not
    know of one. -/
def ServerObeys (ver : ProtocolVersion) (s : Parties pb) (op : Connection.Op pb) : Prop :=
  (∀ pv ∈ handshake? op, pv.Plain ver ∧
    (pv.acceptsConnection → ¬ pv.view.sessionPresent → ¬ s.joined)) ∧
    (handshake? op = none → Connection.Permits ver s.server op)

/-- The calls of the applications keep to the rules of the library. -/
def Obeys (ver : ProtocolVersion) (s : Parties pb) : Action pb → Prop
  | .client op => s.ClientObeys ver op
  | .server op => s.ServerObeys ver op
  | _ => True

/-! ### What the parties know of each other -/

/-- From the client to the server -/
def up (s : Parties pb) : Direction where
  kept := s.client.conn.kept
  handled := s.server.conn.handled
  forward := outgoings s.toServer
  backward := replies s.toClient
  offered := s.clientOffered
  delivered := s.serverDelivered

/-- From the server to the client -/
def down (s : Parties pb) : Direction where
  kept := s.server.conn.kept
  handled := s.client.conn.handled
  forward := outgoings s.toClient
  backward := replies s.toServer
  offered := s.serverOffered
  delivered := s.clientDelivered

/-- The client takes part in the exchanges on the line. -/
def clientUp (s : Parties pb) : Prop := s.link ≠ .closed ∧ s.client.conn.status = .connected

/-- The server takes part in the exchanges on the line. -/
def serverUp (s : Parties pb) : Prop := s.link ≠ .closed ∧ s.server.conn.status = .connected

/-- The client gets what is on the line, at the latest when it has got the CONNACK. -/
def clientHears (s : Parties pb) : Prop :=
  s.link ≠ .closed ∧ (s.client.conn.status = .connected ∨
    s.client.conn.status = .connecting ∧ accepts s.toClient ≠ 0)

/-- The parties and the packets on the line -/
structure Good (ver : ProtocolVersion) (s : Parties pb) : Prop where
  client : Connection.Sound ver s.client
  server : Connection.Sound ver s.server
  toServer : ∀ pv ∈ s.toServer, pv.Plain ver ∧ pv.type ≠ .connack
  toClient : ∀ pv ∈ s.toClient, pv.Plain ver ∧ pv.type ≠ .connect
  unjoined : ¬ s.joined → s.client.conn.kept = [] ∧ s.client.conn.status ≠ .connected
  present : ∀ pv ∈ s.toClient, pv.acceptsConnection → ¬ pv.view.sessionPresent → ¬ s.joined
  stage : Stage s.link s.client.conn.status s.server.conn.status s.toServer s.toClient

/-- What holds after every step -/
structure Inv (ver : ProtocolVersion) (s : Parties pb) : Prop extends Good ver s where
  up : s.up.Ordered s.clientUp s.serverUp
  down : s.down.Ordered s.serverUp s.clientHears

variable {ver : ProtocolVersion} {s : Parties pb} {held : OrdSet Nat} {ms : List Message}
  {pv : PacketVariant pb} {rest : List (PacketVariant pb)}

/-- The directions after the client has done something -/
theorem up_clientActs (s : Parties pb) (t : Step .client pb) (held : OrdSet Nat)
    (ms : List Message) : (s.clientActs t held ms).up =
      { s.up with
        kept := t.traffic.kept
        offered := s.up.offered ++ ms
        forward := if s.link ≠ .closed then s.up.forward ++ t.traffic.outgoings
          else s.up.forward } := by
  rw [up, clientActs]
  simp only [outgoings_put]
  rfl

/-- What the client does, as seen from the messages of the server -/
theorem down_clientActs (s : Parties pb) (t : Step .client pb) (held : OrdSet Nat)
    (ms : List Message) : (s.clientActs t held ms).down =
      { s.down with
        handled := t.traffic.handled
        backward := if s.link ≠ .closed then s.down.backward ++ t.traffic.replies
          else s.down.backward
        delivered := s.down.delivered ++ t.traffic.deliveries } := by
  rw [down, clientActs]
  simp only [replies_put]
  rfl

/-- The directions after the server has done something -/
theorem down_serverActs (s : Parties pb) (t : Step .server pb) (held : OrdSet Nat)
    (ms : List Message) : (s.serverActs t held ms).down =
      { s.down with
        kept := t.traffic.kept
        offered := s.down.offered ++ ms
        forward := if s.link ≠ .closed then s.down.forward ++ t.traffic.outgoings
          else s.down.forward } := by
  rw [down, serverActs]
  simp only [outgoings_put]
  rfl

/-- What the server does, as seen from the messages of the client -/
theorem up_serverActs (s : Parties pb) (t : Step .server pb) (held : OrdSet Nat)
    (ms : List Message) : (s.serverActs t held ms).up =
      { s.up with
        handled := t.traffic.handled
        backward := if s.link ≠ .closed then s.up.backward ++ t.traffic.replies
          else s.up.backward
        delivered := s.up.delivered ++ t.traffic.deliveries } := by
  rw [up, serverActs]
  simp only [replies_put]
  rfl

/-! ### Steps that begin no connection -/

/-- A client that is up after a step was up before. -/
theorem clientUp_of {t : Step .client pb}
    (hstatus : t.conn.status = s.client.conn.status ∨ t.conn.status = .disconnected)
    (hlink : (s.clientActs t held ms).link = s.link) (h : (s.clientActs t held ms).clientUp) :
    s.clientUp := by
  obtain ⟨hlive, hup⟩ := h
  rw [hlink] at hlive
  have hup : t.conn.status = .connected := hup
  refine ⟨hlive, ?_⟩
  rcases hstatus with hs | hs
  · exact hs.symm.trans hup
  · cases hs.symm.trans hup

/-- A client that hears after a step heard before. -/
theorem clientHears_of {t : Step .client pb}
    (hstatus : t.conn.status = s.client.conn.status ∨ t.conn.status = .disconnected)
    (hlink : (s.clientActs t held ms).link = s.link) (h : (s.clientActs t held ms).clientHears) :
    s.clientHears := by
  obtain ⟨hlive, hup⟩ := h
  rw [hlink] at hlive
  have hup : t.conn.status = .connected ∨ t.conn.status = .connecting ∧ accepts s.toClient ≠ 0 := hup
  refine ⟨hlive, ?_⟩
  rcases hstatus with hs | hs
  · rwa [hs] at hup
  · rw [hs] at hup
    rcases hup with hup | ⟨hup, -⟩ <;> cases hup

/-- A server that is up after a step was up before. -/
theorem serverUp_of {t : Step .server pb}
    (hstatus : t.conn.status = s.server.conn.status ∨ t.conn.status = .disconnected)
    (hlink : (s.serverActs t held ms).link = s.link) (h : (s.serverActs t held ms).serverUp) :
    s.serverUp := by
  obtain ⟨hlive, hup⟩ := h
  rw [hlink] at hlive
  have hup : t.conn.status = .connected := hup
  refine ⟨hlive, ?_⟩
  rcases hstatus with hs | hs
  · exact hs.symm.trans hup
  · cases hs.symm.trans hup

/-- What the client does once the connection has begun -/
theorem Good.clientCalm (h : Good ver s) {t : Step .client pb} (ms : List Message)
    (hcalm : Connection.Calm ver s.client.conn t) (hsound : Connection.Sound ver ⟨t.conn, held⟩)
    (hsilent : s.client.conn.status ≠ .connected → Silent (sends t.events))
    (hkept : ¬ s.joined → t.conn.kept = s.client.conn.kept) :
    Good ver (s.clientActs t held ms) ∧ (s.clientActs t held ms).link = s.link := by
  obtain ⟨hconnects, -, hconnack⟩ := no_handshake fun pv hpv => (hcalm.plain pv hpv).2
  have hlink : (s.clientActs t held ms).link = s.link := clientSent_of_none hconnects _
  refine ⟨⟨hsound, h.server, fun pv hpv => ?_, h.toClient, fun hj => ?_, h.present, ?_⟩, hlink⟩
  · rcases mem_put hpv with hpv | hpv
    · exact h.toServer pv hpv
    · exact ⟨(hcalm.plain pv hpv).1, hconnack pv hpv⟩
  · obtain ⟨hnone, hstatus⟩ := h.unjoined hj
    refine ⟨(hkept hj).trans hnone, fun hup => ?_⟩
    have hup : t.conn.status = .connected := hup
    rcases hcalm.status with hs | hs
    · exact hstatus (hs.symm.trans hup)
    · cases hs.symm.trans hup
  · rw [hlink]
    exact h.stage.clientSends hcalm.status hconnects hsilent

/-- What the server does once the connection has begun -/
theorem Good.serverCalm (h : Good ver s) {t : Step .server pb} (ms : List Message)
    (hcalm : Connection.Calm ver s.server.conn t) (hsound : Connection.Sound ver ⟨t.conn, held⟩)
    (hsilent : s.server.conn.status ≠ .connected → Silent (sends t.events))
    (hreplies : accepts s.toClient ≠ 0 → replies (sends t.events) = []) :
    Good ver (s.serverActs t held ms) ∧ (s.serverActs t held ms).link = s.link := by
  obtain ⟨-, haccepts, hconnack⟩ := no_handshake fun pv hpv => (hcalm.plain pv hpv).2
  have hlink : (s.serverActs t held ms).link = s.link := serverSent_of_none hconnack _
  refine ⟨⟨h.client, hsound, h.toServer, fun pv hpv => ?_, h.unjoined, fun pv hpv hacc => ?_, ?_⟩,
    hlink⟩
  · rcases mem_put hpv with hpv | hpv
    · exact h.toClient pv hpv
    · refine ⟨(hcalm.plain pv hpv).1, fun htype => (hcalm.plain pv hpv).2 ?_⟩
      rw [PacketVariant.isHandshake, htype]
      rfl
  · rcases mem_put hpv with hpv | hpv
    · exact h.present pv hpv hacc
    · exact absurd hacc (accepts_eq_zero.mp haccepts pv hpv)
  · rw [hlink]
    exact h.stage.serverSends hcalm.status haccepts hsilent hreplies

/-- A call of the client that begins no connection -/
theorem Inv.clientCall (h : Inv ver s) {t : Step .client pb}
    (hcalm : Connection.Calm ver s.client.conn t)
    (hturn : Connection.CallTurn s.client.conn ms t.traffic)
    (hsound : Connection.Sound ver ⟨t.conn, held⟩) (hjoined : ms ≠ [] → s.joined) :
    Inv ver (s.clientActs t held ms) := by
  obtain ⟨hhandled, hreplies, hdeliveries⟩ := hturn.hears
  have hkept : ¬ s.joined → t.conn.kept = s.client.conn.kept := fun hj =>
    hturn.kept (by_contra fun hms => hj (hjoined hms))
  obtain ⟨hgood, hlink⟩ := h.toGood.clientCalm ms hcalm hsound hturn.silent hkept
  refine { hgood with up := ?_, down := ?_ }
  · have hup := hturn.sends h.up rfl Iff.rfl
    rw [up_clientActs]
    exact hup.change (clientUp_of hcalm.status hlink) fun _ hs => ⟨hlink ▸ hs.1, hs.2⟩
  · have hdown : (s.clientActs t held ms).down = s.down := by
      rw [down_clientActs, hhandled, hreplies, hdeliveries, List.append_nil, List.append_nil, ite_self]
      rfl
    rw [hdown]
    exact h.down.change (fun hs => ⟨hlink ▸ hs.1, hs.2⟩) fun _ => clientHears_of hcalm.status hlink

/-- A call of the server that begins no connection -/
theorem Inv.serverCall (h : Inv ver s) {t : Step .server pb}
    (hcalm : Connection.Calm ver s.server.conn t)
    (hturn : Connection.CallTurn s.server.conn ms t.traffic)
    (hsound : Connection.Sound ver ⟨t.conn, held⟩) : Inv ver (s.serverActs t held ms) := by
  obtain ⟨hhandled, hreplies, hdeliveries⟩ := hturn.hears
  obtain ⟨hgood, hlink⟩ := h.toGood.serverCalm ms hcalm hsound hturn.silent fun _ => hreplies
  refine { hgood with up := ?_, down := ?_ }
  · have hup : (s.serverActs t held ms).up = s.up := by
      rw [up_serverActs, hhandled, hreplies, hdeliveries, List.append_nil, List.append_nil, ite_self]
      rfl
    rw [hup]
    exact h.up.change (fun hs => ⟨hlink ▸ hs.1, hs.2⟩) fun _ => serverUp_of hcalm.status hlink
  · have hdown := hturn.sends h.down rfl Iff.rfl
    rw [down_serverActs]
    refine hdown.change (serverUp_of hcalm.status hlink) fun _ hs => ⟨hlink ▸ hs.1, hs.2.imp_right ?_⟩
    -- no CONNACK was sent
    refine And.imp_right fun hne heq => hne ?_
    have hnone := (no_handshake fun pv hpv => (hcalm.plain pv hpv).2).2.1
    exact (accepts_put hnone).trans heq

/-- The state in which the client gets the packet -/
def taken (s : Parties pb) (rest : List (PacketVariant pb)) (joined : Bool) : Parties pb :=
  { s with toClient := rest, joined }

/-- The client takes the first packet on its line. -/
theorem step_toClient (hq : s.toClient = pv :: rest) : s.step .toClient =
    (s.taken rest (s.joined || pv.acceptsConnection &&
      decide (s.client.conn.status = ConnectionStatus.connecting))).clientActs
      (s.client.conn.processRecvDecoded pv) s.client.held [] := by
  rw [step, hq]
  rfl

/-- The server takes the first packet on its line. -/
theorem step_toServer (hq : s.toServer = pv :: rest) : s.step .toServer =
    ({ s with toServer := rest } : Parties pb).serverActs (s.server.conn.processRecvDecoded pv)
      s.server.held [] := by
  rw [step, hq]

/-- The packet is no longer on the line to the client. -/
theorem Good.clientTakes (h : Good ver s) (hq : s.toClient = pv :: rest) :
    Good ver (s.taken rest s.joined) where
  client := h.client
  server := h.server
  toServer := h.toServer
  toClient pv' hpv' := h.toClient pv' (hq ▸ List.mem_cons_of_mem _ hpv')
  unjoined := h.unjoined
  present pv' hpv' := h.present pv' (hq ▸ List.mem_cons_of_mem _ hpv')
  stage := by
    have hstage := h.stage
    rw [hq] at hstage
    exact hstage.clientTakes

/-- The packet is no longer on the line to the server. -/
theorem Good.serverTakes (h : Good ver s) (hq : s.toServer = pv :: rest) :
    Good ver { s with toServer := rest } where
  client := h.client
  server := h.server
  toServer pv' hpv' := h.toServer pv' (hq ▸ List.mem_cons_of_mem _ hpv')
  toClient := h.toClient
  unjoined := h.unjoined
  present := h.present
  stage := by
    have hstage := h.stage
    rw [hq] at hstage
    exact hstage.serverTakes

/-- A packet arrives at the client that does not begin the connection. -/
theorem Inv.clientRecv (h : Inv ver s) (hq : s.toClient = pv :: rest)
    (hcalm : Connection.Calm ver s.client.conn (s.client.conn.processRecvDecoded pv))
    (hturn : Connection.RecvTurn s.client.conn pv (s.client.conn.processRecvDecoded pv).traffic)
    (hnot : ¬ (pv.acceptsConnection ∧ s.client.conn.status = .connecting)) :
    Inv ver (s.step .toClient) := by
  have hjoined : (s.joined || pv.acceptsConnection &&
      decide (s.client.conn.status = ConnectionStatus.connecting)) = s.joined := by
    have hfalse : (pv.acceptsConnection &&
        decide (s.client.conn.status = ConnectionStatus.connecting)) = false := by
      simpa using hnot
    rw [hfalse, Bool.or_false]
  have hstage := h.stage
  rw [hq] at hstage
  have hlive := hstage.live_of_down
  have hsound := h.client.received (h.toClient pv (hq ▸ List.mem_cons_self)).1 hcalm.unlimited
  rw [step_toClient hq, hjoined]
  -- the client acts on what it took, and the two lanes are looked at one by one
  generalize ht : s.client.conn.processRecvDecoded pv = t at *
  obtain ⟨hgood, hlink⟩ := (h.toGood.clientTakes hq).clientCalm [] hcalm hsound hturn.silent
    fun hj => hturn.kept (h.unjoined hj).2
  -- in the upward lane the client is the sender
  refine { hgood with up := ?_, down := ?_ }
  · have hup := hturn.sends h.up (congrArg replies hq) rfl Iff.rfl hlive
    have heq : ((s.taken rest s.joined).clientActs t s.client.held []).up =
        { s.up with
          kept := t.traffic.kept
          backward := replies rest
          forward := s.up.forward ++ t.traffic.outgoings } := by
      rw [up_clientActs, List.append_nil, if_pos (by exact hlive)]
      rfl
    rw [heq]
    exact hup.change (clientUp_of hcalm.status hlink) fun _ hs => ⟨hlive, hs.2⟩
  -- in the downward lane it is the hearer
  · have hdown := hturn.hears h.down (congrArg outgoings hq) rfl (fun hs => ⟨hlive, .inl hs⟩)
      fun hs ho hhears => ho (hstage.head_quiet ?_)
    have heq : ((s.taken rest s.joined).clientActs t s.client.held []).down =
        { s.down with
          handled := t.traffic.handled
          forward := outgoings rest
          backward := s.down.backward ++ t.traffic.replies
          delivered := s.down.delivered ++ t.traffic.deliveries } := by
      rw [down_clientActs, if_pos (by exact hlive)]
      rfl
    · rw [heq]
      refine hdown.change (fun hs => ⟨hlive, hs.2⟩) fun _ hs => ?_
      have hhears : (s.taken rest s.joined).clientHears := clientHears_of hcalm.status hlink hs
      refine ⟨hlive, hhears.2.imp_right (And.imp_right fun hne heq => hne ?_)⟩
      rw [hq, accepts_cons] at heq
      exact (Nat.add_eq_zero_iff.mp heq).1
    · exact hq ▸ (hhears.2.resolve_left hs).2

/-- A packet arrives at the server that does not begin the connection. -/
theorem Inv.serverRecv (h : Inv ver s) (hq : s.toServer = pv :: rest)
    (hcalm : Connection.Calm ver s.server.conn (s.server.conn.processRecvDecoded pv))
    (hturn : Connection.RecvTurn s.server.conn pv (s.server.conn.processRecvDecoded pv).traffic) :
    Inv ver (s.step .toServer) := by
  have hstage := h.stage
  rw [hq] at hstage
  have hlive := hstage.live_of_up
  have hsound := h.server.received (h.toServer pv (hq ▸ List.mem_cons_self)).1 hcalm.unlimited
  rw [step_toServer hq]
  -- the same argument as for the client, with the lanes exchanged
  generalize ht : s.server.conn.processRecvDecoded pv = t at *
  obtain ⟨hgood, hlink⟩ := (h.toGood.serverTakes hq).serverCalm [] hcalm hsound hturn.silent
    fun haccepts => hturn.unanswered (hstage.upSilent haccepts).1.head.1
  refine { hgood with up := ?_, down := ?_ }
  -- in the upward lane the server is the hearer
  · have hup := hturn.hears h.up (congrArg outgoings hq) rfl (fun hs => ⟨hlive, hs⟩)
      fun hs _ hhears => hs hhears.2
    have heq : (({ s with toServer := rest } : Parties pb).serverActs t s.server.held []).up =
        { s.up with
          handled := t.traffic.handled
          forward := outgoings rest
          backward := s.up.backward ++ t.traffic.replies
          delivered := s.up.delivered ++ t.traffic.deliveries } := by
      rw [up_serverActs, if_pos (by exact hlive)]
      rfl
    rw [heq]
    refine hup.change (fun hs => ⟨hlive, hs.2⟩) fun _ hs => ?_
    have hup : ({ s with toServer := rest } : Parties pb).serverUp :=
      serverUp_of hcalm.status hlink hs
    exact hup
  -- in the downward lane it is the sender
  · have hdown := hturn.sends h.down (congrArg replies hq) rfl Iff.rfl hlive
    have heq : (({ s with toServer := rest } : Parties pb).serverActs t s.server.held []).down =
        { s.down with
          kept := t.traffic.kept
          backward := replies rest
          forward := s.down.forward ++ t.traffic.outgoings } := by
      rw [down_serverActs, List.append_nil, if_pos (by exact hlive)]
      rfl
    rw [heq]
    refine hdown.change (serverUp_of hcalm.status hlink) fun _ hs => ⟨hlive, hs.2.imp_right ?_⟩
    refine And.imp_right fun hne heq => hne ?_
    have hnone := (no_handshake fun pv hpv => (hcalm.plain pv hpv).2).2.1
    exact (accepts_put hnone).trans heq

/-! ### CONNECT -/

/-- The client asks for a connection. -/
theorem Inv.connectSent (h : Inv ver s) (hp : pv.Plain ver) (htype : pv.type = .connect)
    (hlink : s.link = .fresh) (hpass : s.client.conn.passesChecks pv) :
    Inv ver (s.clientActs (s.client.conn.send pv) (s.client.heldAfter (.send pv)) []) := by
  obtain ⟨hunlimited, htraffic, hsends, hstatus⟩ :=
    Connection.sendConnect_turn h.client.unlimited hp htype hpass
  have hsound := h.client.began (by rw [PacketVariant.isHandshake, htype]; rfl) hunlimited
  have hstage := h.stage
  rw [hlink] at hstage
  have hlive : s.link ≠ .closed := by
    rw [hlink]
    exact LinkState.noConfusion
  -- only the CONNECT goes on the line
  generalize ht : s.client.conn.send pv = t at *
  have hlink' : (s.clientActs t (s.client.heldAfter (.send pv)) []).link = .requested := by
    rw [clientActs, hsends]
    exact if_pos ⟨hlink, by rw [connects_cons, if_pos htype]; exact Nat.succ_ne_zero _⟩
  have hup : (s.clientActs t (s.client.heldAfter (.send pv)) []).up = s.up := by
    rw [up_clientActs, htraffic, List.append_nil, Connection.idle, List.append_nil, ite_self]
    rfl
  have hdown : (s.clientActs t (s.client.heldAfter (.send pv)) []).down = s.down := by
    rw [down_clientActs, htraffic, Connection.idle, List.append_nil, List.append_nil, ite_self]
    rfl
  have hconn : t.conn = (s.client.next (.send pv)).conn := by
    rw [← ht]
    rfl
  -- the invariant part by part
  refine ⟨⟨?_, h.server, fun pv' hpv' => ?_, h.toClient, fun hj => ?_, h.present, ?_⟩, ?_, ?_⟩
  · rw [clientActs, hconn]
    exact hsound
  · rcases mem_put hpv' with hpv' | hpv'
    · exact h.toServer pv' hpv'
    · rw [hsends] at hpv'
      obtain rfl := List.mem_singleton.mp hpv'
      refine ⟨hp, ?_⟩
      rw [htype]
      exact ControlPacketType.noConfusion
  · obtain ⟨hnone, -⟩ := h.unjoined hj
    have hkept : t.conn.kept = s.client.conn.kept := congrArg Traffic.kept htraffic
    refine ⟨hkept.trans hnone, fun hs => ?_⟩
    cases hstatus.symm.trans hs
  · rw [hlink']
    change Stage _ t.conn.status _ (put s.link s.toServer (sends t.events)) _
    rw [hstatus, hsends, put_of_ne hlive]
    exact hstage.connectSent htype
  · rw [hup]
    refine h.up.change (fun hs => ?_) fun _ hs => ⟨hlive, hs.2⟩
    cases hstatus.symm.trans hs.2
  · rw [hdown]
    -- no accepting CONNACK is on its way yet
    refine h.down.change (fun hs => ⟨hlive, hs.2⟩) fun _ hs => ?_
    rcases hs.2 with hs | ⟨-, hs⟩
    · cases hstatus.symm.trans hs
    · exact absurd hstage.fresh_accepts hs

/-- The server gets a CONNECT. -/
theorem Inv.connectTaken (h : Inv ver s) (hq : s.toServer = pv :: rest)
    (htype : pv.type = .connect) : Inv ver (s.step .toServer) := by
  have hp := (h.toServer pv (hq ▸ List.mem_cons_self)).1
  have hstage := h.stage
  rw [hq] at hstage
  have hlive := hstage.live_of_up
  obtain ⟨hdisconnected, hstage⟩ := hstage.connectTaken htype
  obtain ⟨hunlimited, htraffic, haside, hstatus⟩ :=
    Connection.recvConnect_turn h.server.unlimited hp htype hdisconnected
  have hsound := h.server.received hp hunlimited
  rw [step_toServer hq]
  -- the answers are set aside, so the lanes see nothing
  generalize ht : s.server.conn.processRecvDecoded pv = t at *
  obtain ⟨-, haccepts, hconnack⟩ := no_handshake fun r hr =>
    (r.isAside_plain (haside r hr).1 (haside r hr).2).2
  have hsilent : Silent (sends t.events) := Connection.no_tokens haside
  have hlink : (({ s with toServer := rest } : Parties pb).serverActs t s.server.held []).link =
      s.link := serverSent_of_none hconnack _
  have hnone : pv.outgoing? = none ∧ pv.reply? = none := by
    rw [PacketVariant.outgoing?, PacketVariant.reply?, htype]
    exact ⟨rfl, rfl⟩
  have hforward : outgoings rest = outgoings s.toServer := by
    rw [hq, PacketVariant.outgoings_cons, hnone.1]
    rfl
  have hbackward : replies rest = replies s.toServer := by
    rw [hq, PacketVariant.replies_cons, hnone.2]
    rfl
  have hup : (({ s with toServer := rest } : Parties pb).serverActs t s.server.held []).up =
      s.up := by
    rw [up_serverActs, htraffic, Connection.idle, List.append_nil, List.append_nil, ite_self]
    simp only [Parties.up, hforward]
  have hdown : (({ s with toServer := rest } : Parties pb).serverActs t s.server.held []).down =
      s.down := by
    rw [down_serverActs, htraffic, Connection.idle, List.append_nil, List.append_nil, ite_self]
    simp only [Parties.down, hbackward]
  have hgood := h.toGood.serverTakes hq
  -- the invariant part by part
  refine ⟨⟨h.client, hsound, hgood.toServer, fun pv' hpv' => ?_, h.unjoined, fun pv' hpv' hacc => ?_,
    ?_⟩, ?_, ?_⟩
  · rcases mem_put hpv' with hpv' | hpv'
    · exact h.toClient pv' hpv'
    · obtain ⟨hplain, hnot⟩ := pv'.isAside_plain (haside pv' hpv').1 (haside pv' hpv').2
      refine ⟨hplain, fun htype => hnot ?_⟩
      rw [PacketVariant.isHandshake, htype]
      rfl
  · rcases mem_put hpv' with hpv' | hpv'
    · exact h.present pv' hpv' hacc
    · exact absurd hacc (accepts_eq_zero.mp haccepts pv' hpv')
  · rw [hlink]
    exact hstage.serverSends (.inl hstatus) haccepts (fun _ => hsilent) fun _ => hsilent.2
  · rw [hup]
    refine h.up.change (fun hs => ⟨hlive, hs.2⟩) fun _ hs => ?_
    cases hstatus.symm.trans hs.2
  · rw [hdown]
    refine h.down.change (fun hs => ?_) fun _ hs => ⟨hlive, hs.2.imp_right ?_⟩
    · cases hstatus.symm.trans hs.2
    · exact And.imp_right fun hne heq => hne ((accepts_put haccepts).trans heq)

/-! ### CONNACK -/

/-- The server answers, and sends what it keeps. -/
theorem Inv.connackSent (h : Inv ver s) (hp : pv.Plain ver) (htype : pv.type = .connack)
    (hsession : pv.acceptsConnection → ¬ pv.view.sessionPresent → ¬ s.joined)
    (hpass : s.server.conn.passesChecks pv) :
    Inv ver (s.serverActs (s.server.conn.send pv) (s.server.heldAfter (.send pv)) []) := by
  obtain ⟨hunlimited, htraffic, hsends, hstatus⟩ :=
    Connection.sendConnack_turn h.server.unlimited hp htype hpass
  have hsound := h.server.began (by rw [PacketVariant.isHandshake, htype]; rfl) hunlimited
  have hconnecting : s.server.conn.status = .connecting := by
    have hallowed := (Bool.and_eq_true_iff.mp hpass).1
    have hst := (Bool.and_eq_true_iff.mp (Bool.and_eq_true_iff.mp hallowed).1).2
    rw [htype] at hst
    exact of_decide_eq_true hst
  -- the stored packets follow the CONNACK, and none of them is a handshake
  have hresent := Connection.resent_plain h.server.unlimited
  obtain ⟨-, haccepts, hconnack⟩ := no_handshake fun r hr => (hresent r hr).2
  have hreplies := (Connection.outgoings_resent s.server.conn).2
  have hstage := h.stage
  rw [hconnecting] at hstage
  have hstatus' : (s.server.conn.send pv).conn.status ≠ .connecting := by
    rw [hstatus]
    split <;> exact ConnectionStatus.noConfusion
  obtain ⟨hstage, hsilent⟩ := hstage.connackSent htype hstatus' haccepts hreplies
  have hconn : (s.server.conn.send pv).conn = (s.server.next (.send pv)).conn := rfl
  generalize ht : s.server.conn.send pv = t at *
  have hmem : ∀ pv' ∈ (s.serverActs t (s.server.heldAfter (.send pv)) []).toClient,
      pv' ∈ s.toClient ∨ pv' = pv ∨ pv' ∈ s.server.conn.resent := by
    intro pv' hpv'
    rcases mem_put hpv' with hpv' | hpv'
    · exact .inl hpv'
    · rw [hsends] at hpv'
      exact .inr (List.mem_cons.mp hpv')
  refine ⟨⟨h.client, ?_, h.toServer, fun pv' hpv' => ?_, h.unjoined, fun pv' hpv' => ?_, ?_⟩, ?_, ?_⟩
  · rw [serverActs, hconn]
    exact hsound
  · rcases hmem pv' hpv' with hpv' | rfl | hpv'
    · exact h.toClient pv' hpv'
    · refine ⟨hp, ?_⟩
      rw [htype]
      exact ControlPacketType.noConfusion
    · refine ⟨(hresent pv' hpv').1, fun htype => (hresent pv' hpv').2 ?_⟩
      rw [PacketVariant.isHandshake, htype]
      rfl
  · rcases hmem pv' hpv' with hpv' | rfl | hpv'
    · exact h.present pv' hpv'
    · exact hsession
    · exact fun hacc => absurd hacc (accepts_eq_zero.mp haccepts pv' hpv')
  -- the link has left its first stage
  · have hstage' := hstage
    rw [← hsends] at hstage'
    exact hstage'
  -- the messages of the client are not touched, those of the server are sent again
  · have hup : (s.serverActs t (s.server.heldAfter (.send pv)) []).up = s.up := by
      rw [up_serverActs, htraffic, Connection.idle, List.append_nil, List.append_nil, ite_self]
      rfl
    rw [hup]
    refine h.up.change (fun hs => ?_) fun hf hs => ?_
    · obtain ⟨-, -, hclient⟩ := hsilent (live_of_sent hs.1)
      exact absurd hs.2 hclient
    · -- the client has sent nothing yet
      obtain ⟨hnone, -, hclient⟩ := hsilent (live_of_sent hs.1)
      rcases hf with hf | hf
      · exact absurd hf.2 hclient
      · exact absurd hnone.1 hf
  · have hone : (s.serverActs t (s.server.heldAfter (.send pv)) []).down =
        { s.down with
          forward := if s.link ≠ .closed then s.down.forward ++ s.down.kept
            else s.down.forward } := by
      rw [down_serverActs, htraffic, List.append_nil]
      rfl
    rw [hone]
    by_cases hlive : s.link ≠ .closed
    · obtain ⟨hup, hdown, -⟩ := hsilent hlive
      have hforward : s.down.forward = [] := hdown.1
      rw [if_pos hlive, hforward]
      exact h.down.resume hforward hup.2
    · rw [if_neg hlive]
      have hclosed : ∀ {p : Prop}, (s.serverActs t (s.server.heldAfter (.send pv)) []).link ≠ .closed →
          p := fun hl => absurd (live_of_sent hl) hlive
      exact h.down.change (fun hs => hclosed hs.1) fun _ hs => hclosed hs.1

/-- The client is told that the server has accepted the connection, and sends what it keeps. -/
theorem Inv.connackTaken (h : Inv ver s) (hq : s.toClient = pv :: rest)
    (haccepts : pv.acceptsConnection) (hconnecting : s.client.conn.status = .connecting) :
    Inv ver (s.step .toClient) := by
  have hp := (h.toClient pv (hq ▸ List.mem_cons_self)).1
  have hstage := h.stage
  rw [hq] at hstage
  have hfirst : ¬ pv.view.sessionPresent → s.client.conn.store.elems = [] := by
    intro hpresent
    have hj := h.present pv (hq ▸ List.mem_cons_self) haccepts hpresent
    exact List.map_eq_nil_iff.mp (h.unjoined hj).1
  obtain ⟨hunlimited, hplain, htraffic, hstatus⟩ :=
    Connection.recvConnack_turn h.client.unlimited hp haccepts hconnecting hfirst
  have hsound := h.client.received hp hunlimited
  obtain ⟨hup, hreplies, hnone, hlive, hstage⟩ := hstage.accept haccepts
  have hjoined : (s.joined || pv.acceptsConnection &&
      decide (s.client.conn.status = ConnectionStatus.connecting)) = true := by
    rw [haccepts, hconnecting, decide_eq_true rfl]
    exact Bool.or_true _
  rw [step_toClient hq, hjoined]
  -- the client resends what it kept before it hears anything
  generalize ht : s.client.conn.processRecvDecoded pv = t at *
  obtain ⟨hconnects, -, hconnack⟩ := no_handshake fun r hr => (hplain r hr).2
  have hlink : ((s.taken rest true).clientActs t s.client.held []).link = s.link :=
    clientSent_of_none hconnects _
  have htype : pv.type = .connack := of_decide_eq_true (Bool.and_eq_true_iff.mp haccepts).1
  have hquiet : pv.outgoing? = none ∧ pv.reply? = none := by
    rw [PacketVariant.outgoing?, PacketVariant.reply?, htype]
    exact ⟨rfl, rfl⟩
  have hforward : outgoings rest = outgoings s.toClient := by
    rw [hq, PacketVariant.outgoings_cons, hquiet.1]
    rfl
  have hbackward : replies rest = replies s.toClient := by
    rw [hq, PacketVariant.replies_cons, hquiet.2]
    rfl
  have hup' : ((s.taken rest true).clientActs t s.client.held []).up =
      { s.up with forward := s.up.kept } := by
    have hnone : s.up.forward = [] := hup.1
    rw [up_clientActs, htraffic, if_pos (by exact hlive), List.append_nil]
    change ({ s.up with
      backward := replies rest, forward := s.up.forward ++ s.up.kept } : Direction) = _
    rw [hbackward, hnone]
    rfl
  have hdown : ((s.taken rest true).clientActs t s.client.held []).down = s.down := by
    rw [down_clientActs, htraffic, Connection.idle, List.append_nil, List.append_nil, ite_self]
    change ({ s.down with forward := outgoings rest } : Direction) = _
    rw [hforward]
    rfl
  -- the invariant part by part
  refine ⟨⟨hsound, h.server, fun pv' hpv' => ?_,
    fun pv' hpv' => h.toClient pv' (hq ▸ List.mem_cons_of_mem _ hpv'), fun hj => absurd rfl hj,
    fun pv' hpv' hacc => absurd hacc (accepts_eq_zero.mp hnone pv' hpv'), ?_⟩, ?_, ?_⟩
  · rcases mem_put hpv' with hpv' | hpv'
    · exact h.toServer pv' hpv'
    · exact ⟨(hplain pv' hpv').1, hconnack pv' hpv'⟩
  · rw [hlink]
    exact hstage.clientSends (.inl hstatus) hconnects fun hne => absurd rfl hne
  -- the upward lane starts again from what was kept
  · rw [hup']
    refine h.up.resume hup.1 ?_
    change replies s.toClient = []
    rw [hq]
    exact hreplies
  · rw [hdown]
    refine h.down.change (fun hs => ⟨hlive, hs.2⟩) fun _ _ => ⟨hlive, .inr ⟨hconnecting, ?_⟩⟩
    rw [hq, accepts_cons, if_pos haccepts]
    exact Nat.succ_ne_zero _

/-! ### Runs -/

/-- What the client sends, and what the server sends, to begin a connection -/
theorem sent_connect (hhandshake : pv.isHandshake) {c : Connection .client pb}
    (hpass : c.passesChecks pv) : pv.type = .connect := by
  have htype : pv.type = .connect ∨ pv.type = .connack := by
    simpa [PacketVariant.isHandshake] using hhandshake
  have hallowed := (Bool.and_eq_true_iff.mp hpass).1
  have hclass := (Bool.and_eq_true_iff.mp (Bool.and_eq_true_iff.mp hallowed).1).1
  refine htype.resolve_right fun htype => ?_
  cases pv <;> cases htype <;> cases hclass

/-- Of the handshakes a server sends only CONNACK. -/
theorem sent_connack (hhandshake : pv.isHandshake) {c : Connection .server pb}
    (hpass : c.passesChecks pv) : pv.type = .connack := by
  have htype : pv.type = .connect ∨ pv.type = .connack := by
    simpa [PacketVariant.isHandshake] using hhandshake
  have hallowed := (Bool.and_eq_true_iff.mp hpass).1
  have hclass := (Bool.and_eq_true_iff.mp (Bool.and_eq_true_iff.mp hallowed).1).1
  refine htype.resolve_left fun htype => ?_
  cases pv <;> cases htype <;> cases hclass

/-- A packet that begins a connection is no message. -/
theorem handshake_offers {role : Role} (hhandshake : pv.isHandshake) (c : Connection role pb) :
    c.offers (.send pv) = [] := by
  refine if_neg fun hall => ?_
  rw [PacketVariant.isHandshake, hall.1] at hhandshake
  cases hhandshake

/-- A handshake is a packet that is sent. -/
theorem handshake?_eq_some {op : Connection.Op pb} (h : handshake? op = some pv) :
    op = .send pv ∧ pv.isHandshake := by
  unfold handshake? at h
  split at h
  · split at h
    · next hhandshake =>
      obtain rfl := Option.some.inj h
      exact ⟨rfl, hhandshake⟩
    · cases h
  · cases h

/-- Only a PUBLISH that is sent offers a message. -/
theorem offers_publishes {role : Role} {op : Connection.Op pb} {c : Connection role pb}
    (h : c.offers op ≠ []) : publishes op := by
  cases op with
  | send pv =>
    by_contra hnot
    refine h (if_neg fun hall => hnot ?_)
    rw [publishes, hall.1, hall.2.1]
    rfl
  | _ => exact absurd rfl h

/-- A call of the client -/
theorem Inv.clientStep (h : Inv ver s) {op : Connection.Op pb} (hop : s.ClientObeys ver op) :
    Inv ver (s.step (.client op)) := by
  cases hbegins : handshake? op with
  | none =>
    obtain ⟨hpermits, hjoined⟩ := hop.2 hbegins
    obtain ⟨hsound, hcalm, hturn⟩ := Connection.call_turn h.client hpermits
    exact h.clientCall hcalm hturn hsound fun hne => hjoined (offers_publishes hne)
  | some pv =>
    obtain ⟨hp, hlink⟩ := hop.1 pv hbegins
    obtain ⟨rfl, hhandshake⟩ := handshake?_eq_some hbegins
    by_cases hpass : s.client.conn.passesChecks pv = true
    · have hsent := h.connectSent hp (sent_connect hhandshake hpass) hlink hpass
      rwa [← handshake_offers hhandshake s.client.conn] at hsent
    · obtain ⟨haside, hoffers⟩ := Connection.refused_aside h.client.unlimited hpass
      obtain ⟨hcalm, hturn⟩ := haside.callTurn
      rw [← hoffers] at hturn
      exact h.clientCall hcalm hturn (h.client.began hhandshake haside.unlimited)
        fun hne => absurd hoffers hne

/-- A call of the server -/
theorem Inv.serverStep (h : Inv ver s) {op : Connection.Op pb} (hop : s.ServerObeys ver op) :
    Inv ver (s.step (.server op)) := by
  cases hbegins : handshake? op with
  | none =>
    obtain ⟨hsound, hcalm, hturn⟩ := Connection.call_turn h.server (hop.2 hbegins)
    exact h.serverCall hcalm hturn hsound
  | some pv =>
    obtain ⟨hp, hsession⟩ := hop.1 pv hbegins
    obtain ⟨rfl, hhandshake⟩ := handshake?_eq_some hbegins
    by_cases hpass : s.server.conn.passesChecks pv = true
    · have hsent := h.connackSent hp (sent_connack hhandshake hpass) hsession hpass
      rwa [← handshake_offers hhandshake s.server.conn] at hsent
    · obtain ⟨haside, hoffers⟩ := Connection.refused_aside h.server.unlimited hpass
      obtain ⟨hcalm, hturn⟩ := haside.callTurn
      rw [← hoffers] at hturn
      exact h.serverCall hcalm hturn (h.server.began hhandshake haside.unlimited)

/-- A packet arrives at the client. -/
theorem Inv.clientStepRecv (h : Inv ver s) : Inv ver (s.step .toClient) := by
  cases hq : s.toClient with
  | nil =>
    rw [step, hq]
    exact h
  | cons pv rest =>
    obtain ⟨hp, hconnect⟩ := h.toClient pv (hq ▸ List.mem_cons_self)
    by_cases htype : pv.type = .connack
    · by_cases haccepts : pv.acceptsConnection ∧ s.client.conn.status = .connecting
      · exact h.connackTaken hq haccepts.1 haccepts.2
      · obtain ⟨haside, -⟩ := Connection.recvConnack_refused h.client.unlimited htype haccepts
        have hnone : pv.outgoing? = none ∧ pv.reply? = none := by
          rw [PacketVariant.outgoing?, PacketVariant.reply?, htype]
          exact ⟨rfl, rfl⟩
        obtain ⟨hcalm, hturn⟩ := haside.turn (.aside hnone.1 hnone.2)
        exact h.clientRecv hq hcalm hturn haccepts
    · have hnot : ¬ pv.isHandshake := by
        simp [PacketVariant.isHandshake, htype, hconnect]
      obtain ⟨hcalm, hturn⟩ := Connection.recv_turn h.client.unlimited h.client.ackable hp hnot
      exact h.clientRecv hq hcalm hturn fun hacc =>
        htype (of_decide_eq_true (Bool.and_eq_true_iff.mp hacc.1).1)

/-- A packet arrives at the server. -/
theorem Inv.serverStepRecv (h : Inv ver s) : Inv ver (s.step .toServer) := by
  cases hq : s.toServer with
  | nil =>
    rw [step, hq]
    exact h
  | cons pv rest =>
    obtain ⟨hp, hconnack⟩ := h.toServer pv (hq ▸ List.mem_cons_self)
    by_cases htype : pv.type = .connect
    · exact h.connectTaken hq htype
    · have hnot : ¬ pv.isHandshake := by
        simp [PacketVariant.isHandshake, htype, hconnack]
      obtain ⟨hcalm, hturn⟩ := Connection.recv_turn h.server.unlimited h.server.ackable hp hnot
      exact h.serverRecv hq hcalm hturn

/-- A new line -/
theorem Inv.dial (h : Inv ver s) : Inv ver (s.step .dial) := by
  rw [step]
  split
  · next hall =>
    obtain ⟨hlink, hclient, hserver⟩ := hall
    have hstage := h.stage
    rw [hlink] at hstage
    obtain ⟨hup, hdown⟩ := hstage.closed_empty
    have hnone : ∀ {st : ConnectionStatus}, st = .disconnected → st ≠ .connected := by
      rintro st rfl
      exact ConnectionStatus.noConfusion
    refine ⟨⟨h.client, h.server, h.toServer, h.toClient, h.unjoined, h.present, ?_⟩, ?_, ?_⟩
    · change Stage _ s.client.conn.status s.server.conn.status s.toServer s.toClient
      rw [hclient, hserver, hup, hdown]
      exact .fresh ⟨rfl, rfl⟩ ⟨rfl, rfl⟩ rfl rfl
    · exact h.up.change (fun hs => absurd hs.2 (hnone hclient))
        fun _ hs => absurd hs.2 (hnone hserver)
    · refine h.down.change (fun hs => absurd hs.2 (hnone hserver)) fun _ hs => ?_
      rcases hs.2 with hs | ⟨-, hs⟩
      · exact absurd hs (hnone hclient)
      · exact absurd (by rw [hdown]; rfl) hs
  · exact h

/-- The line breaks. -/
theorem Inv.cut (h : Inv ver s) : Inv ver (s.step .cut) where
  client := h.client
  server := h.server
  toServer _ hpv := absurd hpv List.not_mem_nil
  toClient _ hpv := absurd hpv List.not_mem_nil
  unjoined := h.unjoined
  present _ hpv := absurd hpv List.not_mem_nil
  stage := .closed
  up := h.up.cut fun hs => hs.1 rfl
  down := h.down.cut fun hs => hs.1 rfl

/-- Every step of a party that obeys the rules keeps the invariant. -/
theorem step_inv {a : Action pb} (h : Inv ver s) (ha : s.Obeys ver a) : Inv ver (s.step a) := by
  cases a with
  | client op => exact h.clientStep ha
  | server op => exact h.serverStep ha
  | toServer => exact h.serverStepRecv
  | toClient => exact h.clientStepRecv
  | dial => exact h.dial
  | cut => exact h.cut

/-- A new connection is sound. -/
theorem make_sound (role : Role) (pb : PacketIdBytes) (hver : ver ≠ .undetermined) :
    Connection.Sound ver (⟨{ Connection.make role pb ver with autoPubResponse := true }, ∅⟩ :
      Connection.Owned role pb) where
  unlimited :=
    { determined := hver
      protocolVersion := rfl
      topicAliasSend := rfl
      topicAliasRecv := rfl
      publishSendMax := rfl
      publishRecvMax := rfl
      maximumPacketSizeSend := rfl
      autoPubResponse := rfl
      unstarted := fun _ => ⟨rfl, rfl, rfl⟩
      connecting := fun _ => ⟨rfl, rfl⟩
      stored := fun _ he => absurd he List.not_mem_nil }
  accounted := (Connection.Owned.make_accounted ver).congr rfl rfl
  ackable := (Connection.make_ackable role pb ver).congr rfl rfl (fun _ he => he) rfl

/-- Two new connections without a line -/
theorem init_inv (pb : PacketIdBytes) (hver : ver ≠ .undetermined) : Inv ver (init pb ver) where
  client := make_sound .client pb hver
  server := make_sound .server pb hver
  toServer _ hpv := absurd hpv List.not_mem_nil
  toClient _ hpv := absurd hpv List.not_mem_nil
  unjoined _ := ⟨rfl, ConnectionStatus.noConfusion⟩
  present _ hpv := absurd hpv List.not_mem_nil
  stage := .closed
  up := ⟨false, false, Follows.init.change (fun hs => hs.1 rfl) fun _ hs => hs.1 rfl⟩
  down := ⟨false, false, Follows.init.change (fun hs => hs.1 rfl) fun _ hs => hs.1 rfl⟩

/-- Every state of a run in which the applications keep to the rules -/
theorem run_inv (hver : ver ≠ .undetermined) {as : List (Action pb)}
    (hok : Run.All step (Obeys ver) (init pb ver) as) :
    Inv ver (Run.final step (init pb ver) as) :=
  Run.final_invariant (fun _ _ ha h => step_inv h ha) (init_inv pb hver) hok

end Parties

end AsyncMqtt
