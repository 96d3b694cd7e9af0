import AsyncMqtt.Spec.ExchangeDirection

/-!
# How a connection begins

A line between a client and a server: the client sends a CONNECT, the server a CONNACK, and
only then is there anything on the line that belongs to an exchange. A CONNACK that accepts
the connection is on its way while the packets of the server come after it.

## Key results

- `Stage.accept`: when a CONNACK arrives that accepts the connection, no packet of the client
  is on the line, and no answer to one
- `Stage.clientSends`, `Stage.serverSends`: what else is sent keeps to the stage
-/

namespace AsyncMqtt

/-- How far the two ends of a line are -/
inductive LinkState where
  | closed
  /-- no CONNECT was sent -/
  | fresh
  /-- a CONNECT was sent, and no CONNACK -/
  | requested
  /-- a CONNACK was sent -/
  | answered
  deriving DecidableEq

section

variable {pb : PacketIdBytes}

/-- The number of CONNECTs on a line -/
def connects (pvs : List (PacketVariant pb)) : Nat := pvs.countP fun pv => pv.type = .connect

/-- The number of CONNACKs on a line that accept the connection -/
def accepts (pvs : List (PacketVariant pb)) : Nat := pvs.countP PacketVariant.acceptsConnection

/-- Nothing of an exchange is on the line. -/
def Silent (pvs : List (PacketVariant pb)) : Prop := outgoings pvs = [] ∧ replies pvs = []

/-- What is sent is lost without a line. -/
def put (link : LinkState) (pvs new : List (PacketVariant pb)) : List (PacketVariant pb) :=
  if link ≠ .closed then pvs ++ new else pvs

/-- The line after packets of the client -/
def LinkState.clientSent (link : LinkState) (pvs : List (PacketVariant pb)) : LinkState :=
  if link = .fresh ∧ connects pvs ≠ 0 then .requested else link

/-- The line after packets of the server -/
def LinkState.serverSent (link : LinkState) (pvs : List (PacketVariant pb)) : LinkState :=
  if link = .requested ∧ ∃ pv ∈ pvs, pv.type = .connack then .answered else link

end

section

variable {pb : PacketIdBytes} {pvs pvs' up down new rest : List (PacketVariant pb)}
  {pv : PacketVariant pb} {link : LinkState}

/-- The CONNECTs of a longer list of packets -/
theorem connects_append (pvs pvs' : List (PacketVariant pb)) :
    connects (pvs ++ pvs') = connects pvs + connects pvs' := List.countP_append

/-- The accepting CONNACKs of a longer list of packets -/
theorem accepts_append (pvs pvs' : List (PacketVariant pb)) :
    accepts (pvs ++ pvs') = accepts pvs + accepts pvs' := List.countP_append

/-- The first packet may be a CONNECT. -/
theorem connects_cons (pv : PacketVariant pb) (pvs : List (PacketVariant pb)) :
    connects (pv :: pvs) = connects pvs + if pv.type = .connect then 1 else 0 := by
  rw [connects, List.countP_cons]
  simp [connects]

/-- The first packet may be an accepting CONNACK. -/
theorem accepts_cons (pv : PacketVariant pb) (pvs : List (PacketVariant pb)) :
    accepts (pv :: pvs) = accepts pvs + if pv.acceptsConnection then 1 else 0 := List.countP_cons

/-- No CONNECT among the packets -/
theorem connects_eq_zero : connects pvs = 0 ↔ ∀ pv ∈ pvs, pv.type ≠ .connect := by
  simp [connects, List.countP_eq_zero]

/-- No accepting CONNACK among the packets -/
theorem accepts_eq_zero : accepts pvs = 0 ↔ ∀ pv ∈ pvs, ¬ pv.acceptsConnection :=
  List.countP_eq_zero

/-- Packets that do not begin a connection -/
theorem no_handshake (h : ∀ pv ∈ pvs, ¬ pv.isHandshake) :
    connects pvs = 0 ∧ accepts pvs = 0 ∧ ∀ pv ∈ pvs, pv.type ≠ .connack := by
  have hconnack : ∀ pv ∈ pvs, pv.type ≠ .connack := by
    intro pv hpv htype
    exact h pv hpv (by rw [PacketVariant.isHandshake, htype]; rfl)
  refine ⟨connects_eq_zero.mpr fun pv hpv htype => ?_, accepts_eq_zero.mpr fun pv hpv haccepts => ?_,
    hconnack⟩
  · exact h pv hpv (by rw [PacketVariant.isHandshake, htype]; rfl)
  · exact hconnack pv hpv (of_decide_eq_true (Bool.and_eq_true_iff.mp haccepts).1)

/-- Without a CONNECT the link stays as it is. -/
theorem clientSent_of_none (h : connects new = 0) (link : LinkState) : link.clientSent new = link :=
  if_neg fun hall => hall.2 h

/-- Without a CONNACK the link stays as it is. -/
theorem serverSent_of_none (h : ∀ pv ∈ new, pv.type ≠ .connack) (link : LinkState) :
    link.serverSent new = link := by
  refine if_neg ?_
  rintro ⟨-, pv, hpv, htype⟩
  exact h pv hpv htype

/-- A link that is open was open before. -/
theorem live_of_sent (h : link.serverSent new ≠ .closed) : link ≠ .closed := by
  rintro rfl
  exact h (if_neg fun hall => LinkState.noConfusion hall.1)

/-- On an open link packets are put behind the others. -/
theorem put_of_ne (h : link ≠ .closed) (pvs new : List (PacketVariant pb)) :
    put link pvs new = pvs ++ new := if_pos h

/-- A packet on the line was there or is new. -/
theorem mem_put (h : pv ∈ put link pvs new) : pv ∈ pvs ∨ pv ∈ new := by
  unfold put at h
  split at h
  · exact List.mem_append.mp h
  · exact .inl h

/-- Without a new CONNECT their number stays. -/
theorem connects_put (h : connects new = 0) : connects (put link pvs new) = connects pvs := by
  unfold put
  split
  · rw [connects_append, h, Nat.add_zero]
  · rfl

/-- Without a new accepting CONNACK their number stays. -/
theorem accepts_put (h : accepts new = 0) : accepts (put link pvs new) = accepts pvs := by
  unfold put
  split
  · rw [accepts_append, h, Nat.add_zero]
  · rfl

/-- The messages on the line are put behind the others as well. -/
theorem outgoings_put (link : LinkState) (pvs new : List (PacketVariant pb)) :
    outgoings (put link pvs new) =
      if link ≠ .closed then outgoings pvs ++ outgoings new else outgoings pvs := by
  unfold put
  split
  · exact outgoings_append pvs new
  · rfl

/-- The replies on the line are put behind the others as well. -/
theorem replies_put (link : LinkState) (pvs new : List (PacketVariant pb)) :
    replies (put link pvs new) =
      if link ≠ .closed then replies pvs ++ replies new else replies pvs := by
  unfold put
  split
  · exact replies_append pvs new
  · rfl

/-- Packets that carry nothing, behind others that carry nothing -/
theorem Silent.append (h : Silent pvs) (h' : Silent pvs') : Silent (pvs ++ pvs') := by
  refine ⟨?_, ?_⟩
  · rw [outgoings_append, h.1, h'.1, List.append_nil]
  · rw [replies_append, h.2, h'.2, List.append_nil]

/-- The rest carries nothing. -/
theorem Silent.tail (h : Silent (pv :: rest)) : Silent rest := by
  rw [Silent, PacketVariant.outgoings_cons, PacketVariant.replies_cons] at h
  exact ⟨(List.append_eq_nil_iff.mp h.1).2, (List.append_eq_nil_iff.mp h.2).2⟩

/-- The first packet carries nothing. -/
theorem Silent.head (h : Silent (pv :: rest)) : pv.outgoing? = none ∧ pv.reply? = none := by
  rw [Silent, PacketVariant.outgoings_cons, PacketVariant.replies_cons] at h
  obtain ⟨hout, hreply⟩ := h
  exact ⟨Option.toList_eq_nil_iff.mp (List.append_eq_nil_iff.mp hout).1,
    Option.toList_eq_nil_iff.mp (List.append_eq_nil_iff.mp hreply).1⟩

/-- What each stage says of the ends and of the packets on the line. -/
inductive Stage : LinkState → ConnectionStatus → ConnectionStatus → List (PacketVariant pb) →
    List (PacketVariant pb) → Prop where
  | closed {client server : ConnectionStatus} : Stage .closed client server [] []
  | fresh {up down : List (PacketVariant pb)} (hup : Silent up) (hdown : Silent down)
      (hconnect : connects up = 0) (haccept : accepts down = 0) :
      Stage .fresh .disconnected .disconnected up down
  | requested {client server : ConnectionStatus} {up down : List (PacketVariant pb)}
      (hclient : client ≠ .connected) (hserver : server ≠ .connected) (hup : Silent up)
      (hdown : Silent down) (honce : connects up ≤ 1)
      (hconnect : connects up ≠ 0 → server = .disconnected) (haccept : accepts down = 0) :
      Stage .requested client server up down
  | answered {client server : ConnectionStatus} {up down : List (PacketVariant pb)}
      (hserver : server ≠ .connecting) (hconnect : connects up = 0) (haccept : accepts down = 0) :
      Stage .answered client server up down
  /-- the CONNACK that accepts the connection is on its way -/
  | accepted {client server : ConnectionStatus} {up down pre rest : List (PacketVariant pb)}
      {pv : PacketVariant pb} (hclient : client ≠ .connected) (hserver : server ≠ .connecting)
      (hconnect : connects up = 0) (hup : Silent up) (hdown : down = pre ++ pv :: rest)
      (hpv : pv.acceptsConnection) (hreplies : replies down = []) (hpre : outgoings pre = [])
      (hbefore : accepts pre = 0) (hafter : accepts rest = 0) : Stage .answered client server up down

namespace Stage

variable {client server client' server' : ConnectionStatus}

/-- What the client sends that begins no connection -/
theorem clientSends (h : Stage link client server up down)
    (hstatus : client' = client ∨ client' = .disconnected) (hnew : connects new = 0)
    (hsilent : client ≠ .connected → Silent new) :
    Stage link client' server (put link up new) down := by
  -- the client stays in its status, or goes to disconnected
  have hne : ∀ {st}, client ≠ st → st ≠ .disconnected → client' ≠ st := by
    intro st hc hst heq
    rcases hstatus with rfl | rfl
    · exact hc heq
    · exact hst heq.symm
  -- nothing that is sent here begins an attempt
  cases h with
  | closed => exact .closed
  | fresh hup hdown hconnect haccept =>
    have hsame : client' = .disconnected := hstatus.elim id id
    subst hsame
    exact .fresh (hup.append (hsilent ConnectionStatus.noConfusion)) hdown
      ((connects_put hnew).trans hconnect) haccept
  | requested hclient hserver hup hdown honce hconnect haccept =>
    have hsame : connects (put .requested up new) = connects up := connects_put hnew
    exact .requested (hne hclient ConnectionStatus.noConfusion) hserver
      (hup.append (hsilent hclient)) hdown (hsame ▸ honce) (hsame ▸ hconnect) haccept
  | answered hserver hconnect haccept =>
    exact .answered hserver ((connects_put hnew).trans hconnect) haccept
  | accepted hclient hserver hconnect hup hdown hpv hreplies hpre hbefore hafter =>
    exact .accepted (hne hclient ConnectionStatus.noConfusion) hserver
      ((connects_put hnew).trans hconnect) (hup.append (hsilent hclient)) hdown hpv hreplies
      hpre hbefore hafter

/-- What the server sends that begins no connection -/
theorem serverSends (h : Stage link client server up down)
    (hstatus : server' = server ∨ server' = .disconnected) (hnew : accepts new = 0)
    (hsilent : server ≠ .connected → Silent new) (hreplies : accepts down ≠ 0 → replies new = []) :
    Stage link client server' up (put link down new) := by
  have hne : ∀ {st}, server ≠ st → st ≠ .disconnected → server' ≠ st := by
    intro st hc hst heq
    rcases hstatus with rfl | rfl
    · exact hc heq
    · exact hst heq.symm
  -- nothing new is a handshake, so that the stage is kept
  cases h with
  | closed => exact .closed
  | fresh hup hdown hconnect haccept =>
    have hsame : server' = .disconnected := hstatus.elim id id
    subst hsame
    exact .fresh hup (hdown.append (hsilent ConnectionStatus.noConfusion)) hconnect
      ((accepts_put hnew).trans haccept)
  | requested hclient hserver hup hdown honce hconnect haccept =>
    refine .requested hclient (hne hserver ConnectionStatus.noConfusion) hup
      (hdown.append (hsilent hserver)) honce (fun hwaits => ?_)
      ((accepts_put hnew).trans haccept)
    rcases hstatus with rfl | rfl
    · exact hconnect hwaits
    · rfl
  | answered hserver hconnect haccept =>
    exact .answered (hne hserver ConnectionStatus.noConfusion) hconnect
      ((accepts_put hnew).trans haccept)
  -- the new packets are behind the CONNACK
  | @accepted _ _ _ _ pre rest pv hclient hserver hconnect hup hdown hpv hnone hpre hbefore hafter =>
    subst hdown
    have hassoc : (pre ++ pv :: rest) ++ new = pre ++ pv :: (rest ++ new) := List.append_assoc ..
    have hnew' : replies new = [] :=
      hreplies (by rw [accepts_append, accepts_cons, if_pos hpv]; omega)
    rw [put_of_ne LinkState.noConfusion, hassoc]
    refine .accepted hclient (hne hserver ConnectionStatus.noConfusion) hconnect hup rfl hpv ?_ hpre
      hbefore (by rw [accepts_append, hafter, hnew])
    rw [← hassoc, replies_append, hnone, hnew', List.append_nil]

/-- A packet of the server is taken from the line. -/
theorem clientTakes (h : Stage link client server up (pv :: rest)) :
    Stage link client server up rest := by
  have haccepts : accepts (pv :: rest) = 0 → accepts rest = 0 := by
    rw [accepts_cons]
    omega
  cases h with
  | fresh hup hdown hconnect haccept => exact .fresh hup hdown.tail hconnect (haccepts haccept)
  | requested hclient hserver hup hdown honce hconnect haccept =>
    exact .requested hclient hserver hup hdown.tail honce hconnect (haccepts haccept)
  | answered hserver hconnect haccept => exact .answered hserver hconnect (haccepts haccept)
  | @accepted _ _ _ _ pre rest' pv' hclient hserver hconnect hup hdown hpv hreplies hpre hbefore hafter =>
    -- the accepting CONNACK is the packet that is taken, or comes later
    cases pre with
    | nil =>
      obtain ⟨rfl, rfl⟩ := List.cons.inj hdown
      exact .answered hserver hconnect hafter
    | cons x pre =>
      obtain ⟨rfl, rfl⟩ := List.cons.inj hdown
      rw [PacketVariant.outgoings_cons] at hpre
      rw [PacketVariant.replies_cons] at hreplies
      rw [accepts_cons] at hbefore
      exact .accepted hclient hserver hconnect hup rfl hpv (List.append_eq_nil_iff.mp hreplies).2
        (List.append_eq_nil_iff.mp hpre).2 (by omega) hafter

/-- A packet of the client is taken from the line. -/
theorem serverTakes (h : Stage link client server (pv :: rest) down) :
    Stage link client server rest down := by
  have hle : connects rest ≤ connects (pv :: rest) := by
    rw [connects_cons]
    omega
  cases h with
  | fresh hup hdown hconnect haccept => exact .fresh hup.tail hdown (by omega) haccept
  | requested hclient hserver hup hdown honce hconnect haccept =>
    exact .requested hclient hserver hup.tail hdown (by omega) (fun hne => hconnect (by omega)) haccept
  | answered hserver hconnect haccept => exact .answered hserver (by omega) haccept
  | accepted hclient hserver hconnect hup hdown hpv hreplies hpre hbefore hafter =>
    exact .accepted hclient hserver (by omega) hup.tail hdown hpv hreplies hpre hbefore hafter

/-- A link with a packet for the server is open. -/
theorem live_of_down (h : Stage link client server up (pv :: rest)) : link ≠ .closed := by
  cases h <;> exact LinkState.noConfusion

/-- A link with a packet for the client is open. -/
theorem live_of_up (h : Stage link client server (pv :: rest) down) : link ≠ .closed := by
  cases h <;> exact LinkState.noConfusion

/-- On a closed link there are no packets. -/
theorem closed_empty (h : Stage .closed client server up down) : up = [] ∧ down = [] := by
  cases h with
  | closed => exact ⟨rfl, rfl⟩

/-- On a fresh link nothing was accepted. -/
theorem fresh_accepts (h : Stage .fresh client server up down) : accepts down = 0 := by
  cases h with
  | fresh hup hdown hconnect haccept => exact haccept

/-- While the connection is not accepted, nothing of the client is on the line. -/
theorem upSilent (h : Stage link client server up down) (haccepts : accepts down ≠ 0) :
    Silent up ∧ client ≠ .connected := by
  cases h with
  | closed => exact absurd rfl haccepts
  | fresh hup hdown hconnect haccept => exact absurd haccept haccepts
  | requested hclient hserver hup hdown honce hconnect haccept => exact absurd haccept haccepts
  | answered hserver hconnect haccept => exact absurd haccept haccepts
  | accepted hclient hserver hconnect hup => exact ⟨hup, hclient⟩

/-- What comes before the CONNACK belongs to no message. -/
theorem head_quiet (h : Stage link client server up (pv :: rest)) (haccepts : accepts (pv :: rest) ≠ 0) :
    pv.outgoing? = none := by
  cases h with
  | fresh hup hdown hconnect haccept => exact absurd haccept haccepts
  | requested hclient hserver hup hdown honce hconnect haccept => exact absurd haccept haccepts
  | answered hserver hconnect haccept => exact absurd haccept haccepts
  | @accepted _ _ _ _ pre rest' pv' hclient hserver hconnect hup hdown hpv hreplies hpre hbefore hafter =>
    cases pre with
    | nil =>
      obtain ⟨rfl, rfl⟩ := List.cons.inj hdown
      have htype : pv.type = .connack := of_decide_eq_true (Bool.and_eq_true_iff.mp hpv).1
      rw [PacketVariant.outgoing?, htype]
    | cons x pre =>
      obtain ⟨rfl, rfl⟩ := List.cons.inj hdown
      rw [PacketVariant.outgoings_cons] at hpre
      exact Option.toList_eq_nil_iff.mp (List.append_eq_nil_iff.mp hpre).1

/-- The client asks for a connection. -/
theorem connectSent (h : Stage .fresh client server up down) (hpv : pv.type = .connect) :
    Stage .requested .connecting server (up ++ [pv]) down := by
  cases h with
  | fresh hup hdown hconnect haccept =>
    have hone : Silent [pv] := by
      rw [Silent, PacketVariant.outgoings_cons, PacketVariant.replies_cons, PacketVariant.outgoing?,
        PacketVariant.reply?, hpv]
      exact ⟨rfl, rfl⟩
    refine .requested ConnectionStatus.noConfusion ConnectionStatus.noConfusion (hup.append hone)
      hdown ?_ (fun _ => rfl) haccept
    rw [connects_append, hconnect, connects_cons, if_pos hpv]
    exact Nat.le_refl _

/-- The server gets a CONNECT. -/
theorem connectTaken (h : Stage link client server (pv :: rest) down) (hpv : pv.type = .connect) :
    server = .disconnected ∧ Stage link client .connecting rest down := by
  have hcons : connects (pv :: rest) = connects rest + 1 := by
    rw [connects_cons, if_pos hpv]
  cases h with
  | fresh hup hdown hconnect haccept => omega
  | requested hclient hserver hup hdown honce hconnect haccept =>
    exact ⟨hconnect (by omega), .requested hclient ConnectionStatus.noConfusion hup.tail hdown
      (by omega) (fun hne => by omega) haccept⟩
  | answered hserver hconnect haccept => omega
  | accepted hclient hserver hconnect => omega

/-- The server answers the CONNECT, and sends what it keeps. -/
theorem connackSent (h : Stage link client .connecting up down) (hpv : pv.type = .connack)
    (hserver : server' ≠ .connecting) (hnew : accepts new = 0) (hreplies : replies new = []) :
    Stage (link.serverSent (pv :: new)) client server' up (put link down (pv :: new)) ∧
      (link ≠ .closed → Silent up ∧ Silent down ∧ client ≠ .connected) := by
  cases h with
  | closed => exact ⟨.closed, fun hne => absurd rfl hne⟩
  | requested hclient hserver' hup hdown honce hconnect haccept =>
    -- the server is connecting, so the CONNECT has been taken
    have hnone : connects up = 0 := by
      by_contra hne
      cases hconnect hne
    have hlink : LinkState.requested.serverSent (pv :: new) = .answered :=
      if_pos ⟨rfl, pv, List.mem_cons_self, hpv⟩
    have hpv' : pv.reply? = none := by rw [PacketVariant.reply?, hpv]
    refine ⟨?_, fun _ => ⟨hup, hdown, hclient⟩⟩
    rw [hlink, put_of_ne LinkState.noConfusion]
    -- the CONNACK accepts, or the attempt is over
    by_cases haccepts : pv.acceptsConnection = true
    · refine .accepted hclient hserver hnone hup rfl haccepts ?_ hdown.1 haccept hnew
      rw [replies_append, hdown.2, PacketVariant.replies_cons, hpv', hreplies]
      rfl
    · refine .answered hserver hnone ?_
      rw [accepts_append, haccept, accepts_cons, hnew, if_neg haccepts]
  | answered hserver' => exact absurd rfl hserver'
  | accepted _ hserver' => exact absurd rfl hserver'

/-- The client gets the CONNACK that accepts the connection. -/
theorem accept (h : Stage link client server up (pv :: rest)) (hpv : pv.acceptsConnection) :
    Silent up ∧ replies (pv :: rest) = [] ∧ accepts rest = 0 ∧ link ≠ .closed ∧
      Stage link .connected server up rest := by
  have hcons : accepts (pv :: rest) = accepts rest + 1 := by
    rw [accepts_cons, if_pos hpv]
  cases h with
  | fresh hup hdown hconnect haccept => omega
  | requested hclient hserver hup hdown honce hconnect haccept => omega
  | answered hserver hconnect haccept => omega
  | @accepted _ _ _ _ pre rest' pv' hclient hserver hconnect hup hdown hpv' hreplies hpre hbefore hafter =>
    -- the packet is the accepting one, since there is only one
    cases pre with
    | nil =>
      obtain ⟨rfl, rfl⟩ := List.cons.inj hdown
      exact ⟨hup, hreplies, hafter, LinkState.noConfusion, .answered hserver hconnect hafter⟩
    | cons x pre =>
      obtain ⟨rfl, rfl⟩ := List.cons.inj hdown
      rw [accepts_cons, if_pos hpv] at hbefore
      omega

end Stage

end

end AsyncMqtt
