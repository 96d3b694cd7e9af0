import AsyncMqtt.ForStd.Keyed
import AsyncMqtt.ForStd.Run
import AsyncMqtt.Native.Client

/-!
# Requests and their responses

An operation of a client that completes without an error has got its response, one whose
response arrives completes with it, and no operation reads a response that is not there.

The table in which they meet has an entry for a request only after `async_send` has completed,
and only if no other entry has its packet identifier. A response that arrives before is lost, and
so is one for which the entry is still that of an earlier request. Cancellation by the
application posts the same handler as a response does, and a connection error takes the
entry away from a handler that has been posted.

## Key results

- `ClientLog.reports_of_orderly`: what holds in runs without these
- `ClientLog.response_before_sent`: an operation that never completes
- `ClientLog.cancelled_subscribe`: a response that is read although there is none
- `ClientLog.cancelled_publish`: a PUBLISH that succeeds without a response
- `ClientLog.response_aborted`: an operation that fails although its response has arrived
-/

namespace AsyncMqtt

/-- A client, the responses that arrived with the operations that they belong to, those of
    them to which nothing had happened before, the operations to which something had, and the
    completions. -/
structure ClientLog (pb : PacketIdBytes) where
  client : Client pb
  arrived : List (ClientOp pb × PacketVariant pb)
  answered : List (ClientOp pb × PacketVariant pb)
  dropped : List (ClientOp pb)
  completed : Client.Completions pb
  deriving DecidableEq

/-- The response is one of those with which the operation completes. -/
def ClientResult.Carries {pb : PacketIdBytes} :
    ClientResult pb → PacketVariant pb → Prop
  | .complete _ pv res, p =>
    pv = some p ∨ res.puback = some p ∨ res.pubrec = some p ∨ res.pubcomp = some p
  | .absentResponse, _ => False

/-- Whether a result carries a packet can be decided. -/
instance {pb : PacketIdBytes} :
    (result : ClientResult pb) → (p : PacketVariant pb) → Decidable (result.Carries p)
  | .complete _ _ _, _ => inferInstanceAs (Decidable (_ ∨ _ ∨ _ ∨ _))
  | .absentResponse, _ => inferInstanceAs (Decidable False)

namespace Client

variable {pb : PacketIdBytes}

/-- The response that arrives with this input, unless more belongs to it. -/
def response (cl : Client pb) : Input pb → List (ClientOp pb × PacketVariant pb)
  | .received pv =>
    match cl.matching pv with
    | none => []
    | some a => if 0 < cl.loops ∧ endsExchange cl.version pv then [(a.op, pv)] else []
  | _ => []

/-- The operations that this input cancels, or that are under way at a connection error. -/
def drops (cl : Client pb) : Input pb → List (ClientOp pb)
  | .cancel op => [op]
  | .receivedError _ => if 0 < cl.loops then cl.sending ++ cl.waiting else []
  | _ => []

end Client

namespace ClientLog

variable {pb : PacketIdBytes}

/-- A new client. -/
def make (pb : PacketIdBytes) (version : ProtocolVersion) : ClientLog pb :=
  ⟨.make pb version, [], [], [], []⟩

/-- The effect of an input. -/
def step (l : ClientLog pb) (i : Client.Input pb) : ClientLog pb where
  client := (l.client.call i).1
  arrived := l.arrived ++ l.client.response i
  answered := l.answered ++ (l.client.response i).filter fun r =>
    r.1 ∈ l.client.sending ++ l.client.waiting ∧ r.1 ∉ l.dropped
  dropped := l.dropped ++ l.client.drops i
  completed := l.completed ++ (l.client.call i).2

/-- The state when all posted handlers have run. -/
def drained (l : ClientLog pb) : ClientLog pb :=
  Run.final step l (List.replicate l.client.handlers.length .handler)

/-- An operation with a response that completes without an error has got a response with its
    packet identifier. One whose response arrived before anything else happened to it completes
    with this response. No response is read that is not there. -/
structure Reports (l : ClientLog pb) : Prop where
  success : ∀ op pv res, (op, .complete none pv res) ∈ l.completed → op.packet.response?.isSome →
    ∃ p, (op, p) ∈ l.arrived ∧ p.packetId = op.packet.packetId
  answered : ∀ r ∈ l.answered, ∃ result, (r.1, result) ∈ l.drained.completed ∧ result.Carries r.2
  defined : ∀ op, (op, .absentResponse) ∉ l.completed

/-- No request is made with an identifier for which a response is awaited. When a request has
    been sent, the only response that is awaited for its identifier is its own, and there is
    no entry with this identifier. A response does not arrive before its request has been sent.
    A connection error does not come between a response and its handler. And of those that wait
    for a response the application cancels only a v5.0 PUBLISH. -/
def Orderly (l : ClientLog pb) : Client.Input pb → Prop
  | .called packet none => packet.response?.isSome →
    ∀ a ∈ l.client.awaited, a.op.packet.packetId ≠ packet.packetId
  | .called _ (some _) => True
  | .sent op none => Client.waits op.packet → ∀ a ∈ l.client.awaited,
    a.op.packet.packetId = op.packet.packetId →
      a.op = op ∧ ∀ e ∈ l.client.elems, e.pid ≠ op.packet.packetId
  | .sent op (some _) => ∀ a ∈ l.client.awaited, a.op = op →
    ∀ e ∈ l.client.elems, e.pid ≠ op.packet.packetId
  | .received pv => ∀ a ∈ l.client.matching pv, a.op ∉ l.client.sending
  | .receivedError _ => ∀ r ∈ l.answered, r.1 ∉ l.client.handlers
  | .cancel op => op ∈ l.client.waiting →
    l.client.version = .v5 ∧ op.packet.type = .publish ∨ ∀ e ∈ l.client.elems, e.tim ≠ op
  | .handler => True

/-- Whether an input is in order can be decided. -/
instance (l : ClientLog pb) : (i : Client.Input pb) → Decidable (l.Orderly i)
  | .called _ none => inferInstanceAs (Decidable (_ → ∀ a ∈ l.client.awaited, _))
  | .sent _ none => inferInstanceAs (Decidable (_ → ∀ a ∈ l.client.awaited, _ → _ ∧ _))
  | .sent _ (some _) => inferInstanceAs (Decidable (∀ a ∈ l.client.awaited, _ → _))
  | .received pv => inferInstanceAs (Decidable (∀ a ∈ l.client.matching pv, _))
  | .receivedError _ => inferInstanceAs (Decidable (∀ r ∈ l.answered, _))
  | .cancel _ => inferInstanceAs (Decidable (_ → _ ∨ _))
  | .called _ (some _) | .handler => inferInstanceAs (Decidable True)

end ClientLog

/-! ### Entries -/

namespace PacketVariant

variable {pb : PacketIdBytes} {packet : PacketVariant pb} {type : ControlPacketType}

/-- The packets that wait for a response, and what they wait for -/
theorem response?_eq_some (h : packet.response? = some type) :
    (packet.type = .connect ∧ type = .connack) ∨ (packet.type = .subscribe ∧ type = .suback) ∨
    (packet.type = .unsubscribe ∧ type = .unsuback) ∨
    (packet.type = .publish ∧ packet.packetId ≠ 0 ∧ (type = .puback ∨ type = .pubrec)) := by
  rw [response?] at h
  cases htype : packet.type with
  | connect | subscribe | unsubscribe =>
    simp only [htype, Option.some.injEq] at h
    simp [h]
  | publish =>
    simp only [htype] at h
    split_ifs at h with hpid hputs hrec
    · simp [hpid, ← Option.some.inj h]
    · simp [hpid, ← Option.some.inj h]
  | _ => simp [htype] at h

/-- A packet with a response is waited for. -/
theorem waits_of_response? (h : packet.response? = some type) : Client.waits packet = true := by
  rw [Client.waits]
  rcases response?_eq_some h with ⟨htype, -⟩ | ⟨htype, -⟩ | ⟨htype, -⟩ | ⟨htype, hpid, -⟩
  all_goals simp [htype]
  exact hpid

end PacketVariant

namespace Awaited

variable {pb : PacketIdBytes}

/-- A response of this type belongs to the request. -/
def Fits (a : Awaited pb) : Prop :=
  a.op.packet.response? = some a.type ∨
    a.op.packet.response? = some .pubrec ∧ a.type = .pubcomp

/-- An operation of an exchange, or another one that has one response -/
theorem Fits.cases {a : Awaited pb} (h : a.Fits) :
    a.op.packet.response? = some a.type ∧ a.op.packet.type ≠ .publish ∧
      a.type ≠ .puback ∧ a.type ≠ .pubrec ∧ a.type ≠ .pubcomp ∨
    a.op.packet.type = .publish ∧ (a.type = .puback ∨ a.type = .pubrec ∨ a.type = .pubcomp) := by
  rcases h with h | ⟨h, htype⟩
  · rcases PacketVariant.response?_eq_some h with
      ⟨hp, ht⟩ | ⟨hp, ht⟩ | ⟨hp, ht⟩ | ⟨hp, -, ht | ht⟩
    all_goals simp [h, hp, ht]
  · rcases PacketVariant.response?_eq_some h with
      ⟨-, ht⟩ | ⟨-, ht⟩ | ⟨-, ht⟩ | ⟨hp, -⟩
    · exact nomatch ht
    · exact nomatch ht
    · exact nomatch ht
    · exact .inr ⟨hp, .inr (.inr htype)⟩

/-- An awaited response is waited for. -/
theorem Fits.waits {a : Awaited pb} (h : a.Fits) : Client.waits a.op.packet = true := by
  rcases h with h | ⟨h, -⟩
  · exact PacketVariant.waits_of_response? h
  · exact PacketVariant.waits_of_response? h

end Awaited

namespace PidTimPvRes

variable {pb : PacketIdBytes} {e : PidTimPvRes pb} {pv p : PacketVariant pb}

/-- The response has been put into the entry. -/
def Holds (e : PidTimPvRes pb) (p : PacketVariant pb) : Prop :=
  e.pv = some p ∨ e.res.puback = some p ∨ e.res.pubrec = some p ∨ e.res.pubcomp = some p

/-- The same, of one that is not followed by another. -/
def HoldsFinal (e : PidTimPvRes pb) (p : PacketVariant pb) : Prop :=
  e.pv = some p ∨ e.res.puback = some p ∨ e.res.pubcomp = some p

/-- What has been put into the entry belongs to the request. -/
structure Fits (e : PidTimPvRes pb) : Prop where
  pv : ∀ p, e.pv = some p → e.tim.packet.response? = some p.type ∧ e.tim.packet.type ≠ .publish
  res : e.tim.packet.type ≠ .publish → e.res = .empty

/-- The entry of an operation whose timer may be cancelled. -/
def Closed (version : ProtocolVersion) (e : PidTimPvRes pb) : Prop :=
  version = .v5 ∧ e.tim.packet.type = .publish ∨ ∃ p, e.HoldsFinal p

/-- A response is put into an entry for which it is. -/
theorem Fits.answer (h : e.Fits) {a : Awaited pb} (ha : a.Fits) (htype : a.type = pv.type)
    (htim : e.tim = a.op) : (Client.answer e pv).Fits := by
  rcases ha.cases with ⟨hresponse, hpub, hack, hrec, hcomp⟩ | ⟨hpub, htypes⟩
  · rw [htype] at hresponse hack hrec hcomp
    rw [← htim] at hresponse hpub
    have hanswer : Client.answer e pv = { e with pv := some pv } := by
      rw [Client.answer]
      split <;> first | rfl | contradiction
    rw [hanswer]
    exact ⟨fun p hp => Option.some.inj hp ▸ ⟨hresponse, hpub⟩, h.res⟩
  · rw [htype] at htypes
    rw [← htim] at hpub
    have hpv : (Client.answer e pv).pv = e.pv ∧ (Client.answer e pv).tim = e.tim := by
      rcases htypes with ht | ht | ht <;> simp [Client.answer, ht]
    exact ⟨fun p hp => hpv.2 ▸ h.pv p (hpv.1 ▸ hp), fun hne => absurd hpub (hpv.2 ▸ hne)⟩

/-- The answer is stored under the same timer. -/
@[simp] theorem answer_tim : (Client.answer e pv).tim = e.tim := by
  rw [Client.answer]
  split <;> rfl

/-- The answer is stored under the same identifier. -/
@[simp] theorem answer_pid : (Client.answer e pv).pid = e.pid := by
  rw [Client.answer]
  split <;> rfl

/-- The answer is held. -/
theorem holds_answer : (Client.answer e pv).Holds pv := by
  rw [Client.answer]
  split <;> simp [Holds]

/-- A response other than PUBREC is final. -/
theorem holdsFinal_answer (h : pv.type ≠ .pubrec) : (Client.answer e pv).HoldsFinal pv := by
  rw [Client.answer]
  split <;> first | contradiction | simp [HoldsFinal]

/-- A final response is not lost by another answer. -/
theorem exists_holdsFinal_answer (h : e.HoldsFinal p) :
    ∃ q, (Client.answer e pv).HoldsFinal q := by
  by_cases hrec : pv.type = .pubrec
  · refine ⟨p, ?_⟩
    rw [Client.answer, hrec]
    exact h
  · exact ⟨pv, holdsFinal_answer hrec⟩

/-- What is in an entry was there before, or has been put in. -/
theorem holdsFinal_of_answer (h : (Client.answer e pv).HoldsFinal p) :
    (p = pv ∧ pv.type ≠ .pubrec) ∨ e.HoldsFinal p := by
  rw [Client.answer] at h
  simp only [HoldsFinal] at h ⊢
  split at h <;> simp_all <;> grind

/-! ### Results -/

/-- The operation reads a response that is there. -/
theorem result_ne_absent (hfits : e.Fits) {version : ProtocolVersion} (h : e.Closed version) :
    Client.result version e ≠ .absentResponse := by
  have hpv : e.tim.packet.type ≠ .publish → ∃ p, e.pv = some p := by
    intro hne
    rcases h with ⟨-, hpub⟩ | ⟨p, hp | hp | hp⟩
    · exact absurd hpub hne
    · exact ⟨p, hp⟩
    · rw [hfits.res hne] at hp
      exact nomatch hp
    · rw [hfits.res hne] at hp
      exact nomatch hp
  rw [Client.result]
  cases htype : e.tim.packet.type with
  | publish => exact nofun
  | _ =>
    obtain ⟨p, hp⟩ := hpv (htype ▸ nofun)
    simp only [hp]
    split <;> exact nofun

/-- Without an error code the PUBLISH has a PUBACK or a PUBCOMP. -/
theorem exists_of_publishErrorCode {version : ProtocolVersion} {res : PubRes pb}
    (hv5 : version = .v5) (h : Client.publishErrorCode version res = none) :
    ∃ p, res.puback = some p ∨ res.pubcomp = some p := by
  subst hv5
  rw [Client.publishErrorCode] at h
  cases hack : res.puback with
  | some p => exact ⟨p, .inl rfl⟩
  | none =>
    cases hcomp : res.pubcomp with
    | some p => exact ⟨p, .inr rfl⟩
    | none =>
      simp only [hack, hcomp] at h
      split at h
      · contradiction
      · contradiction
      · split at h <;> contradiction

/-- An operation that succeeds has got its response. -/
theorem holdsFinal_of_result {version : ProtocolVersion} (h : e.Closed version)
    {pv : Option (PacketVariant pb)} {res : PubRes pb}
    (hresult : Client.result version e = .complete none pv res) : ∃ p, e.HoldsFinal p := by
  rcases h with ⟨hv5, hpub⟩ | h
  · rw [Client.result, hpub] at hresult
    obtain ⟨p, hp⟩ := exists_of_publishErrorCode hv5 (ClientResult.complete.inj hresult).1
    exact ⟨p, .inr hp⟩
  · exact h

/-- An operation completes with the responses that are in its entry. -/
theorem result_carries (hfits : e.Fits) (h : e.Holds p) (version : ProtocolVersion) :
    (Client.result version e).Carries p := by
  by_cases hpub : e.tim.packet.type = .publish
  · rw [Client.result, hpub]
    rcases h with h | h
    · exact absurd hpub (hfits.pv p h).2
    · exact .inr h
  · have hres := hfits.res hpub
    have hpv : e.pv = some p := by
      rcases h with h | h | h | h
      · exact h
      all_goals
        rw [hres] at h
        exact nomatch h
    rcases PacketVariant.response?_eq_some (hfits.pv p hpv).1 with
      ⟨htype, hp⟩ | ⟨htype, hp⟩ | ⟨htype, hp⟩ | ⟨htype, -⟩
    · rw [Client.result, htype, hpv]
      simp [hp, ClientResult.Carries]
    · rw [Client.result, htype, hpv]
      simp [hp, ClientResult.Carries]
    · rw [Client.result, htype, hpv]
      simp [hp, ClientResult.Carries]
    · exact absurd htype hpub

end PidTimPvRes

/-! ### The invariant -/

namespace Client

variable {pb : PacketIdBytes}

/-- The operations that have begun and have not completed. -/
def underWay (cl : Client pb) : List (ClientOp pb) := cl.sending ++ (cl.waiting ++ cl.handlers)

/-- How the operations, the entries and the awaited responses belong together. -/
structure Linked (cl : Client pb) : Prop where
  nodup : cl.underWay.Nodup
  numbered : ∀ op ∈ cl.underWay, op.number < cl.started
  pids : (cl.elems.map (·.pid)).Nodup
  packetId : ∀ e ∈ cl.elems, e.pid = e.tim.packet.packetId
  fits : ∀ e ∈ cl.elems, e.Fits
  tim : ∀ e ∈ cl.elems, e.tim ∈ cl.waiting ++ cl.handlers
  closed : ∀ e ∈ cl.elems, e.tim ∈ cl.handlers → e.Closed cl.version
  awaitedPids : (cl.awaited.map (·.op.packet.packetId)).Nodup
  awaitedNumbered : ∀ a ∈ cl.awaited, a.op.number < cl.started
  awaitedFits : ∀ a ∈ cl.awaited, a.Fits
  /-- A response that is awaited finds the entry of its operation, -/
  waits : ∀ a ∈ cl.awaited, a.op ∈ cl.waiting → ∃ e ∈ cl.elems, e.tim = a.op
  /-- and no other one. -/
  own : ∀ a ∈ cl.awaited, ∀ e ∈ cl.elems, e.pid = a.op.packet.packetId →
    e.tim = a.op ∨ a.op ∈ cl.sending

/-- A new client has no operations. -/
theorem linked_make (version : ProtocolVersion) : (make pb version).Linked := by
  constructor
  all_goals simp [make, underWay]

section

variable {cl : Client pb}

/-- No two elements have one timer. -/
theorem Linked.tims (h : cl.Linked) : (cl.elems.map (·.tim)).Nodup := by
  have hpids : cl.elems.map (·.pid) = (cl.elems.map (·.tim)).map (·.packet.packetId) := by
    rw [List.map_map]
    exact List.map_congr_left h.packetId
  exact (hpids ▸ h.pids).of_map _

/-- An operation is in one place only. -/
theorem Linked.apart (h : cl.Linked) {op : ClientOp pb} :
    (op ∈ cl.sending → op ∉ cl.waiting ∧ op ∉ cl.handlers) ∧
      (op ∈ cl.waiting → op ∉ cl.handlers) := by
  have hnodup := h.nodup
  rw [underWay, List.nodup_append', List.nodup_append'] at hnodup
  obtain ⟨-, ⟨-, -, hwaiting⟩, hsending⟩ := hnodup
  refine ⟨fun hop => ?_, fun hop => hwaiting hop⟩
  exact not_or.mp fun hmem => hsending hop (List.mem_append.mpr hmem)

/-- An element is known by its timer. -/
theorem Linked.eq_of_tim (h : cl.Linked) {e e' : PidTimPvRes pb} (he : e ∈ cl.elems)
    (he' : e' ∈ cl.elems) (htim : e.tim = e'.tim) : e = e' :=
  Keyed.eq_of_key h.tims he he' htim

/-- The number of the next operation is new. -/
theorem Linked.fresh (h : cl.Linked) (packet : PacketVariant pb) :
    (⟨cl.started, packet⟩ : ClientOp pb) ∉ cl.underWay ∧
      ∀ a ∈ cl.awaited, a.op ≠ ⟨cl.started, packet⟩ := by
  constructor
  · exact fun hmem => Nat.lt_irrefl _ (h.numbered _ hmem)
  · intro a ha heq
    have hlt := h.awaitedNumbered a ha
    rw [heq] at hlt
    exact Nat.lt_irrefl _ hlt

/-! ### Operations move on -/

/-- The operation moves from those that wait to the handlers. -/
theorem perm_cancelTimer {op : ClientOp pb} (hmem : op ∈ cl.waiting) :
    (cl.waiting.erase op ++ (cl.handlers ++ [op])).Perm (cl.waiting ++ cl.handlers) := by
  rw [← List.append_assoc]
  refine (List.perm_append_singleton op _).trans ?_
  exact (List.perm_cons_erase hmem).symm.append_right cl.handlers

/-- The timer of an operation is cancelled. -/
theorem Linked.cancelTimer (h : cl.Linked) {op : ClientOp pb}
    (hclosed : ∀ e ∈ cl.elems, e.tim = op → e.Closed cl.version) : (cl.cancelTimer op).Linked := by
  rw [Client.cancelTimer]
  split_ifs with hmem
  · have hperm := perm_cancelTimer hmem
    have hunderWay := hperm.append_left cl.sending
    refine ⟨hunderWay.nodup_iff.mpr h.nodup, ?_, h.pids, h.packetId, h.fits, ?_, ?_, h.awaitedPids,
      h.awaitedNumbered, h.awaitedFits, ?_, h.own⟩
    · exact fun op' hop => h.numbered op' (hunderWay.mem_iff.mp hop)
    · exact fun e he => hperm.mem_iff.mpr (h.tim e he)
    · intro e he htim
      rcases List.mem_append.mp htim with htim | htim
      · exact h.closed e he htim
      · exact hclosed e he (List.mem_singleton.mp htim)
    · exact fun a ha hop => h.waits a ha (List.mem_of_mem_erase hop)
  · exact h

/-- The handler of the operation will run. -/
theorem mem_handlers_cancelTimer_self {op : ClientOp pb} (h : op ∈ cl.waiting) :
    op ∈ (cl.cancelTimer op).handlers := by
  rw [Client.cancelTimer, if_pos h]
  exact List.mem_append_right _ (List.mem_singleton_self op)

/-- A request is made and sent. -/
theorem Linked.called (h : cl.Linked) {packet : PacketVariant pb}
    (hpid : packet.response?.isSome →
      ∀ a ∈ cl.awaited, a.op.packet.packetId ≠ packet.packetId) :
    (cl.called packet none).1.Linked := by
  -- the operation has a new number
  obtain ⟨hnew, hawaited⟩ := h.fresh packet
  have hnodup : (cl.sending ++ [(⟨cl.started, packet⟩ : ClientOp pb)] ++
      (cl.waiting ++ cl.handlers)).Nodup := by
    rw [List.append_assoc, List.singleton_append, List.perm_middle.nodup_iff, List.nodup_cons]
    exact ⟨hnew, h.nodup⟩
  have hnumbered : ∀ op ∈ cl.sending ++ [(⟨cl.started, packet⟩ : ClientOp pb)] ++
      (cl.waiting ++ cl.handlers),
      op.number < cl.started + 1 := by
    intro op hop
    rw [List.append_assoc, List.singleton_append, List.perm_middle.mem_iff, List.mem_cons] at hop
    rcases hop with rfl | hop
    · exact Nat.lt_succ_self _
    · exact Nat.lt_succ_of_lt (h.numbered op hop)
  have hawaitedNumbered : ∀ a ∈ cl.awaited, a.op.number < cl.started + 1 := fun a ha =>
    Nat.lt_succ_of_lt (h.awaitedNumbered a ha)
  have hown : ∀ a ∈ cl.awaited, ∀ e ∈ cl.elems, e.pid = a.op.packet.packetId →
      e.tim = a.op ∨ a.op ∈ cl.sending ++ [⟨cl.started, packet⟩] := fun a ha e he heq =>
    (h.own a ha e he heq).imp_right (List.mem_append_left _)
  rw [Client.called]
  cases hresponse : packet.response? with
  -- a request without a response is not awaited
  | none =>
    exact ⟨hnodup, hnumbered, h.pids, h.packetId, h.fits, h.tim, h.closed, h.awaitedPids,
      hawaitedNumbered, h.awaitedFits, h.waits, hown⟩
  | some type =>
    refine ⟨hnodup, hnumbered, h.pids, h.packetId, h.fits, h.tim, h.closed, ?_, ?_, ?_, ?_, ?_⟩
    · rw [List.map_append, List.nodup_append']
      refine ⟨h.awaitedPids, List.nodup_singleton _, ?_⟩
      intro packetId hmem hnew
      obtain ⟨a, ha, rfl⟩ := List.mem_map.mp hmem
      exact hpid (by rw [hresponse]; rfl) a ha (List.mem_singleton.mp hnew)
    · intro a ha
      rcases List.mem_append.mp ha with ha | ha
      · exact hawaitedNumbered a ha
      · obtain rfl := List.mem_singleton.mp ha
        exact Nat.lt_succ_self _
    · intro a ha
      rcases List.mem_append.mp ha with ha | ha
      · exact h.awaitedFits a ha
      · obtain rfl := List.mem_singleton.mp ha
        exact .inl hresponse
    · intro a ha hop
      rcases List.mem_append.mp ha with ha | ha
      · exact h.waits a ha hop
      · obtain rfl := List.mem_singleton.mp ha
        exact absurd (List.mem_append_right _ (List.mem_append_left _ hop)) hnew
    -- the new operation is still being sent
    · intro a ha e he heq
      rcases List.mem_append.mp ha with ha | ha
      · exact hown a ha e he heq
      · obtain rfl := List.mem_singleton.mp ha
        exact .inr (List.mem_append_right _ (List.mem_singleton_self _))

/-- What is awaited of others is not awaited of an operation that leaves those that are sent. -/
theorem Linked.own_erase (h : cl.Linked) {op : ClientOp pb}
    (hpid : ∀ a ∈ cl.awaited, a.op = op → ∀ e ∈ cl.elems, e.pid ≠ op.packet.packetId) :
    ∀ a ∈ cl.awaited, ∀ e ∈ cl.elems, e.pid = a.op.packet.packetId →
      e.tim = a.op ∨ a.op ∈ cl.sending.erase op := by
  intro a ha e he heq
  by_cases hop : a.op = op
  · exact absurd (hop ▸ heq) (hpid a ha hop e he)
  · exact (h.own a ha e he heq).imp_right (List.mem_erase_of_ne hop).mpr

/-- A request that has been sent, or has failed, and needs no response. -/
theorem Linked.sending_erase (h : cl.Linked) {op : ClientOp pb}
    (hpid : ∀ a ∈ cl.awaited, a.op = op → ∀ e ∈ cl.elems, e.pid ≠ op.packet.packetId) :
    ({ cl with sending := cl.sending.erase op } : Client pb).Linked := by
  have hsub : (cl.sending.erase op ++ (cl.waiting ++ cl.handlers)).Sublist cl.underWay :=
    List.erase_sublist.append_right _
  exact ⟨h.nodup.sublist hsub, fun op' hop => h.numbered op' (hsub.subset hop), h.pids, h.packetId,
    h.fits, h.tim, h.closed, h.awaitedPids, h.awaitedNumbered, h.awaitedFits, h.waits,
    h.own_erase hpid⟩

/-- What is in the table after `emplace`. -/
theorem mem_emplace {elems : List (PidTimPvRes pb)} {op : ClientOp pb} {e : PidTimPvRes pb}
    (he : e ∈ emplace elems op) :
    e ∈ elems ∨ e = ⟨op.packet.packetId, op, none, .empty⟩ ∧
      ∀ e' ∈ elems, e'.pid ≠ op.packet.packetId := by
  rw [emplace] at he
  split_ifs at he with hany
  · exact .inl he
  · rw [Keyed.perm_insertBefore.mem_iff, List.mem_cons] at he
    simp only [List.any_eq_true, decide_eq_true_eq, not_exists, not_and] at hany
    exact he.elim (fun he => .inr ⟨he, hany⟩) .inl

/-- The elements from before are still there. -/
theorem mem_emplace_of {elems : List (PidTimPvRes pb)} {op : ClientOp pb} {e : PidTimPvRes pb}
    (he : e ∈ elems) : e ∈ emplace elems op := by
  rw [emplace]
  split_ifs
  · exact he
  · exact Keyed.perm_insertBefore.mem_iff.mpr (List.mem_cons_of_mem _ he)

/-- The identifiers of the elements differ. -/
theorem nodup_emplace {elems : List (PidTimPvRes pb)} {op : ClientOp pb}
    (h : (elems.map (·.pid)).Nodup) : ((emplace elems op).map (·.pid)).Nodup := by
  rw [emplace]
  split_ifs with hany
  · exact h
  · rw [(Keyed.perm_insertBefore.map _).nodup_iff, List.map_cons, List.nodup_cons]
    refine ⟨fun hmem => ?_, h⟩
    obtain ⟨e, he, heq⟩ := List.mem_map.mp hmem
    simp only [List.any_eq_true, decide_eq_true_eq, not_exists, not_and] at hany
    exact hany e he heq

/-- A request has been sent, and its operation makes an entry. -/
theorem Linked.emplace (h : cl.Linked) {op : ClientOp pb} (hop : op ∈ cl.sending)
    (hpid : ∀ a ∈ cl.awaited, a.op.packet.packetId = op.packet.packetId →
      a.op = op ∧ ∀ e ∈ cl.elems, e.pid ≠ op.packet.packetId) (loops : Nat) :
    ({ cl with
      sending := cl.sending.erase op
      elems := Client.emplace cl.elems op
      loops := loops
      waiting := cl.waiting ++ [op] } : Client pb).Linked := by
  -- the operations under way are the same, one of them in another list
  have hperm : (cl.sending.erase op ++ ((cl.waiting ++ [op]) ++ cl.handlers)).Perm cl.underWay := by
    rw [List.append_assoc, ← List.append_assoc, List.singleton_append]
    refine List.perm_middle.trans ?_
    rw [List.append_assoc, ← List.cons_append]
    exact (List.perm_cons_erase hop).symm.append_right _
  obtain ⟨hwaiting, hhandlers⟩ := h.apart.1 hop
  refine ⟨hperm.nodup_iff.mpr h.nodup, fun op' hop' => h.numbered op' (hperm.mem_iff.mp hop'),
    nodup_emplace h.pids, ?_, ?_, ?_, ?_, h.awaitedPids, h.awaitedNumbered, h.awaitedFits, ?_, ?_⟩
  -- an element is either one from before or the new one, in each of the parts
  · intro e he
    rcases mem_emplace he with he | ⟨rfl, -⟩
    · exact h.packetId e he
    · rfl
  · intro e he
    rcases mem_emplace he with he | ⟨rfl, -⟩
    · exact h.fits e he
    · exact ⟨nofun, fun _ => rfl⟩
  · intro e he
    rcases mem_emplace he with he | ⟨rfl, -⟩
    · have htim := h.tim e he
      simp only [List.mem_append, List.mem_singleton] at htim ⊢
      tauto
    · simp
  · intro e he htim
    rcases mem_emplace he with he | ⟨rfl, -⟩
    · exact h.closed e he htim
    · exact absurd htim hhandlers
  · intro a ha hmem
    rcases List.mem_append.mp hmem with hmem | hmem
    · obtain ⟨e, he, htim⟩ := h.waits a ha hmem
      exact ⟨e, mem_emplace_of he, htim⟩
    · obtain heq := List.mem_singleton.mp hmem
      have hnone := (hpid a ha (by rw [heq])).2
      refine ⟨⟨op.packet.packetId, op, none, .empty⟩, ?_, heq.symm⟩
      rw [Client.emplace, if_neg (by simpa using hnone)]
      exact Keyed.perm_insertBefore.mem_iff.mpr (List.mem_cons_self ..)
  · intro a ha e he heq
    rcases mem_emplace he with he | ⟨rfl, -⟩
    · exact h.own_erase (fun a ha hop => (hpid a ha (by rw [hop])).2) a ha e he heq
    · exact .inl (hpid a ha heq.symm).1.symm

/-! ### Responses arrive -/

/-- The operation that a packet answers is awaited under its identifier. -/
theorem mem_of_matching {pv : PacketVariant pb} {a : Awaited pb} (h : cl.matching pv = some a) :
    a ∈ cl.awaited ∧ a.type = pv.type ∧ a.op.packet.packetId = pv.packetId := by
  refine ⟨List.mem_of_find?_eq_some h, ?_⟩
  simpa using List.find?_some h

/-- The table with one more response. -/
def answered (cl : Client pb) (e : PidTimPvRes pb) (pv : PacketVariant pb) : Client pb :=
  { cl with elems := cl.elems.map fun e' => if e'.pid = e.pid then answer e pv else e' }

/-- An element after the answer is the one with the answer, or another one from before. -/
theorem mem_answered {e e' : PidTimPvRes pb} {pv : PacketVariant pb}
    (h : e' ∈ (cl.answered e pv).elems) : e' = answer e pv ∨ e' ∈ cl.elems ∧ e'.pid ≠ e.pid := by
  obtain ⟨e₀, he₀, rfl⟩ := List.mem_map.mp h
  split_ifs with hpid
  · exact .inl rfl
  · exact .inr ⟨he₀, hpid⟩

/-- The element with the answer is there. -/
theorem answer_mem_answered {e : PidTimPvRes pb} {pv : PacketVariant pb} (he : e ∈ cl.elems) :
    answer e pv ∈ (cl.answered e pv).elems :=
  List.mem_map.mpr ⟨e, he, if_pos rfl⟩

/-- The other entries stay. -/
theorem mem_answered_of_ne {e e' : PidTimPvRes pb} {pv : PacketVariant pb} (he' : e' ∈ cl.elems)
    (hne : e'.pid ≠ e.pid) : e' ∈ (cl.answered e pv).elems :=
  List.mem_map.mpr ⟨e', he', if_neg hne⟩

/-- An answer is stored in its element. -/
theorem Linked.answered (h : cl.Linked) {e : PidTimPvRes pb} (he : e ∈ cl.elems)
    {pv : PacketVariant pb} (hfits : (answer e pv).Fits)
    (hclosed : e.Closed cl.version → (answer e pv).Closed cl.version) :
    (cl.answered e pv).Linked := by
  have hpids : (cl.answered e pv).elems.map (·.pid) = cl.elems.map (·.pid) := by
    rw [Client.answered, List.map_map]
    refine List.map_congr_left fun e' he' => ?_
    show (if e'.pid = e.pid then answer e pv else e').pid = e'.pid
    split_ifs with hpid
    · rw [PidTimPvRes.answer_pid, hpid]
    · rfl
  refine ⟨h.nodup, h.numbered, hpids ▸ h.pids, ?_, ?_, ?_, ?_, h.awaitedPids, h.awaitedNumbered,
    h.awaitedFits, ?_, ?_⟩
  -- an element is the one with the answer or another one, in each of the parts
  · intro e' he'
    rcases mem_answered he' with rfl | ⟨he', -⟩
    · simpa using h.packetId e he
    · exact h.packetId e' he'
  · intro e' he'
    rcases mem_answered he' with rfl | ⟨he', -⟩
    · exact hfits
    · exact h.fits e' he'
  · intro e' he'
    rcases mem_answered he' with rfl | ⟨he', -⟩
    · rw [PidTimPvRes.answer_tim]
      exact h.tim e he
    · exact h.tim e' he'
  · intro e' he' htim
    rcases mem_answered he' with rfl | ⟨he', -⟩
    · rw [PidTimPvRes.answer_tim] at htim
      exact hclosed (h.closed e he htim)
    · exact h.closed e' he' htim
  · intro a ha hop
    obtain ⟨e', he', htim⟩ := h.waits a ha hop
    by_cases hpid : e'.pid = e.pid
    · obtain rfl := Keyed.eq_of_key h.pids he' he hpid
      exact ⟨answer e' pv, answer_mem_answered he, by simpa using htim⟩
    · exact ⟨e', mem_answered_of_ne he' hpid, htim⟩
  · intro a ha e' he' heq
    rcases mem_answered he' with rfl | ⟨he', -⟩
    · rw [PidTimPvRes.answer_pid] at heq
      rw [PidTimPvRes.answer_tim]
      exact h.own a ha e he heq
    · exact h.own a ha e' he' heq

/-- Fewer responses are awaited, or one more of the same request. -/
theorem Linked.awaited (h : cl.Linked) {awaited : List (Awaited pb)} (loops : Nat)
    (hpids : (awaited.map (·.op.packet.packetId)).Nodup)
    (hmem : ∀ a ∈ awaited, a.Fits ∧ ∃ a' ∈ cl.awaited, a'.op = a.op) :
    ({ cl with awaited := awaited, loops := loops } : Client pb).Linked := by
  refine ⟨h.nodup, h.numbered, h.pids, h.packetId, h.fits, h.tim, h.closed, hpids, ?_, ?_, ?_, ?_⟩
  · intro a ha
    obtain ⟨-, a', ha', hop⟩ := hmem a ha
    exact hop ▸ h.awaitedNumbered a' ha'
  · exact fun a ha => (hmem a ha).1
  · intro a ha hwaiting
    obtain ⟨-, a', ha', hop⟩ := hmem a ha
    exact hop ▸ h.waits a' ha' (hop ▸ hwaiting)
  · intro a ha
    obtain ⟨-, a', ha', hop⟩ := hmem a ha
    exact hop ▸ h.own a' ha'

/-- Only a PUBREC may leave an exchange open. -/
theorem endsExchange_of_ne {version : ProtocolVersion} {pv : PacketVariant pb}
    (h : pv.type ≠ .pubrec) : endsExchange version pv = true := by
  simp [endsExchange, h]

/-- What is awaited after a response. -/
def rest (cl : Client pb) (a : Awaited pb) (pv : PacketVariant pb) : List (Awaited pb) :=
  if pv.type = .pubrec ∧ ¬ endsExchange cl.version pv
  then cl.awaited.erase a ++ [⟨.pubcomp, a.op⟩] else cl.awaited.erase a

/-- What is awaited after a packet was awaited before. -/
theorem mem_rest {pv : PacketVariant pb} {a a' : Awaited pb} (hmatch : cl.matching pv = some a)
    (ha' : a' ∈ cl.rest a pv) : ∃ a'' ∈ cl.awaited, a''.op = a'.op := by
  obtain ⟨ha, -⟩ := mem_of_matching hmatch
  rw [Client.rest] at ha'
  split_ifs at ha'
  · rcases List.mem_append.mp ha' with ha' | ha'
    · exact ⟨a', List.mem_of_mem_erase ha', rfl⟩
    · obtain rfl := List.mem_singleton.mp ha'
      exact ⟨a, ha, rfl⟩
  · exact ⟨a', List.mem_of_mem_erase ha', rfl⟩

/-- What is awaited after a packet is still linked. -/
theorem Linked.rest (h : cl.Linked) {pv : PacketVariant pb} {a : Awaited pb}
    (hmatch : cl.matching pv = some a) :
    ({ cl with awaited := cl.rest a pv } : Client pb).Linked := by
  obtain ⟨ha, htype, -⟩ := mem_of_matching hmatch
  have hperm : (cl.awaited.erase a ++ [a]).Perm cl.awaited :=
    (List.perm_append_singleton a _).trans (List.perm_cons_erase ha).symm
  have hmem : ∀ a' ∈ cl.awaited.erase a, a'.Fits ∧ ∃ a'' ∈ cl.awaited, a''.op = a'.op :=
    fun a' ha' => ⟨h.awaitedFits a' (List.mem_of_mem_erase ha'), a', List.mem_of_mem_erase ha', rfl⟩
  rw [Client.rest]
  split_ifs with hrec
  · refine h.awaited cl.loops ?_ ?_
    · have hnodup := ((hperm.map (·.op.packet.packetId)).nodup_iff).mpr h.awaitedPids
      rw [List.map_append] at hnodup ⊢
      exact hnodup
    · intro a' ha'
      rcases List.mem_append.mp ha' with ha' | ha'
      · exact hmem a' ha'
      · obtain rfl := List.mem_singleton.mp ha'
        refine ⟨.inr ⟨?_, rfl⟩, a, ha, rfl⟩
        have hfits := h.awaitedFits a ha
        rw [Awaited.Fits, htype, hrec.1] at hfits
        exact hfits.elim id And.left
  · exact h.awaited cl.loops (h.awaitedPids.sublist (List.erase_sublist.map _)) hmem

/-- The client with a response in the entry of its operation. -/
def delivered (cl : Client pb) (a : Awaited pb) (e : PidTimPvRes pb) (pv : PacketVariant pb) :
    Client pb :=
  { cl.answered e pv with awaited := cl.rest a pv }

/-- A packet for an element is stored there, and ends the wait when it ends the exchange. -/
theorem received_of_find? {pv : PacketVariant pb} {a : Awaited pb} {e : PidTimPvRes pb}
    (hmatch : cl.matching pv = some a) (hfind : cl.elems.find? (·.pid = pv.packetId) = some e) :
    cl.received pv = if endsExchange cl.version pv
      then (cl.delivered a e pv).cancelTimer e.tim else cl.delivered a e pv := by
  rw [received, hmatch]
  dsimp only
  rw [respond, hfind]
  rfl

/-- A packet without an element is dropped. -/
theorem received_of_find?_none {pv : PacketVariant pb} {a : Awaited pb}
    (hmatch : cl.matching pv = some a) (hfind : cl.elems.find? (·.pid = pv.packetId) = none) :
    cl.received pv = { cl with awaited := cl.rest a pv } := by
  rw [received, hmatch]
  dsimp only
  rw [respond, hfind]
  rfl

/-- A request is answered once. -/
theorem Linked.ne_of_mem_rest (h : cl.Linked) {pv : PacketVariant pb} {a a' : Awaited pb}
    (hmatch : cl.matching pv = some a) (hends : endsExchange cl.version pv = true)
    (ha' : a' ∈ cl.rest a pv) : a'.op ≠ a.op := by
  obtain ⟨ha, -⟩ := mem_of_matching hmatch
  rw [Client.rest, if_neg fun h => h.2 hends] at ha'
  intro hop
  have heq : a' = a := Keyed.eq_of_key h.awaitedPids (List.mem_of_mem_erase ha') ha (by rw [hop])
  have hnodup : cl.awaited.Nodup := h.awaitedPids.of_map _
  exact hnodup.not_mem_erase (heq ▸ ha')

/-! ### Operations end -/

/-- The posted handler of an operation runs. -/
theorem Linked.timerCancelled (h : cl.Linked) {tim : ClientOp pb} {handlers : List (ClientOp pb)}
    (hhandlers : cl.handlers = tim :: handlers) :
    ({ cl with
      handlers := handlers
      elems := cl.elems.eraseP (·.tim = tim) } : Client pb).Linked := by
  -- the operation under way is the first handler, and its elements are gone
  have hperm : cl.underWay.Perm (tim :: (cl.sending ++ (cl.waiting ++ handlers))) := by
    rw [underWay, hhandlers, ← List.append_assoc, ← List.append_assoc]
    exact List.perm_middle
  have hnodup := hperm.nodup_iff.mp h.nodup
  rw [List.nodup_cons] at hnodup
  have hmem : ∀ e, e ∈ cl.elems.eraseP (·.tim = tim) ↔ e ∈ cl.elems ∧ e.tim ≠ tim := fun e =>
    Keyed.mem_eraseP h.tims
  refine ⟨hnodup.2, fun op hop => h.numbered op (hperm.mem_iff.mpr (List.mem_cons_of_mem _ hop)),
    h.pids.sublist (List.eraseP_sublist.map _), ?_, ?_, ?_, ?_, h.awaitedPids, h.awaitedNumbered,
    h.awaitedFits, ?_, ?_⟩
  · exact fun e he => h.packetId e ((hmem e).mp he).1
  · exact fun e he => h.fits e ((hmem e).mp he).1
  -- the timer of another element still waits
  · intro e he
    obtain ⟨he, hne⟩ := (hmem e).mp he
    have htim := h.tim e he
    rw [hhandlers, List.mem_append, List.mem_cons] at htim
    exact List.mem_append.mpr (htim.imp_right fun htim => htim.resolve_left hne)
  · intro e he htim
    refine h.closed e ((hmem e).mp he).1 ?_
    rw [hhandlers]
    exact List.mem_cons_of_mem tim htim
  -- an operation that waits is not the one whose handler ran
  · intro a ha hop
    obtain ⟨e, he, htim⟩ := h.waits a ha hop
    refine ⟨e, (hmem e).mpr ⟨he, fun heq => ?_⟩, htim⟩
    have hnot := h.apart.2 hop
    rw [hhandlers, ← heq, htim] at hnot
    exact hnot (List.mem_cons_self ..)
  · exact fun a ha e he => h.own a ha e ((hmem e).mp he).1

/-- The handlers of operations that wait have been posted. -/
structure Posted (cl cl' : Client pb) : Prop where
  eq : cl' = { cl with waiting := cl'.waiting, handlers := cl'.handlers }
  perm : (cl'.waiting ++ cl'.handlers).Perm (cl.waiting ++ cl.handlers)
  waiting : cl'.waiting.Sublist cl.waiting
  handlers : ∀ op ∈ cl.handlers, op ∈ cl'.handlers

/-- Handlers are posted one after another. -/
theorem Posted.trans {cl' cl'' : Client pb} (h : cl.Posted cl') (h' : cl'.Posted cl'') :
    cl.Posted cl'' := by
  refine ⟨?_, h'.perm.trans h.perm, h'.waiting.trans h.waiting, fun op hop => ?_⟩
  · rw [h'.eq, h.eq]
  · exact h'.handlers op (h.handlers op hop)

/-- Cancelling a timer posts its handler. -/
theorem posted_cancelTimer (cl : Client pb) (op : ClientOp pb) : cl.Posted (cl.cancelTimer op) := by
  rw [Client.cancelTimer]
  split_ifs with hmem
  · exact ⟨rfl, perm_cancelTimer hmem, List.erase_sublist,
      fun _ hop => List.mem_append_left _ hop⟩
  · exact ⟨rfl, .refl _, .refl _, fun _ hop => hop⟩

/-- An operation does not wait once its timer is cancelled. -/
theorem not_mem_cancelTimer (h : cl.waiting.Nodup) (op : ClientOp pb) :
    op ∉ (cl.cancelTimer op).waiting := by
  rw [Client.cancelTimer]
  split_ifs with hmem
  · exact h.not_mem_erase
  · exact hmem

/-- The timers of all entries are cancelled. -/
theorem posted_foldl (es : List (PidTimPvRes pb)) :
    ∀ cl : Client pb, cl.waiting.Nodup →
      cl.Posted (es.foldl (fun cl e => cl.cancelTimer e.tim) cl) ∧
      ∀ e ∈ es, e.tim ∉ (es.foldl (fun cl e => cl.cancelTimer e.tim) cl).waiting := by
  induction es with
  | nil => exact fun _ _ => ⟨⟨rfl, .refl _, .refl _, fun _ hop => hop⟩, by simp⟩
  | cons e es ih =>
    intro cl hnodup
    have hposted := posted_cancelTimer cl e.tim
    obtain ⟨hrest, hnone⟩ := ih (cl.cancelTimer e.tim) (hnodup.sublist hposted.waiting)
    refine ⟨hposted.trans hrest, fun e' he' => ?_⟩
    rcases List.mem_cons.mp he' with rfl | he'
    · exact fun hmem => not_mem_cancelTimer hnodup e'.tim (hrest.waiting.subset hmem)
    · exact hnone e' he'

/-- Posting handlers loses no operation. -/
theorem Posted.underWay {cl' : Client pb} (h : cl.Posted cl') :
    cl'.underWay.Perm cl.underWay := by
  have hsending : cl'.sending = cl.sending := by rw [h.eq]
  rw [Client.underWay, Client.underWay, hsending]
  exact h.perm.append_left cl.sending

/-- The table is cleared. -/
theorem Linked.clear (h : cl.Linked) : cl.clear.Linked := by
  have hwaiting : cl.waiting.Nodup :=
    (List.nodup_append'.mp (List.nodup_append'.mp h.nodup).2.1).1
  obtain ⟨hposted, hnone⟩ := posted_foldl cl.elems cl hwaiting
  rw [Client.clear]
  generalize cl.elems.foldl (fun cl e => cl.cancelTimer e.tim) cl = cl' at hposted hnone
  have hstarted : cl'.started = cl.started := by rw [hposted.eq]
  have hawaited : cl'.awaited = cl.awaited := by rw [hposted.eq]
  refine ⟨hposted.underWay.nodup_iff.mpr h.nodup, ?_, List.nodup_nil, by simp, by simp, by simp,
    by simp, ?_, ?_, ?_, ?_, by simp⟩
  · intro op hop
    show op.number < cl'.started
    rw [hstarted]
    exact h.numbered op (hposted.underWay.mem_iff.mp hop)
  · show (cl'.awaited.map _).Nodup
    rw [hawaited]
    exact h.awaitedPids
  · intro a ha
    show a.op.number < cl'.started
    rw [hstarted]
    exact h.awaitedNumbered a (hawaited ▸ ha)
  · exact fun a ha => h.awaitedFits a (hawaited ▸ ha)
  · intro a ha hop
    obtain ⟨e, he, htim⟩ := h.waits a (hawaited ▸ ha) (hposted.waiting.subset hop)
    exact absurd (htim ▸ hop) (hnone e he)

end

end Client

namespace ClientLog

variable {pb : PacketIdBytes}

/-- The operation has completed with the response. -/
def CompletedWith (l : ClientLog pb) (r : ClientOp pb × PacketVariant pb) : Prop :=
  ∃ result, (r.1, result) ∈ l.completed ∧ result.Carries r.2

/-- The response is in the entry of the operation, the handler of which is posted. -/
def Pending (cl : Client pb) (r : ClientOp pb × PacketVariant pb) : Prop :=
  r.1 ∈ cl.handlers ∧ ∃ e ∈ cl.elems, e.tim = r.1 ∧ e.Holds r.2

/-- What holds in an orderly run. -/
structure Inv (l : ClientLog pb) : Prop where
  linked : l.client.Linked
  arrived : ∀ e ∈ l.client.elems, ∀ p, e.HoldsFinal p → (e.tim, p) ∈ l.arrived
  packetId : ∀ r ∈ l.arrived, r.2.packetId = r.1.packet.packetId
  numbered : ∀ r ∈ l.answered, r.1.number < l.client.started
  once : ∀ r ∈ l.answered, ∀ a ∈ l.client.awaited, a.op ≠ r.1
  answered : ∀ r ∈ l.answered, Pending l.client r ∨ l.CompletedWith r
  success : ∀ op pv res, (op, .complete none pv res) ∈ l.completed → op.packet.response?.isSome →
    ∃ p, (op, p) ∈ l.arrived
  defined : ∀ op, (op, .absentResponse) ∉ l.completed

/-- A new client -/
theorem inv_make (version : ProtocolVersion) : (make pb version).Inv := by
  refine ⟨Client.linked_make version, ?_, ?_, ?_, ?_, ?_, ?_, ?_⟩
  all_goals simp [make, Client.make]

variable {l : ClientLog pb}

/-- The client changes, and operations complete. -/
theorem Inv.next (h : l.Inv) {cl : Client pb} {completions : Client.Completions pb}
    {dropped : List (ClientOp pb)} (hlinked : cl.Linked)
    (hstarted : l.client.started ≤ cl.started)
    (hawaited : ∀ a ∈ cl.awaited,
      l.client.started ≤ a.op.number ∨ ∃ a' ∈ l.client.awaited, a'.op = a.op)
    (harrived : ∀ e ∈ cl.elems, ∀ p, e.HoldsFinal p → (e.tim, p) ∈ l.arrived)
    (hanswered : ∀ r ∈ l.answered, Pending l.client r →
      Pending cl r ∨ ∃ result, (r.1, result) ∈ completions ∧ result.Carries r.2)
    (hsuccess : ∀ op pv res, (op, .complete none pv res) ∈ completions →
      op.packet.response?.isSome → ∃ p, (op, p) ∈ l.arrived)
    (hdefined : ∀ op, (op, .absentResponse) ∉ completions) :
    (⟨cl, l.arrived, l.answered, dropped, l.completed ++ completions⟩ : ClientLog pb).Inv := by
  refine ⟨hlinked, harrived, h.packetId, ?_, ?_, ?_, ?_, ?_⟩
  · exact fun r hr => Nat.lt_of_lt_of_le (h.numbered r hr) hstarted
  -- a response that arrived is awaited no longer
  · intro r hr a ha heq
    rcases hawaited a ha with hle | ⟨a', ha', hop⟩
    · have hlt := h.numbered r hr
      rw [← heq] at hlt
      omega
    · exact h.once r hr a' ha' (hop.trans heq)
  -- an operation whose response arrived is pending or has completed with it
  · intro r hr
    have hold : l.CompletedWith r → ∃ result,
        (r.1, result) ∈ l.completed ++ completions ∧ result.Carries r.2 := by
      rintro ⟨result, hmem, hcarries⟩
      exact ⟨result, List.mem_append_left _ hmem, hcarries⟩
    rcases h.answered r hr with hpending | hcompleted
    · rcases hanswered r hr hpending with hpending | ⟨result, hmem, hcarries⟩
      · exact .inl hpending
      · exact .inr ⟨result, List.mem_append_right _ hmem, hcarries⟩
    · exact .inr (hold hcompleted)
  -- a completion without an error code has its response
  · intro op pv res hmem hsome
    rcases List.mem_append.mp hmem with hmem | hmem
    · exact h.success op pv res hmem hsome
    · exact hsuccess op pv res hmem hsome
  · intro op hmem
    rcases List.mem_append.mp hmem with hmem | hmem
    · exact h.defined op hmem
    · exact hdefined op hmem

/-- The client changes, and no operation completes. -/
theorem Inv.silent (h : l.Inv) {cl : Client pb} {dropped : List (ClientOp pb)}
    (hlinked : cl.Linked) (hstarted : l.client.started ≤ cl.started)
    (hawaited : ∀ a ∈ cl.awaited,
      l.client.started ≤ a.op.number ∨ ∃ a' ∈ l.client.awaited, a'.op = a.op)
    (harrived : ∀ e ∈ cl.elems, ∀ p, e.HoldsFinal p → (e.tim, p) ∈ l.arrived)
    (hanswered : ∀ r ∈ l.answered, Pending l.client r → Pending cl r) :
    (⟨cl, l.arrived, l.answered, dropped, l.completed⟩ : ClientLog pb).Inv := by
  rw [← List.append_nil l.completed]
  exact h.next hlinked hstarted hawaited harrived (fun r hr hp => .inl (hanswered r hr hp))
    (by simp) (by simp)

/-- An operation fails, and its timer is not touched. -/
theorem Inv.failed (h : l.Inv) {cl : Client pb} {dropped : List (ClientOp pb)} {op : ClientOp pb}
    {ec : ClientError} (hlinked : cl.Linked) (hstarted : l.client.started ≤ cl.started)
    (hawaited : cl.awaited = l.client.awaited) (helems : cl.elems = l.client.elems)
    (hhandlers : cl.handlers = l.client.handlers) :
    (⟨cl, l.arrived, l.answered, dropped, l.completed ++ [(op, Client.fail ec)]⟩ :
      ClientLog pb).Inv := by
  refine h.next hlinked hstarted (fun a ha => .inr ⟨a, hawaited ▸ ha, rfl⟩) ?_ ?_ ?_ ?_
  · exact fun e he => h.arrived e (helems ▸ he)
  · rintro r - ⟨hposted, e, he, hr⟩
    exact .inl ⟨hhandlers ▸ hposted, e, helems ▸ he, hr⟩
  · intro op' pv res hmem
    simp [Client.fail] at hmem
  · intro op' hmem
    simp [Client.fail] at hmem

/-- An input with which no response arrives. -/
theorem step_of_silent {i : Client.Input pb} (h : l.client.response i = []) :
    l.step i = ⟨(l.client.call i).1, l.arrived, l.answered, l.dropped ++ l.client.drops i,
      l.completed ++ (l.client.call i).2⟩ := by
  rw [step, h, List.filter_nil, List.append_nil, List.append_nil]

/-- The application calls the client. -/
theorem Inv.called (h : l.Inv) {packet : PacketVariant pb} {refused : Option Nat}
    (hok : l.Orderly (.called packet refused)) : (l.step (.called packet refused)).Inv := by
  rw [step_of_silent rfl]
  cases refused with
  -- the packet is refused at once, and its handler is posted
  | some ec =>
    have hlinked := h.linked
    refine h.failed ?_ (Nat.le_succ _) rfl rfl rfl
    exact ⟨hlinked.nodup, fun op hop => Nat.lt_succ_of_lt (hlinked.numbered op hop), hlinked.pids,
      hlinked.packetId, hlinked.fits, hlinked.tim, hlinked.closed, hlinked.awaitedPids,
      fun a ha => Nat.lt_succ_of_lt (hlinked.awaitedNumbered a ha), hlinked.awaitedFits,
      hlinked.waits, hlinked.own⟩
  -- the packet is handed to the endpoint, and its response may be awaited
  | none =>
    have hlinked := h.linked.called hok
    rw [Client.call]
    rw [Client.called] at hlinked ⊢
    cases hresponse : packet.response? with
    | none =>
      rw [hresponse] at hlinked
      rw [List.append_nil]
      exact h.silent hlinked (Nat.le_succ _) (fun a ha => .inr ⟨a, ha, rfl⟩) h.arrived
        fun _ _ hp => hp
    | some type =>
      rw [hresponse] at hlinked
      rw [List.append_nil]
      refine h.silent hlinked (Nat.le_succ _) (fun a ha => ?_) h.arrived fun _ _ hp => hp
      rcases List.mem_append.mp ha with ha | ha
      · exact .inr ⟨a, ha, rfl⟩
      · obtain rfl := List.mem_singleton.mp ha
        exact .inl (Nat.le_refl _)

/-- Nothing happens. -/
theorem Inv.stay (h : l.Inv) {dropped : List (ClientOp pb)} :
    (⟨l.client, l.arrived, l.answered, dropped, l.completed⟩ : ClientLog pb).Inv :=
  ⟨h.linked, h.arrived, h.packetId, h.numbered, h.once, h.answered, h.success, h.defined⟩

/-- A packet is written, or its sending fails. -/
theorem Inv.sent (h : l.Inv) {op : ClientOp pb} {ec : Option Nat}
    (hok : l.Orderly (.sent op ec)) : (l.step (.sent op ec)).Inv := by
  rw [step_of_silent rfl, Client.call]
  split_ifs with hop
  · cases ec with
    -- the packet could not be written
    | some ec => exact h.failed (h.linked.sending_erase hok) (Nat.le_refl _) rfl rfl rfl
    | none =>
      rw [Client.sent]
      dsimp only
      -- an operation without a response completes when its packet was written
      by_cases hwaits : Client.waits op.packet
      · rw [if_pos hwaits, List.append_nil]
        refine h.silent (h.linked.emplace hop (hok hwaits) _) (Nat.le_refl _)
          (fun a ha => .inr ⟨a, ha, rfl⟩) (fun e he p hp => ?_) ?_
        · rcases Client.mem_emplace he with he | ⟨rfl, -⟩
          · exact h.arrived e he p hp
          · simp [PidTimPvRes.HoldsFinal, PubRes.empty] at hp
        · rintro r - ⟨hposted, e, he, hr⟩
          exact ⟨hposted, e, Client.mem_emplace_of he, hr⟩
      · rw [if_neg hwaits]
        have hpid : ∀ a ∈ l.client.awaited, a.op = op →
            ∀ e ∈ l.client.elems, e.pid ≠ op.packet.packetId := by
          rintro a ha rfl
          exact absurd (h.linked.awaitedFits a ha).waits hwaits
        refine h.next (h.linked.sending_erase hpid) (Nat.le_refl _)
          (fun a ha => .inr ⟨a, ha, rfl⟩) h.arrived (fun _ _ hp => .inl hp) ?_ (by simp)
        intro op' pv res hmem hsome
        obtain ⟨rfl, -⟩ := Prod.mk.inj (List.mem_singleton.mp hmem)
        obtain ⟨type, htype⟩ := Option.isSome_iff_exists.mp hsome
        exact absurd (PacketVariant.waits_of_response? htype) hwaits
  · rw [List.append_nil]
    exact h.stay

/-- What belongs to a timer that is cancelled. -/
theorem Inv.cancelTimer (h : l.Inv) {op : ClientOp pb}
    (hclosed : ∀ e ∈ l.client.elems, e.tim = op → e.Closed l.client.version)
    (dropped : List (ClientOp pb)) :
    (⟨l.client.cancelTimer op, l.arrived, l.answered, dropped, l.completed⟩ :
      ClientLog pb).Inv := by
  have hposted := Client.posted_cancelTimer l.client op
  have helems : (l.client.cancelTimer op).elems = l.client.elems := by rw [hposted.eq]
  refine h.silent (h.linked.cancelTimer hclosed) ?_ (fun a ha => ?_) ?_ ?_
  · rw [hposted.eq]
  · rw [hposted.eq] at ha
    exact .inr ⟨a, ha, rfl⟩
  · exact fun e he => h.arrived e (helems ▸ he)
  · rintro r - ⟨hmem, e, he, hr⟩
    exact ⟨hposted.handlers r.1 hmem, e, helems ▸ he, hr⟩

/-- The application cancels an operation. -/
theorem Inv.cancel (h : l.Inv) {op : ClientOp pb} (hok : l.Orderly (.cancel op)) :
    (l.step (.cancel op)).Inv := by
  rw [step_of_silent rfl, Client.call, List.append_nil]
  by_cases hop : op ∈ l.client.waiting
  · refine h.cancelTimer (fun e he htim => ?_) _
    rcases hok hop with ⟨hv5, hpub⟩ | hnone
    · exact .inl ⟨hv5, htim ▸ hpub⟩
    · exact absurd htim (hnone e he)
  · rw [Client.cancelTimer, if_neg hop]
    exact h.stay

/-- The connection is lost. -/
theorem Inv.receivedError (h : l.Inv) {needStore : Bool}
    (hok : l.Orderly (.receivedError needStore)) : (l.step (.receivedError needStore)).Inv := by
  rw [step_of_silent rfl, Client.call, List.append_nil]
  dsimp only
  split_ifs
  · have hlinked : ({ l.client with
        loops := l.client.loops - 1
        awaited := l.client.awaited.filter fun a => needStore ∧ a.op.packet.type = .publish } :
          Client pb).Linked := by
      refine h.linked.awaited _ (h.linked.awaitedPids.sublist (List.filter_sublist.map _)) ?_
      intro a ha
      exact ⟨h.linked.awaitedFits a (List.mem_of_mem_filter ha), a, List.mem_of_mem_filter ha, rfl⟩
    have hwaiting : l.client.waiting.Nodup :=
      (List.nodup_append'.mp (List.nodup_append'.mp h.linked.nodup).2.1).1
    obtain ⟨hposted, -⟩ := Client.posted_foldl l.client.elems { l.client with
      loops := l.client.loops - 1
      awaited := l.client.awaited.filter fun a => needStore ∧ a.op.packet.type = .publish }
      hwaiting
    refine h.silent hlinked.clear ?_ (fun a ha => ?_) ?_ ?_
    · rw [Client.receivedError, Client.clear, hposted.eq]
    · rw [Client.receivedError, Client.clear, hposted.eq] at ha
      exact .inr ⟨a, List.mem_of_mem_filter ha, rfl⟩
    · exact fun e he => nomatch he
    · exact fun r hr hpending => absurd hpending.1 (hok r hr)
  · exact h.stay

/-- A handler that was posted runs. -/
theorem Inv.handler (h : l.Inv) : (l.step .handler).Inv := by
  rw [step_of_silent rfl, Client.call]
  cases hhandlers : l.client.handlers with
  | nil =>
    rw [List.append_nil]
    exact h.stay
  | cons tim handlers =>
    have hlinked := h.linked.timerCancelled hhandlers
    dsimp only
    rw [Client.timerCancelled]
    dsimp only
    cases hfind : l.client.elems.find? (·.tim = tim) with
    -- the element of the timer is gone: the handler finds nothing to give
    | none =>
      have hne : ∀ e ∈ l.client.elems, e.tim ≠ tim := by simpa using hfind
      rw [List.eraseP_of_forall_not (by simpa using hne)] at hlinked
      refine h.next hlinked (Nat.le_refl _) (fun a ha => .inr ⟨a, ha, rfl⟩) h.arrived ?_ ?_ ?_
      · rintro r - ⟨hposted, e, he, htim, hr⟩
        rw [hhandlers, List.mem_cons] at hposted
        have hposted := hposted.resolve_left (htim ▸ hne e he)
        exact .inl ⟨hposted, e, he, htim, hr⟩
      · intro op pv res hmem
        simp [Client.fail] at hmem
      · intro op hmem
        simp [Client.fail] at hmem
    | some e =>
      have he := List.mem_of_find?_eq_some hfind
      have htim : e.tim = tim := by simpa using List.find?_some hfind
      have hposted : e.tim ∈ l.client.handlers := by
        rw [hhandlers, htim]
        exact List.mem_cons_self ..
      -- a timer whose handler is posted has got its result
      have hclosed := h.linked.closed e he hposted
      refine h.next hlinked (Nat.le_refl _) (fun a ha => .inr ⟨a, ha, rfl⟩) ?_ ?_ ?_ ?_
      · exact fun e' he' => h.arrived e' (List.mem_of_mem_eraseP he')
      · rintro r - ⟨hmem, e', he', htim', hr⟩
        -- the other operations keep their elements
        by_cases heq : r.1 = tim
        · obtain rfl := h.linked.eq_of_tim he' he (by rw [htim', heq, htim])
          refine .inr ⟨Client.result l.client.version e', ?_,
            PidTimPvRes.result_carries (h.linked.fits e' he) hr _⟩
          rw [heq]
          exact List.mem_singleton_self _
        · rw [hhandlers, List.mem_cons] at hmem
          refine .inl ⟨hmem.resolve_left heq, e', ?_, htim', hr⟩
          exact (Keyed.mem_eraseP h.linked.tims).mpr ⟨he', htim' ▸ heq⟩
      · intro op pv res hmem hsome
        obtain ⟨rfl, hresult⟩ := Prod.mk.inj (List.mem_singleton.mp hmem)
        obtain ⟨p, hp⟩ := PidTimPvRes.holdsFinal_of_result hclosed hresult.symm
        exact ⟨p, htim ▸ h.arrived e he p hp⟩
      · intro op hmem
        obtain ⟨-, hresult⟩ := Prod.mk.inj (List.mem_singleton.mp hmem)
        exact PidTimPvRes.result_ne_absent (h.linked.fits e he) hclosed hresult.symm

/-! ### A response arrives -/

/-- What arrives belongs to the request. -/
theorem mem_response {pv : PacketVariant pb} {r : ClientOp pb × PacketVariant pb}
    (hr : r ∈ l.client.response (.received pv)) :
    ∃ a, l.client.matching pv = some a ∧ r = (a.op, pv) ∧
      Client.endsExchange l.client.version pv = true := by
  rw [Client.response] at hr
  split at hr
  · exact nomatch hr
  · rename_i a hmatch
    split_ifs at hr with hends
    · exact ⟨a, hmatch, List.mem_singleton.mp hr, hends.2⟩
    · exact nomatch hr

/-- The response is noted. -/
theorem Inv.arrive (h : l.Inv) {rs : List (ClientOp pb × PacketVariant pb)}
    (hrs : ∀ r ∈ rs, r.2.packetId = r.1.packet.packetId) :
    ({ l with arrived := l.arrived ++ rs } : ClientLog pb).Inv := by
  refine ⟨h.linked, ?_, ?_, h.numbered, h.once, h.answered, ?_, h.defined⟩
  · exact fun e he p hp => List.mem_append_left rs (h.arrived e he p hp)
  · intro r hr
    rcases List.mem_append.mp hr with hr | hr
    · exact h.packetId r hr
    · exact hrs r hr
  · intro op pv res hmem hsome
    obtain ⟨p, hp⟩ := h.success op pv res hmem hsome
    exact ⟨p, List.mem_append_left rs hp⟩

/-- It is the response of an operation that waits. -/
theorem Inv.answer (h : l.Inv) {rs : List (ClientOp pb × PacketVariant pb)}
    (hrs : ∀ r ∈ rs, r.1.number < l.client.started ∧ (∀ a ∈ l.client.awaited, a.op ≠ r.1) ∧
      Pending l.client r) (dropped : List (ClientOp pb)) :
    (⟨l.client, l.arrived, l.answered ++ rs, dropped, l.completed⟩ : ClientLog pb).Inv := by
  refine ⟨h.linked, h.arrived, h.packetId, ?_, ?_, ?_, h.success, h.defined⟩
  · intro r hr
    rcases List.mem_append.mp hr with hr | hr
    · exact h.numbered r hr
    · exact (hrs r hr).1
  · intro r hr
    rcases List.mem_append.mp hr with hr | hr
    · exact h.once r hr
    · exact (hrs r hr).2.1
  · intro r hr
    rcases List.mem_append.mp hr with hr | hr
    · exact h.answered r hr
    · exact .inl (hrs r hr).2.2

/-- It is put into the entry of its operation. -/
theorem Inv.deliver (h : l.Inv) {pv : PacketVariant pb} {a : Awaited pb} {e : PidTimPvRes pb}
    (hmatch : l.client.matching pv = some a) (he : e ∈ l.client.elems) (htim : e.tim = a.op)
    (harrived : pv.type ≠ .pubrec → (a.op, pv) ∈ l.arrived) :
    ({ l with client := l.client.delivered a e pv } : ClientLog pb).Inv := by
  obtain ⟨ha, htype, -⟩ := Client.mem_of_matching hmatch
  have hfits := (h.linked.fits e he).answer (h.linked.awaitedFits a ha) htype htim
  have hclosed : e.Closed l.client.version → (Client.answer e pv).Closed l.client.version := by
    rintro (⟨hv5, hpub⟩ | ⟨p, hp⟩)
    · exact .inl ⟨hv5, by rw [PidTimPvRes.answer_tim]; exact hpub⟩
    · exact .inr (PidTimPvRes.exists_holdsFinal_answer hp)
  have hmatch' : (l.client.answered e pv).matching pv = some a := hmatch
  have hlinked : (l.client.delivered a e pv).Linked :=
    (h.linked.answered he hfits hclosed).rest hmatch'
  refine h.silent hlinked (Nat.le_refl _) (fun a' ha' => .inr (Client.mem_rest hmatch ha')) ?_ ?_
  · intro e' he' p hp
    rcases Client.mem_answered he' with rfl | ⟨he', -⟩
    · rw [PidTimPvRes.answer_tim]
      rcases PidTimPvRes.holdsFinal_of_answer hp with ⟨rfl, hne⟩ | hp
      · exact htim ▸ harrived hne
      · exact h.arrived e he p hp
    · exact h.arrived e' he' p hp
  · rintro r hr ⟨hposted, e', he', htim', hholds⟩
    refine ⟨hposted, e', Client.mem_answered_of_ne he' fun hpid => ?_, htim', hholds⟩
    obtain rfl := Keyed.eq_of_key h.linked.pids he' he hpid
    exact h.once r hr a ha (htim.symm.trans htim')

/-- A response that ends the exchange completes the entry. -/
theorem closed_answer (h : l.client.Linked) {pv : PacketVariant pb} {a : Awaited pb}
    {e : PidTimPvRes pb} (hmatch : l.client.matching pv = some a) (htim : e.tim = a.op)
    (hends : Client.endsExchange l.client.version pv = true) :
    (Client.answer e pv).Closed l.client.version := by
  obtain ⟨ha, htype, -⟩ := Client.mem_of_matching hmatch
  by_cases hrec : pv.type = .pubrec
  · rcases (h.awaitedFits a ha).cases with ⟨-, -, -, hne, -⟩ | ⟨hpub, -⟩
    · exact absurd (htype.trans hrec) hne
    · simp [Client.endsExchange, hrec] at hends
      refine .inl ⟨hends.1, ?_⟩
      rw [PidTimPvRes.answer_tim, htim]
      exact hpub
  · exact .inr ⟨pv, PidTimPvRes.holdsFinal_answer hrec⟩

/-- A response that does not end the exchange, or that is for nobody. -/
theorem response_of_not_ends {pv : PacketVariant pb}
    (hends : ¬ Client.endsExchange l.client.version pv) :
    l.client.response (.received pv) = [] := by
  rw [Client.response]
  split
  · rfl
  · exact if_neg fun h => hends h.2

/-- A packet that ends an exchange is the response to its operation. -/
theorem response_of_ends {pv : PacketVariant pb} {a : Awaited pb} (hloops : 0 < l.client.loops)
    (hmatch : l.client.matching pv = some a)
    (hends : Client.endsExchange l.client.version pv = true) :
    l.client.response (.received pv) = [(a.op, pv)] := by
  rw [Client.response, hmatch]
  exact if_pos ⟨hloops, hends⟩

/-- The last response of an exchange wakes the operation. -/
theorem Inv.ended (h : l.Inv) {pv : PacketVariant pb} {a : Awaited pb} {e : PidTimPvRes pb}
    (hmatch : l.client.matching pv = some a) (he : e ∈ l.client.elems) (htim : e.tim = a.op)
    (hends : Client.endsExchange l.client.version pv = true) {answered : List _}
    (hanswered : ∀ r ∈ answered, r = (a.op, pv) ∧ a.op ∈ l.client.waiting)
    (dropped : List (ClientOp pb)) :
    (⟨(l.client.delivered a e pv).cancelTimer e.tim, l.arrived ++ [(a.op, pv)],
      l.answered ++ answered, dropped, l.completed⟩ : ClientLog pb).Inv := by
  obtain ⟨ha, -, hpid⟩ := Client.mem_of_matching hmatch
  -- the packet is the last one that has arrived
  have harrive : ({ l with arrived := l.arrived ++ [(a.op, pv)] } : ClientLog pb).Inv := by
    refine h.arrive fun r hr => ?_
    obtain rfl := List.mem_singleton.mp hr
    exact hpid.symm
  have hdeliver := harrive.deliver hmatch he htim fun _ =>
    List.mem_append_right _ (List.mem_singleton_self _)
  have hposted := Client.posted_cancelTimer (l.client.delivered a e pv) e.tim
  -- the element is complete, and the other ones have another timer
  have hclosed : ∀ e' ∈ (l.client.delivered a e pv).elems, e'.tim = e.tim →
      e'.Closed l.client.version := by
    intro e' he' htim'
    rcases Client.mem_answered he' with rfl | ⟨he', hne⟩
    · exact closed_answer h.linked hmatch htim hends
    · exact absurd (congrArg _ (h.linked.eq_of_tim he' he htim')) hne
  refine (hdeliver.cancelTimer hclosed dropped).answer (fun r hr => ?_) dropped
  obtain ⟨rfl, hwaiting⟩ := hanswered r hr
  refine ⟨?_, fun a' ha' => ?_, ?_, Client.answer e pv, ?_, ?_, PidTimPvRes.holds_answer⟩
  · show a.op.number < ((l.client.delivered a e pv).cancelTimer e.tim).started
    rw [hposted.eq]
    exact h.linked.awaitedNumbered a ha
  · dsimp only at ha'
    rw [hposted.eq] at ha'
    exact h.linked.ne_of_mem_rest hmatch hends ha'
  · rw [← htim] at hwaiting ⊢
    exact Client.mem_handlers_cancelTimer_self hwaiting
  · dsimp only
    rw [hposted.eq]
    exact Client.answer_mem_answered he
  · rw [PidTimPvRes.answer_tim, htim]

/-- A response for which there is no entry. Its operation does not wait. -/
theorem Inv.unclaimed (h : l.Inv) {pv : PacketVariant pb} {a : Awaited pb}
    (hmatch : l.client.matching pv = some a)
    (hfind : l.client.elems.find? (·.pid = pv.packetId) = none) :
    ({ l with client := { l.client with awaited := l.client.rest a pv } } : ClientLog pb).Inv ∧
      a.op ∉ l.client.waiting := by
  obtain ⟨ha, -, hpid⟩ := Client.mem_of_matching hmatch
  constructor
  · exact h.silent (h.linked.rest hmatch) (Nat.le_refl _)
      (fun a' ha' => .inr (Client.mem_rest hmatch ha')) h.arrived fun _ _ hp => hp
  · intro hwaiting
    obtain ⟨e, he, htim⟩ := h.linked.waits a ha hwaiting
    have hne : ∀ e ∈ l.client.elems, e.pid ≠ pv.packetId := by simpa using hfind
    exact hne e he (by rw [h.linked.packetId e he, htim, hpid])

/-- A packet is received. -/
theorem Inv.received (h : l.Inv) {pv : PacketVariant pb} (hok : l.Orderly (.received pv)) :
    (l.step (.received pv)).Inv := by
  rw [step, Client.call, List.append_nil]
  dsimp only
  by_cases hloops : 0 < l.client.loops
  · rw [if_pos hloops]
    cases hmatch : l.client.matching pv with
    | none =>
      rw [Client.response, Client.received, hmatch, List.filter_nil, List.append_nil,
        List.append_nil]
      exact h.stay
    | some a =>
      -- an operation that is still being sent gets no response
      have hsending : a.op ∉ l.client.sending := hok a hmatch
      have hrs : ∀ r ∈ (l.client.response (.received pv)).filter (fun r =>
          r.1 ∈ l.client.sending ++ l.client.waiting ∧ r.1 ∉ l.dropped),
            r = (a.op, pv) ∧ a.op ∈ l.client.waiting := by
        intro r hr
        obtain ⟨hr, hcond⟩ := List.mem_filter.mp hr
        obtain ⟨a', hmatch', rfl, -⟩ := mem_response hr
        obtain rfl := Option.some.inj (hmatch.symm.trans hmatch')
        exact ⟨rfl, by simpa [hsending] using (of_decide_eq_true hcond).1⟩
      have hpid : ∀ r ∈ l.client.response (.received pv),
          r.2.packetId = r.1.packet.packetId := by
        intro r hr
        obtain ⟨a, hmatch, rfl, -⟩ := mem_response hr
        exact (Client.mem_of_matching hmatch).2.2.symm
      generalize hfilter : (l.client.response (.received pv)).filter (fun r =>
        r.1 ∈ l.client.sending ++ l.client.waiting ∧ r.1 ∉ l.dropped) = answered at hrs
      -- the element that the packet belongs to may be gone already
      cases hfind : l.client.elems.find? (·.pid = pv.packetId) with
      | none =>
        obtain ⟨hrest, hnot⟩ := (h.arrive hpid).unclaimed hmatch hfind
        have hnil : answered = [] := List.eq_nil_iff_forall_not_mem.mpr fun r hr =>
          hnot (hrs r hr).2
        rw [Client.received_of_find?_none hmatch hfind, hnil, List.append_nil]
        exact hrest.stay
      | some e =>
        have he := List.mem_of_find?_eq_some hfind
        have hepid : e.pid = pv.packetId := by simpa using List.find?_some hfind
        -- the timer of the element is the one of the operation
        have htim : e.tim = a.op := by
          have hapid := (Client.mem_of_matching hmatch).2.2
          have ha := (Client.mem_of_matching hmatch).1
          exact (h.linked.own a ha e he (hepid.trans hapid.symm)).resolve_right hsending
        rw [Client.received_of_find? hmatch hfind]
        by_cases hends : Client.endsExchange l.client.version pv
        · rw [if_pos hends, response_of_ends hloops hmatch hends]
          exact h.ended hmatch he htim hends hrs _
        · have hnone := response_of_not_ends hends
          rw [hnone, List.filter_nil] at hfilter
          rw [if_neg hends, hnone, ← hfilter, List.append_nil, List.append_nil]
          -- only a PUBREC leaves the operation waiting
          have hrec : pv.type = .pubrec := by
            by_contra hne
            exact hends (Client.endsExchange_of_ne hne)
          exact (h.deliver hmatch he htim (absurd hrec)).stay
  -- without a loop that reads nothing is received
  · have hnone : l.client.response (.received pv) = [] := by
      rw [Client.response]
      split
      · rfl
      · exact if_neg fun hends => hloops hends.1
    rw [if_neg hloops, hnone, List.filter_nil, List.append_nil, List.append_nil]
    exact h.stay

/-- Every input in order keeps the invariant. -/
theorem Inv.step (h : l.Inv) {i : Client.Input pb} (hok : l.Orderly i) : (l.step i).Inv := by
  cases i with
  | called packet refused => exact h.called hok
  | sent op ec => exact h.sent hok
  | received pv => exact h.received hok
  | receivedError needStore => exact h.receivedError hok
  | cancel op => exact h.cancel hok
  | handler => exact h.handler

/-! ### Runs -/

/-- The posted handlers run, and what has been answered stays the same. -/
theorem final_handlers (n : Nat) : ∀ l : ClientLog pb, l.client.handlers.length = n →
    (Run.final step l (List.replicate n .handler)).client.handlers = [] ∧
      (Run.final step l (List.replicate n .handler)).answered = l.answered := by
  induction n with
  | zero => exact fun l hlength => ⟨List.length_eq_zero_iff.mp hlength, rfl⟩
  | succ n ih =>
    intro l hlength
    have hhandlers : (l.step .handler).client.handlers.length = n := by
      rw [step_of_silent rfl, Client.call]
      cases hh : l.client.handlers with
      | nil => simp [hh] at hlength
      | cons tim handlers =>
        rw [hh, List.length_cons, Nat.add_right_cancel_iff] at hlength
        dsimp only
        rw [Client.timerCancelled]
        split <;> exact hlength
    have hanswered : (l.step .handler).answered = l.answered := by rw [step_of_silent rfl]
    have hfinal := ih (l.step .handler) hhandlers
    rw [hanswered] at hfinal
    exact hfinal

/-- The handlers that were posted run. -/
theorem Inv.drained (h : l.Inv) : l.drained.Inv := by
  have hall : Run.All ClientLog.step Orderly l (List.replicate l.client.handlers.length .handler) := by
    intro j i hi
    obtain rfl := List.eq_of_mem_replicate (List.mem_of_getElem? hi)
    trivial
  exact Run.final_invariant (fun _ _ hok h => h.step hok) h hall

/-- What the invariant says about the operations. -/
theorem Inv.reports (h : l.Inv) : l.Reports := by
  refine ⟨fun op pv res hmem hsome => ?_, fun r hr => ?_, h.defined⟩
  · obtain ⟨p, hp⟩ := h.success op pv res hmem hsome
    exact ⟨p, hp, h.packetId _ hp⟩
  · obtain ⟨hnone, hanswered⟩ := final_handlers l.client.handlers.length l rfl
    rcases h.drained.answered r (hanswered ▸ hr) with ⟨hposted, -⟩ | hcompleted
    · rw [ClientLog.drained, hnone] at hposted
      exact nomatch hposted
    · exact hcompleted

/-- In orderly runs operations report what happened. -/
theorem reports_of_orderly (version : ProtocolVersion) {is : List (Client.Input pb)}
    (hok : Run.All step Orderly (make pb version) is) :
    (Run.final step (make pb version) is).Reports := by
  have hinv : (Run.final step (make pb version) is).Inv :=
    Run.final_invariant (fun _ _ hok h => Inv.step h hok) (inv_make version) hok
  exact hinv.reports

/-- What happens to a client that connects. -/
def start (p : V311.ConnectPacket) : List (Client.Input .two) :=
  [.called (.v311Connect p) none, .sent ⟨0, .v311Connect p⟩ none,
    .received (.v311Connack (V311.connackPacket false 0)), .handler]

/-- A client connects and subscribes. -/
theorem reports_subscribe :
    ∃ p q r, V311.connectPacket true 10 [] none none none = .ok p ∧
      V311.subscribePacket .two 1 [⟨⟨[0x61]⟩, 0⟩] = .ok q ∧ V311.subackPacket .two 1 [0] = .ok r ∧
      (Run.final step (make .two .v311)
        (start p ++ [.called (.v311Subscribe q) none, .sent ⟨1, .v311Subscribe q⟩ none,
          .received (.v311Suback r), .handler])).Reports := by
  refine ⟨_, _, _, rfl, rfl, rfl, reports_of_orderly .v311 ?_⟩
  simp only [start, List.cons_append, List.nil_append, Run.all_cons]
  refine ⟨?_, ?_, ?_, ?_, ?_, ?_, ?_, ?_, Run.all_nil⟩
  all_goals decide

/-- The same, of what has completed in the end. -/
theorem Reports.completedWith (h : l.Reports) :
    ∀ r ∈ l.answered, ∃ c ∈ l.drained.completed, c.1 = r.1 ∧ c.2.Carries r.2 := by
  intro r hr
  obtain ⟨result, hmem, hcarries⟩ := h.answered r hr
  exact ⟨(r.1, result), hmem, rfl, hcarries⟩

/-- An operation that completes with an empty result had its response. -/
theorem Reports.responded (h : l.Reports) :
    ∀ c ∈ l.completed, c.2 = .complete none none .empty → c.1.packet.response?.isSome →
      ∃ r ∈ l.arrived, r.1 = c.1 := by
  rintro ⟨op, result⟩ hmem rfl hsome
  obtain ⟨p, hp, -⟩ := h.success op none .empty hmem hsome
  exact ⟨(op, p), hp, rfl⟩

/-- A SUBACK that is handed over before the handler of `async_send` has run finds no entry, and
    the operation waits for ever. -/
theorem response_before_sent :
    ∃ p q r, V311.connectPacket true 10 [] none none none = .ok p ∧
      V311.subscribePacket .two 1 [⟨⟨[0x61]⟩, 0⟩] = .ok q ∧ V311.subackPacket .two 1 [0] = .ok r ∧
      ¬ (Run.final step (make .two .v311)
        (start p ++ [.called (.v311Subscribe q) none, .received (.v311Suback r),
          .sent ⟨1, .v311Subscribe q⟩ none])).Reports := by
  refine ⟨_, _, _, rfl, rfl, rfl, fun h => absurd h.completedWith ?_⟩
  decide

/-- A connection error between the SUBACK and the handler that it has posted. -/
theorem response_aborted :
    ∃ p q r, V311.connectPacket true 10 [] none none none = .ok p ∧
      V311.subscribePacket .two 1 [⟨⟨[0x61]⟩, 0⟩] = .ok q ∧ V311.subackPacket .two 1 [0] = .ok r ∧
      ¬ (Run.final step (make .two .v311)
        (start p ++ [.called (.v311Subscribe q) none, .sent ⟨1, .v311Subscribe q⟩ none,
          .received (.v311Suback r), .receivedError false])).Reports := by
  refine ⟨_, _, _, rfl, rfl, rfl, fun h => absurd h.completedWith ?_⟩
  decide

/-- The application cancels a SUBSCRIBE that waits for its SUBACK, and the response is read
    although there is none. -/
theorem cancelled_subscribe :
    ∃ p q, V311.connectPacket true 10 [] none none none = .ok p ∧
      V311.subscribePacket .two 1 [⟨⟨[0x61]⟩, 0⟩] = .ok q ∧
      ¬ (Run.final step (make .two .v311)
        (start p ++ [.called (.v311Subscribe q) none, .sent ⟨1, .v311Subscribe q⟩ none,
          .cancel ⟨1, .v311Subscribe q⟩, .handler])).Reports := by
  refine ⟨_, _, rfl, rfl, fun h => h.defined ⟨1, _⟩ (List.mem_of_getElem? (i := 1) rfl)⟩

/-- The application cancels a v3.1.1 PUBLISH that waits for its PUBACK, and it completes without
    an error. -/
theorem cancelled_publish :
    ∃ p q, V311.connectPacket true 10 [] none none none = .ok p ∧
      V311.publishPacket .two 1 [0x61] [] 0x02 = .ok q ∧
      ¬ (Run.final step (make .two .v311)
        (start p ++ [.called (.v311Publish q) none, .sent ⟨1, .v311Publish q⟩ none,
          .cancel ⟨1, .v311Publish q⟩, .handler])).Reports := by
  refine ⟨_, _, rfl, rfl, fun h => absurd h.responded ?_⟩
  decide

end ClientLog

end AsyncMqtt
