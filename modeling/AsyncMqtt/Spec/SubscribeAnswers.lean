import AsyncMqtt.Spec.BrokerRuns

/-!
# The answer to a SUBSCRIBE

What `subscribe_handler` does for the entries of a packet, one after the other: it answers with their
codes in this order, it gives the retained messages to the session for the entries that ask for them,
and it subscribes the entries that are granted. Whether the filter of an entry is new depends on all
calls before, and on the entries before it in the packet.

## Key results

- `Broker.Books.stored_foldl_subscribe`: the last entry of a filter counts
- `Broker.subscribe_answers`: the answer, the retained messages, and what is found afterwards
-/

namespace AsyncMqtt

namespace Broker

variable {b b' : Broker} {k : Books} {ss ss' : SessionRef} {sid : Option Nat}
  {es : List TopicSubopts} {f : Buffer}

/-- The subscription of a session for an entry -/
def subscriptionOf (ss : SessionRef) (sid : Option Nat) (e : TopicSubopts) : Subscription :=
  ⟨ss, e.sharename, e.topic, e.opts, sid⟩

/-- The last entry with the filter -/
def lastFor (f : Buffer) (es : List TopicSubopts) : Option TopicSubopts :=
  es.reverse.find? fun e => e.topic = f

namespace Books

theorem stored_subscribe (sub : Subscription) :
    (k.subscribe sub).stored ss f = if ss = sub.ss ∧ f = sub.topic then some sub else k.stored ss f :=
  rfl

/-- Entries that are subscribed one after the other: the last one of a filter takes its place. -/
theorem stored_foldl_subscribe :
    (es.foldl (fun k e => k.subscribe (subscriptionOf ss sid e)) k).stored ss' f =
      if ss' = ss then ((lastFor f es).map (subscriptionOf ss sid)).or (k.stored ss f)
      else k.stored ss' f := by
  induction es using List.reverseRecOn with
  | nil =>
    split
    · next heq =>
      rw [heq]
      rfl
    · rfl
  | append_singleton es e ih =>
    rw [List.foldl_append, List.foldl_cons, List.foldl_nil, lastFor, List.reverse_append,
      List.reverse_singleton, List.singleton_append, List.find?_cons, stored_subscribe, ih]
    by_cases hss : ss' = ss
    · subst hss
      by_cases hf : e.topic = f
      · rw [if_pos ⟨rfl, hf.symm⟩, if_pos rfl, decide_eq_true hf]
        rfl
      · rw [if_neg fun h => hf h.2.symm, if_pos rfl, if_pos rfl, decide_eq_false hf]
        rfl
    · rw [if_neg fun h => hss h.1, if_neg hss, if_neg hss]

end Books

/-- After any run, the answer to a SUBSCRIBE has the codes of its entries. The session is given the
    retained messages for the granted entries that ask for them. Afterwards the last granted entry of
    a filter is found for it, and all else is found as before. -/
theorem subscribe_answers {ver : ProtocolVersion} {packetId : Nat} {entries : List TopicSubopts}
    {props : Properties} {clock left : Nat → Nat} {out : List BrokerOutput}
    (hr : Runs b k) (hss : ss ∈ b.sessions)
    (hcall : b.perform (.subscribe ss ver packetId entries props clock left) = .ok (out, b')) :
    let sid := if ver = .v5 then subscribeSid props else none
    let granted := entries.filter fun e => b.grants ver ss e
    (∃ answer, b.suback ver packetId (entries.map fun e => b.subackCode ver ss e) = .ok answer ∧
      out = .send answer :: (k.asked ss sid granted).flatMap fun e =>
        (b.retained.retains.find e.topic).map fun r =>
          .publish ss (retainedMessage left (SubOpts.getQos e.opts) sid r)) ∧
    ∀ topic c sub, (c, sub) ∈ b'.subscriptions.subsMap.find topic ↔
      if sub.ss = ss ∧ (lastFor sub.topic granted).isSome then
        c = ss.clientId ∧ topicFilterMatches false sub.topic topic ∧
          (lastFor sub.topic granted).map (subscriptionOf ss sid) = some sub
      else (c, sub) ∈ b.subscriptions.subsMap.find topic := by
  intro sid granted
  have ha' : Agrees b' (k.step b (.subscribe ss ver packetId entries props clock left)) :=
    hr.agrees.perform trivial hcall
  unfold Books.step at ha'
  dsimp only at ha'
  rw [if_pos hss] at ha'
  replace ha' : Agrees b' (granted.foldl (fun k e => k.subscribe (subscriptionOf ss sid e)) k) := ha'
  constructor
  -- the SUBACK with its codes, and the retained messages after it
  · obtain ⟨s, hs⟩ := Option.isSome_iff_exists.mp (AList.lookup_isSome.mpr hss)
    unfold Broker.perform subscribeHandler at hcall
    dsimp only at hcall
    rw [hs] at hcall
    obtain ⟨⟨codes, rs, b₁⟩, hloop, hrest⟩ := Except.bind_eq_ok.mp hcall
    obtain ⟨answer, hanswer, hret⟩ := Except.bind_eq_ok.mp hrest
    obtain ⟨rfl, rfl⟩ := Prod.mk.inj (Except.ok.inj hret)
    obtain ⟨-, hsame, rfl, rfl⟩ := hr.agrees.subscribeEntries hss hloop
    have hsuback := mapError_eq_ok.mp hanswer
    unfold suback at hsuback ⊢
    dsimp only at hsuback
    rw [hsame.answerProps] at hsuback
    refine ⟨answer, hsuback, ?_⟩
    rw [List.map_flatMap]
    simp only [List.map_map]
    rfl
  · intro topic c sub
    rw [ha'.mem_find, hr.agrees.mem_find, Books.stored_foldl_subscribe]
    -- the entries of the session are those of the last granted filter, the others are as before
    by_cases hsub : sub.ss = ss
    · subst hsub
      cases hlast : lastFor sub.topic granted with
      | none => simp
      | some e =>
        simp only [Option.map_some, Option.some_or, Option.isSome_some, and_self, if_true]
        constructor
        · exact fun h => ⟨h.1.symm, h.2.2, h.2.1⟩
        · exact fun h => ⟨h.1.symm, h.2.2, h.2.1⟩
    · rw [if_neg hsub, if_neg fun h => hsub h.1]

/-- Two entries with one filter in a packet -/
theorem subscribe_answers_twice : ∃ (b b' : Broker) (out : List BrokerOutput),
    b.perform (.subscribe client .v5 1 [⟨⟨[0x61]⟩, 1⟩, ⟨⟨[0x61]⟩, 2⟩] [] (fun _ => 0) fun _ => 0) =
      .ok (out, b') ∧
    ([0x63], ⟨client, [], [0x61], 2, none⟩) ∈ b'.subscriptions.subsMap.find [0x61] := by
  let b := (make ResponseTopics.defaultSecurity ⟨[], [], [], []⟩).create client .v5
  have hcreate : Runs b _ := .step (.create client .v5) (.make _ _) (by rintro ss ⟨⟩) rfl
  have hss : client ∈ b.sessions := by decide
  have hcall : b.perform (.subscribe client .v5 1 [⟨⟨[0x61]⟩, 1⟩, ⟨⟨[0x61]⟩, 2⟩] [] (fun _ => 0)
      fun _ => 0) = .ok (_, _) := rfl
  refine ⟨b, _, _, hcall, ((subscribe_answers hcreate hss hcall).2 _ _ _).mpr ?_⟩
  rw [if_pos (by decide)]
  decide

end Broker

end AsyncMqtt
