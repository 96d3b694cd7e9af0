import AsyncMqtt.Native.ResponseTopic
import AsyncMqtt.Spec.SecurityRules

/-!
# The rules of the response topics

Which rules the clean handlers of the sessions remove. The number of a rule is one above the highest
number in use, and so a number is given again once the rule that had it is gone. A handler stays in
its session after it has been called, and refers to the number only.

## Key results

- `ResponseTopics.Belongs.perform`: what one call does
- `ResponseTopics.rules_belong_to_session`: what a handler removes, and what a session leaves
- `ResponseTopics.handler_removes_rule_of_other`: a run in which a number is given again
-/

namespace AsyncMqtt

open scoped ByteOrder

open Security (Consistent Built Side)

namespace ResponseTopics

variable {V : Type} {s s' : ResponseTopics V} {id : Nat} {uuid t : Buffer} {call : Call}
  {ss : ResponseSession} {i : Authorization}

/-- For which session `set_response_topic` used a response topic -/
abbrev Owner := Buffer → Option Nat

/-- The topic that a call gives to a session -/
def ownerStep (s : ResponseTopics V) (owner : Owner) : Call → Owner
  | .setResponseTopic id uuid =>
    match s.sessions.lookup id with
    | none => owner
    | some ss => Function.update owner (topicOf uuid ss) (some id)
  | _ => owner

/-- A new session is another object than the earlier ones, and a UUID is new. -/
def Fresh (s : ResponseTopics V) (owner : Owner) : Call → Prop
  | .create id _ => s.sessions.lookup id = none ∧ ∀ t, owner t ≠ some id
  | .setResponseTopic _ uuid => owner uuid = none ∧ ∀ i ∈ s.security.authorization, i.topic ≠ uuid
  | _ => True

/-- The runs from a configuration, with the owners of the topics, whose steps meet a condition -/
inductive Runs (ok : ResponseTopics V → Owner → Call → Prop) (c : Security)
    (retains : RetainedTopicMap V) : ResponseTopics V → Owner → Prop
  | make : Runs ok c retains (make c retains) fun _ => none
  | step {s s' : ResponseTopics V} {owner : Owner} {call : Call} (hr : Runs ok c retains s owner)
      (hok : ok s owner call) (hcall : s.perform call = .ok s') :
      Runs ok c retains s' (s.ownerStep owner call)

/-- The session whose clean handler a call calls -/
def Call.cleans : Call → Option Nat
  | .clean id | .destroy id => some id
  | _ => none

/-- The rule that the clean handler of a session would remove -/
def removedBy (s : ResponseTopics V) (id : Nat) : Option Authorization :=
  match (s.sessions.lookup id).bind ResponseSession.cleanHandler with
  | none => none
  | some h => s.security.authorization.find? fun i => i.ruleNr = h.ruleNr

/-- Nothing is stored for the filter in the map: `erase` finds no name. -/
def Absent (map : AuthMap) (topic : Buffer) : Prop :=
  ∀ n, (map.erase topic n).1 = 0

/-- A session requests response information only when it has no response topic, and if its handler
    has been called since its last request then no rule has the number in the handler when it is
    called again. -/
def Undisturbed (s : ResponseTopics V) : Call → Prop
  | .create _ _ => True
  | .setResponseTopic id _ => ∀ ss, s.sessions.lookup id = some ss → ss.responseTopic = none
  | .clean id | .destroy id => ∀ ss h, s.sessions.lookup id = some ss → ss.responseTopic = none →
      ss.cleanHandler = some h → ∀ i ∈ s.security.authorization, i.ruleNr ≠ h.ruleNr

/-! ### What one call keeps -/

/-- The rules with the topics of the sessions are those that the handlers refer to. -/
structure Belongs (s : ResponseTopics V) (owner : Owner) : Prop where
  consistent : Consistent s.security
  topic : ∀ id ss t, s.sessions.lookup id = some ss → ss.responseTopic = some t →
    owner t = some id ∧
      ∃ i ∈ s.security.authorization, i.topic = t ∧ ss.cleanHandler = some ⟨t, i.ruleNr⟩
  rule : ∀ i ∈ s.security.authorization, ∀ id, owner i.topic = some id →
    ∃ ss, s.sessions.lookup id = some ss ∧ ss.responseTopic = some i.topic ∧
      ss.cleanHandler = some ⟨i.topic, i.ruleNr⟩

namespace Belongs

variable {owner : Owner}

/-- There is one rule for a response topic. -/
theorem eq_of_topic (h : Belongs s owner) (hi : i ∈ s.security.authorization)
    (howner : owner i.topic = some id) :
    ∀ j ∈ s.security.authorization, j.topic = i.topic → j = i := by
  intro j hj htopic
  obtain ⟨ss, hlookup, -, hhandler⟩ := h.rule i hi id howner
  obtain ⟨ss', hlookup', -, hhandler'⟩ := h.rule j hj id (htopic ▸ howner)
  obtain rfl : ss' = ss := Option.some.inj (hlookup'.symm.trans hlookup)
  -- the handler has one number
  have hnr : j.ruleNr = i.ruleNr :=
    congrArg CleanHandler.ruleNr (Option.some.inj (hhandler'.symm.trans hhandler))
  exact h.consistent.numbered.eq_of_ruleNr hj hi hnr

theorem create {username : Buffer} (h : Belongs s owner)
    (hfresh : Fresh s owner (.create id username)) :
    Belongs { s with sessions := s.sessions.insert id ⟨username, none, none⟩ } owner := by
  refine ⟨h.consistent, fun id' ss' t hlookup htopic => ?_, fun i hi id' howner => ?_⟩
  · by_cases hid : id' = id
    · subst hid
      rw [AList.lookup_insert] at hlookup
      obtain rfl := Option.some.inj hlookup
      exact nomatch htopic
    · rw [AList.lookup_insert_ne hid] at hlookup
      exact h.topic id' ss' t hlookup htopic
  · have hid : id' ≠ id := by
      rintro rfl
      exact hfresh.2 _ howner
    dsimp only
    rw [AList.lookup_insert_ne hid]
    exact h.rule i hi id' howner

theorem setResponseTopic (h : Belongs s owner) (hlookup : s.sessions.lookup id = some ss)
    (hnone : ss.responseTopic = none) (hfresh : Fresh s owner (.setResponseTopic id uuid))
    (hcall : s.setResponseTopic id uuid ss = .ok s') :
    Belongs s' (Function.update owner uuid (some id)) := by
  have htopicOf : topicOf uuid ss = uuid := by
    rw [topicOf, hnone]
    rfl
  obtain ⟨⟨ruleNr, c⟩, hadd, hret⟩ := Except.bind_eq_ok.mp hcall
  obtain rfl := Except.ok.inj hret
  rw [htopicOf] at hadd ⊢
  obtain ⟨new, hrules, hnew, hnr⟩ := Security.addAuth_authorization hadd
  have hmem (i : Authorization) : i ∈ c.authorization ↔ i ∈ s.security.authorization ∨ i = new := by
    rw [hrules, List.mem_append, List.mem_singleton]
  refine ⟨h.consistent.addAuth hadd, fun id' ss' t hlookup' htopic => ?_,
    fun i hi id' howner => ?_⟩
  -- the session gets the new topic, the others keep theirs
  · by_cases hid : id' = id
    · subst hid
      rw [AList.lookup_insert] at hlookup'
      obtain rfl := Option.some.inj hlookup'
      obtain rfl : uuid = t := Option.some.inj htopic
      exact ⟨Function.update_self .., new, (hmem new).mpr (.inr rfl), hnew, by rw [hnr]⟩
    · rw [AList.lookup_insert_ne hid] at hlookup'
      obtain ⟨howner, i, hi, htopic', hhandler⟩ := h.topic id' ss' t hlookup' htopic
      have ht : t ≠ uuid := by
        rintro rfl
        rw [hfresh.1] at howner
        exact nomatch howner
      rw [Function.update_of_ne ht]
      exact ⟨howner, i, (hmem i).mpr (.inl hi), htopic', hhandler⟩
  -- the rules of before belong to their sessions, the new one to this session
  · rcases (hmem i).mp hi with hi | rfl
    · rw [Function.update_of_ne (hfresh.2 i hi)] at howner
      obtain ⟨ss', hlookup', htopic, hhandler⟩ := h.rule i hi id' howner
      have hid : id' ≠ id := by
        rintro rfl
        obtain rfl := Option.some.inj (hlookup'.symm.trans hlookup)
        rw [hnone] at htopic
        exact nomatch htopic
      dsimp only
      rw [AList.lookup_insert_ne hid]
      exact ⟨ss', hlookup', htopic, hhandler⟩
    · rw [hnew, Function.update_self] at howner
      obtain rfl := Option.some.inj howner
      exact ⟨_, AList.lookup_insert .., by rw [hnew], by rw [hnew, hnr]⟩

/-- The handler removes the rule of its session, or none. -/
theorem callCleanHandler (h : Belongs s owner) (hlookup : s.sessions.lookup id = some ss)
    (hok : Undisturbed s (.clean id)) :
    Consistent (s.callCleanHandler ss).security ∧
      (s.callCleanHandler ss).sessions = s.sessions ∧
      ∀ i, i ∈ (s.callCleanHandler ss).security.authorization ↔
        i ∈ s.security.authorization ∧ owner i.topic ≠ some id := by
  have howned : ∀ i ∈ s.security.authorization, owner i.topic = some id →
      ss.responseTopic = some i.topic ∧ ss.cleanHandler = some ⟨i.topic, i.ruleNr⟩ := by
    intro i hi howner
    obtain ⟨ss', hlookup', hrest⟩ := h.rule i hi id howner
    obtain rfl := Option.some.inj (hlookup'.symm.trans hlookup)
    exact hrest
  unfold ResponseTopics.callCleanHandler
  cases htopic : ss.responseTopic with
  | some t =>
    obtain ⟨howner, i, hi, rfl, hhandler⟩ := h.topic id ss t hlookup htopic
    rw [hhandler]
    have honly := h.eq_of_topic hi howner
    -- no other rule has the topic
    have halone : Security.Alone i s.security.authorization := fun j hj hne f n => by
      have htopics : i.topic ≠ j.topic := fun heq => hne (honly j hj heq.symm)
      constructor
      · exact fun hhas hhas' => htopics (Side.topic_eq hhas hhas')
      · exact fun hhas hhas' => htopics (Side.topic_eq hhas hhas')
    obtain ⟨hconsistent, hmem⟩ := h.consistent.removeAuth hi halone
    refine ⟨hconsistent, rfl, fun j => (hmem j).trans (and_congr_right fun hj => ?_)⟩
    refine not_congr ⟨fun heq => heq ▸ howner, fun howner' => ?_⟩
    have htopic' := (howned j hj howner').1
    rw [htopic] at htopic'
    exact honly j hj (Option.some.inj htopic').symm
  | none =>
    -- the session has no rule
    have hnone : ∀ i ∈ s.security.authorization, owner i.topic ≠ some id := by
      intro i hi howner
      have htopic' := (howned i hi howner).1
      rw [htopic] at htopic'
      exact nomatch htopic'
    cases hhandler : ss.cleanHandler with
    | none => exact ⟨h.consistent, rfl, fun i => ⟨fun hi => ⟨hi, hnone i hi⟩, And.left⟩⟩
    | some handler =>
      have hfind : s.security.authorization.find? (fun i => i.ruleNr = handler.ruleNr) = none := by
        rw [List.find?_eq_none]
        exact fun i hi => by simpa using hok ss handler hlookup htopic hhandler i hi
      have hremove : s.security.removeAuth handler.ruleNr = s.security := by
        unfold Security.removeAuth
        rw [hfind]
      dsimp only
      rw [hremove]
      exact ⟨h.consistent, rfl, fun i => ⟨fun hi => ⟨hi, hnone i hi⟩, And.left⟩⟩

/-- After its handler has been called, a session has no rule. -/
theorem of_cleaned {sessions : AList fun _ : Nat => ResponseSession} (h : Belongs s owner)
    (hlookup : s.sessions.lookup id = some ss) (hok : Undisturbed s (.clean id))
    (hothers : ∀ id', id' ≠ id → sessions.lookup id' = s.sessions.lookup id')
    (hself : ∀ ss', sessions.lookup id = some ss' → ss'.responseTopic = none) :
    Belongs { s.callCleanHandler ss with sessions } owner := by
  obtain ⟨hconsistent, -, hmem⟩ := h.callCleanHandler hlookup hok
  refine ⟨hconsistent, fun id' ss' t hlookup' htopic => ?_, fun i hi id' howner => ?_⟩
  · by_cases hid : id' = id
    · subst hid
      rw [hself ss' hlookup'] at htopic
      exact nomatch htopic
    · dsimp only at hlookup'
      rw [hothers id' hid] at hlookup'
      obtain ⟨howner, i, hi, rfl, hhandler⟩ := h.topic id' ss' t hlookup' htopic
      refine ⟨howner, i, (hmem i).mpr ⟨hi, ?_⟩, rfl, hhandler⟩
      rw [howner]
      exact fun heq => hid (Option.some.inj heq)
  · obtain ⟨hi, hne⟩ := (hmem i).mp hi
    have hid : id' ≠ id := by
      rintro rfl
      exact hne howner
    dsimp only
    rw [hothers id' hid]
    exact h.rule i hi id' howner

theorem clean (h : Belongs s owner) (hlookup : s.sessions.lookup id = some ss)
    (hok : Undisturbed s (.clean id)) : Belongs (s.clean id ss) owner := by
  have hsessions := (h.callCleanHandler hlookup hok).2.1
  refine h.of_cleaned hlookup hok (fun id' hid => ?_) fun ss' hlookup' => ?_
  · rw [hsessions, AList.lookup_insert_ne hid]
  · rw [AList.lookup_insert] at hlookup'
    exact (Option.some.inj hlookup').symm ▸ rfl

theorem destroy (h : Belongs s owner) (hlookup : s.sessions.lookup id = some ss)
    (hok : Undisturbed s (.clean id)) : Belongs (s.destroy id ss) owner := by
  have hsessions := (h.callCleanHandler hlookup hok).2.1
  refine h.of_cleaned hlookup hok (fun id' hid => ?_) fun ss' hlookup' => ?_
  · show ((s.clean id ss).sessions.erase id).lookup id' = _
    rw [AList.lookup_erase_ne hid]
    show ((s.callCleanHandler ss).sessions.insert id _).lookup id' = _
    rw [hsessions, AList.lookup_insert_ne hid]
  · rw [AList.lookup_erase] at hlookup'
    exact nomatch hlookup'

/-- What one call does. -/
theorem perform (h : Belongs s owner) (hfresh : Fresh s owner call) (hok : Undisturbed s call)
    (hcall : s.perform call = .ok s') : Belongs s' (s.ownerStep owner call) := by
  -- a new session has no topic, and only a clean or destroyed one loses its rule
  cases call with
  | create id username =>
    obtain rfl := Except.ok.inj hcall
    exact h.create hfresh
  | setResponseTopic id uuid =>
    unfold ownerStep
    unfold ResponseTopics.perform at hcall
    dsimp only at hcall ⊢
    cases hlookup : s.sessions.lookup id with
    | none =>
      rw [hlookup] at hcall
      exact Except.ok.inj hcall ▸ h
    | some ss =>
      rw [hlookup] at hcall
      have hnone := hok ss hlookup
      have htopic : topicOf uuid ss = uuid := by
        rw [topicOf, hnone]
        rfl
      dsimp only
      rw [htopic]
      exact h.setResponseTopic hlookup hnone hfresh hcall
  | clean id =>
    unfold ResponseTopics.perform at hcall
    dsimp only at hcall
    cases hlookup : s.sessions.lookup id with
    | none =>
      rw [hlookup] at hcall
      exact Except.ok.inj hcall ▸ h
    | some ss =>
      rw [hlookup] at hcall
      exact Except.ok.inj hcall ▸ h.clean hlookup hok
  | destroy id =>
    unfold ResponseTopics.perform at hcall
    dsimp only at hcall
    cases hlookup : s.sessions.lookup id with
    | none =>
      rw [hlookup] at hcall
      exact Except.ok.inj hcall ▸ h
    | some ss =>
      rw [hlookup] at hcall
      exact Except.ok.inj hcall ▸ h.destroy hlookup hok

/-- The rule that a handler removes is the one of its session. -/
theorem owner_of_removedBy (h : Belongs s owner) (hcleans : call.cleans = some id)
    (hok : Undisturbed s call) (hi : s.removedBy id = some i) : owner i.topic = some id := by
  -- a destroyed session is cleaned
  have hok : Undisturbed s (.clean id) := by
    cases call with
    | create _ _ => exact nomatch hcleans
    | setResponseTopic _ _ => exact nomatch hcleans
    | clean _ => exact Option.some.inj hcleans ▸ hok
    | destroy _ => exact Option.some.inj hcleans ▸ hok
  unfold removedBy at hi
  cases hlookup : s.sessions.lookup id with
  | none =>
    rw [hlookup] at hi
    exact nomatch hi
  | some ss =>
    rw [hlookup, Option.bind_some] at hi
    cases hhandler : ss.cleanHandler with
    | none =>
      rw [hhandler] at hi
      exact nomatch hi
    | some handler =>
      rw [hhandler] at hi
      have hmem : i ∈ s.security.authorization := List.mem_of_find?_eq_some hi
      have hnr : i.ruleNr = handler.ruleNr := by simpa using List.find?_some hi
      -- the handler was set for the topic of the session
      cases htopic : ss.responseTopic with
      | none => exact absurd hnr (hok ss handler hlookup htopic hhandler i hmem)
      | some t =>
        obtain ⟨howner, j, hj, rfl, hhandler'⟩ := h.topic id ss t hlookup htopic
        obtain rfl := Option.some.inj (hhandler'.symm.trans hhandler)
        rw [h.consistent.numbered.eq_of_ruleNr hmem hj hnr, howner]

/-- Nothing is left of a session that is gone. -/
theorem absent (h : Belongs s owner) (hgone : s.sessions.lookup id = none)
    (howner : owner t = some id) :
    (∀ i ∈ s.security.authorization, i.topic ≠ t) ∧ Absent s.security.authSubMap t ∧
      Absent s.security.authPubMap t := by
  have hnone : ∀ i ∈ s.security.authorization, i.topic ≠ t := by
    rintro i hi rfl
    obtain ⟨ss, hlookup, -⟩ := h.rule i hi id howner
    rw [hgone] at hlookup
    exact nomatch hlookup
  have habsent {d : Security.Side} {map : AuthMap}
      (hspread : Security.Spread d map s.security.authorization) : Absent map t := by
    obtain ⟨m, hm, hlookup⟩ := hspread
    intro n
    have hnil : s.security.authorization.filter (d.has t n) = [] := by
      rw [List.filter_eq_nil_iff]
      exact fun i hi hhas => hnone i hi (Security.Side.has_iff.mp hhas).1.symm
    rw [(hm.erase t n).1, hlookup, hnil]
    rfl
  exact ⟨hnone, habsent h.consistent.sub, habsent h.consistent.pub⟩

end Belongs

/-! ### Runs -/

variable {c : Security} {retains : RetainedTopicMap V} {owner : Owner}

theorem Runs.belongs (hc : Built c)
    (hr : Runs (fun s owner call => Fresh s owner call ∧ Undisturbed s call) c retains s owner) :
    Belongs s owner := by
  induction hr with
  | make => exact ⟨hc.consistent, nofun, fun _ _ _ => nofun⟩
  | step _ hok hcall ih => exact ih.perform hok.1 hok.2 hcall

/-- In a run in which the sessions are undisturbed, a handler removes only a rule that was added for
    its session, and nothing is left of a rule that was added for a session that is gone. -/
theorem rules_belong_to_session (hc : Built c)
    (hr : Runs (fun s owner call => Fresh s owner call ∧ Undisturbed s call) c retains s owner) :
    (∀ call id, call.cleans = some id → Undisturbed s call → ∀ i, s.removedBy id = some i →
      owner i.topic = some id) ∧
    ∀ id t, s.sessions.lookup id = none → owner t = some id →
      (∀ i ∈ s.security.authorization, i.topic ≠ t) ∧ Absent s.security.authSubMap t ∧
        Absent s.security.authPubMap t := by
  have h := hr.belongs hc
  constructor
  · exact fun call id hcleans hok i hi => h.owner_of_removedBy hcleans hok hi
  · exact fun id t hgone howner => h.absent hgone howner

/-- The state after a call that does not throw -/
def after (s : ResponseTopics V) (call : Call) : ResponseTopics V :=
  (s.perform call).toOption.getD s

theorem Runs.after {ok : ResponseTopics V → Owner → Call → Prop} (hr : Runs ok c retains s owner)
    (call : Call) (hok : ok s owner call) (hcall : (s.perform call).toOption.isSome) :
    Runs ok c retains (s.after call) (s.ownerStep owner call) := by
  refine hr.step hok ?_
  unfold ResponseTopics.after
  cases hperform : s.perform call with
  | ok s' => rfl
  | error e =>
    rw [hperform] at hcall
    exact nomatch hcall

/-- The configuration of a new broker -/
def defaultSecurity : Security := (Security.make.defaultConfig.toOption).getD Security.make

theorem built_defaultSecurity : Built defaultSecurity := Built.defaultConfig .make rfl

/-- A new broker with two sessions of the anonymous user, of which the first one has requested
    response information -/
def twoSessions : ResponseTopics Nat :=
  (((make defaultSecurity RetainedTopicMap.make).after (.create 0 (ofLiteral "anonymous"))).after
    (.create 1 (ofLiteral "anonymous"))).after (.setResponseTopic 0 [0x75])

/-- The owner of its response topic -/
def ownerOfFirst : Owner := Function.update (fun _ => none) [0x75] (some 0)

theorem runs_twoSessions {ok : ResponseTopics Nat → Owner → Call → Prop}
    (hok : ∀ s owner call, Fresh s owner call → Undisturbed s call → ok s owner call) :
    Runs ok defaultSecurity RetainedTopicMap.make twoSessions ownerOfFirst := by
  have h₀ : Runs ok defaultSecurity RetainedTopicMap.make _ _ := .make
  have h₁ := h₀.after (.create 0 (ofLiteral "anonymous")) (hok _ _ _ ⟨rfl, nofun⟩ trivial) rfl
  have h₂ := h₁.after (.create 1 (ofLiteral "anonymous")) (hok _ _ _ ⟨rfl, nofun⟩ trivial) rfl
  refine h₂.after (.setResponseTopic 0 [0x75]) (hok _ _ _ ⟨rfl, by decide +kernel⟩ ?_) rfl
  intro ss hss
  obtain rfl := Option.some.inj hss
  rfl

/-- The first session is destroyed. -/
theorem rules_belong_to_session_destroyed :
    ∃ s : ResponseTopics Nat, s.sessions.lookup 0 = none ∧ Absent s.security.authSubMap [0x75] := by
  have htwo : Runs (fun s owner call => Fresh s owner call ∧ Undisturbed s call) defaultSecurity
      RetainedTopicMap.make twoSessions ownerOfFirst :=
    runs_twoSessions fun _ _ _ hfresh hok => ⟨hfresh, hok⟩
  have hr := htwo.after (.destroy 0) ⟨trivial, fun ss h hss hnone => by
    obtain rfl := Option.some.inj hss
    exact nomatch hnone⟩ rfl
  have hspec := (rules_belong_to_session built_defaultSecurity hr).2 0 [0x75] rfl (by decide)
  exact ⟨_, rfl, hspec.2.1⟩

/-- The first session is renewed, the second one requests response information and gets the number of
    the removed rule, and the handler of the first session removes its rule. -/
theorem handler_removes_rule_of_other :
    ¬ ∀ (c : Security) (retains : RetainedTopicMap Nat) (s : ResponseTopics Nat) (owner : Owner),
      Built c → Runs Fresh c retains s owner → ∀ (call : Call) (id : Nat), call.cleans = some id →
        ∀ i, s.removedBy id = some i → owner i.topic = some id := by
  intro hclaim
  have htwo : Runs Fresh defaultSecurity RetainedTopicMap.make twoSessions ownerOfFirst :=
    runs_twoSessions fun _ _ _ hfresh _ => hfresh
  have hr := (htwo.after (.clean 0) trivial rfl).after (.setResponseTopic 1 [0x76])
    ⟨by decide, by decide +kernel⟩ rfl
  have howner := hclaim _ _ _ _ built_defaultSecurity hr (.destroy 0) 0 rfl _ rfl
  exact absurd howner (by decide +kernel)

end ResponseTopics

end AsyncMqtt
