import AsyncMqtt.Native.RetainedMessages
import AsyncMqtt.Spec.RetainedCounts

/-!
# The last retained message of each topic

Runs of `do_publish` and of the handlers of its expiry timers, step by step and in any order, beside
the messages that should be retained: for each topic the last retained one, unless its payload is
empty or it has expired. `do_publish` tests whether there are buffers and not whether they have bytes,
and looks at the protocol version with which the session began and not at the one of its connection.
A handler erases its topic, whichever message stands there by then.

## Key results

- `RetainedMessages.Stands.perform`: what one step does
- `RetainedMessages.retains_last`: what is retained after a run
- `RetainedMessages.empty_will_retained`: the run in which an empty will stays
- `RetainedMessages.late_handler_erases`: the run in which a handler erases the message of another call
-/

namespace AsyncMqtt

namespace RetainedMessages

open RetainedTopicMap (Stored Holds)

/-- A retained message -/
structure Message where
  payload : Buffer
  props : Properties
  qos : UInt8
  deriving DecidableEq

/-- What a stored message says -/
def messageOf (r : RetainType) : Message := ⟨r.payload.flatten, r.props, r.qosValue⟩

/-- What happens: a client publishes, a will is published, the call `n` of `do_publish` stores its
    message or returns, its Message Expiry Interval has elapsed, or the handler of its timer begins or
    ends. -/
inductive Call where
  | publish (sourceVersion : ProtocolVersion) (topic payload : Buffer) (opts : UInt8)
      (props : Properties)
  | will (sourceVersion : ProtocolVersion) (w : Will) (d : Option Nat)
  | store (n : Nat)
  | publishReturns (n : Nat)
  | elapse (n : Nat)
  | expiryBegins (n : Nat)
  | expiryEnds (n : Nat)

/-- The step is taken, if it can be. -/
def perform (s : RetainedMessages) : Call → Option RetainedMessages
  | .publish sourceVersion topic payload opts props =>
    some (s.doPublish (clientParams sourceVersion topic payload opts props))
  | .will sourceVersion w d => some (s.doPublish (willParams sourceVersion w d))
  | .store n => s.store n
  | .publishReturns n => s.publishReturns n
  | .elapse n => s.elapse n
  | .expiryBegins n => s.expiryBegins n
  | .expiryEnds n => s.expiryEnds n

/-! ### What should be retained -/

/-- The number of the messages that were published, those that are about to be stored, for each topic
    the last retained one with its number, and the numbers of those whose interval has elapsed -/
structure Last where
  count : Nat
  pending : Nat → Option PublishParams
  last : Buffer → Option (Nat × Message)
  elapsed : List Nat

/-- Nothing is published. -/
def Last.make : Last := ⟨0, fun _ => none, fun _ => none, []⟩

/-- A message is published. One without buffers is dealt with at once. -/
def Last.publish (l : Last) (p : PublishParams) : Last :=
  let count := l.count + 1
  if Pub.getRetain p.opts then
    if p.payload = [] then { l with count, last := Function.update l.last p.topic none }
    else { l with count, pending := Function.update l.pending l.count (some p) }
  else { l with count }

/-- A message is the last one of its topic now. If it is empty then there is none. -/
def Last.store (l : Last) (n : Nat) : Last :=
  match l.pending n with
  | none => l
  | some p => { l with
      pending := Function.update l.pending n none
      last := Function.update l.last p.topic
        (if p.payload.flatten = [] then none
        else some (n, ⟨p.payload.flatten, p.props, Pub.getQos p.opts⟩)) }

/-- What a step should do. -/
def Last.step (l : Last) : Call → Last
  | .publish sourceVersion topic payload opts props =>
    l.publish (clientParams sourceVersion topic payload opts props)
  | .will sourceVersion w d => l.publish (willParams sourceVersion w d)
  | .store n => l.store n
  | .elapse n => { l with elapsed := n :: l.elapsed }
  | .publishReturns _ | .expiryBegins _ | .expiryEnds _ => l

/-- The last retained message of a topic, if it has not expired -/
def Last.of (l : Last) (topic : Buffer) : Option (Nat × Message) :=
  (l.last topic).filter fun i => ! (hasExpiry i.2.props && l.elapsed.contains i.1)

/-- The runs, with what should be retained, whose steps meet a condition -/
inductive Runs (ok : RetainedMessages → Call → Prop) : RetainedMessages → Last → Prop
  | make : Runs ok make .make
  | step {s s' l} (call : Call) (hr : Runs ok s l) (hok : ok s call)
      (hcall : s.perform call = some s') : Runs ok s' (l.step call)

/-! ### Proper steps -/

/-- A message with the retain flag that has buffers has bytes, and if it has a Message Expiry Interval
    too then its session began with version 5. -/
def ProperParams (p : PublishParams) : Prop :=
  Pub.getRetain p.opts → p.payload ≠ [] →
    p.payload.flatten ≠ [] ∧ (hasExpiry p.props → p.sourceVersion = .v5)

/-- The topic can be stored: it has no wildcards, and no counter reaches its maximum with it. -/
def Room (m : RetainedTopicMap RetainType) (topic : Buffer) : Prop :=
  NoWildcards (topicFilterTokens topic) ∧ m.size < sizeMax ∧
    m.nextNodeId + (topicFilterTokens topic).length < sizeMax

/-- A step meets the condition: what is published is proper, there is room for what is stored, and
    when a handler ends, its call has stored its message and no other message stands at the topic. -/
def Proper (s : RetainedMessages) : Call → Prop
  | .publish sourceVersion topic payload opts props =>
    ProperParams (clientParams sourceVersion topic payload opts props)
  | .will sourceVersion w d => ProperParams (willParams sourceVersion w d)
  | .store n => ∀ p, s.storing.lookup n = some p → Room s.retains p.topic
  | .expiryEnds n => s.storing.lookup n = none ∧
      ∀ topic r, s.timers.lookup n = some (topic, .running true) →
        s.retains.valueAt (topicFilterTokens topic) = some r → r.timMessageExpiry = some n
  | .publishReturns _ | .elapse _ | .expiryBegins _ => True

variable {s s' : RetainedMessages} {l : Last} {p : PublishParams} {call : Call} {n : Nat}
  {m : Stored RetainType}

/-- For a PUBLISH of a client, only the version counts. -/
theorem proper_publish {sourceVersion : ProtocolVersion} {topic payload : Buffer} {opts : UInt8}
    {props : Properties} : Proper s (.publish sourceVersion topic payload opts props) ↔
      (Pub.getRetain (qosAndRetain opts) → payload ≠ [] → hasExpiry (forwardPublishProps props) →
        sourceVersion = .v5) := by
  have hpayloads : payloadsOf payload ≠ [] ↔ payload ≠ [] := by
    unfold payloadsOf
    split <;> simp_all
  have hflatten : (payloadsOf payload).flatten = payload := by
    unfold payloadsOf
    split
    · next hnil => simp [hnil]
    · simp
  constructor
  · intro h hretain hne
    exact (h hretain (hpayloads.mpr hne)).2
  · intro h hretain hne
    have hne : payload ≠ [] := hpayloads.mp hne
    refine ⟨?_, h hretain hne⟩
    show (payloadsOf payload).flatten ≠ []
    rwa [hflatten]

/-- A retained will has a message, since its payload is one buffer. -/
theorem proper_will {sourceVersion : ProtocolVersion} {w : Will} {d : Option Nat} :
    Proper s (.will sourceVersion w d) ↔ (Pub.getRetain (qosAndRetain w.pubopts) → w.message ≠ [] ∧
      (hasExpiry (forwardWillProps d w.props) → sourceVersion = .v5)) := by
  have hflatten : [w.message].flatten = w.message := by simp
  constructor
  · intro h hretain
    have hp := h hretain (List.cons_ne_nil _ _)
    exact ⟨by rw [← hflatten]; exact hp.1, hp.2⟩
  · intro h hretain _
    obtain ⟨hne, hversion⟩ := h hretain
    refine ⟨?_, hversion⟩
    show [w.message].flatten ≠ []
    rwa [hflatten]

/-! ### What stands in the map -/

/-- The closures of the timers -/
abbrev Timers := AList fun _ : Nat => Buffer × ExpiryStage

/-- The timer of the call `n` is going to erase the topic, as long as a message has it. -/
def Armed (timers : Timers) (n : Nat) (topic : Buffer) : Prop :=
  ∃ stage, timers.lookup n = some (topic, stage) ∧ stage ≠ .running false

theorem Armed.insert_ne {timers : Timers} {k : Nat} {topic : Buffer} (h : Armed timers n topic)
    (hne : n ≠ k) (i : Buffer × ExpiryStage) : Armed (timers.insert k i) n topic := by
  obtain ⟨stage, hlookup, hstage⟩ := h
  exact ⟨stage, (AList.lookup_insert_ne hne).trans hlookup, hstage⟩

theorem Armed.erase_ne {timers : Timers} {k : Nat} {topic : Buffer} (h : Armed timers n topic)
    (hne : n ≠ k) : Armed (timers.erase k) n topic := by
  obtain ⟨stage, hlookup, hstage⟩ := h
  exact ⟨stage, (AList.lookup_erase_ne hne).trans hlookup, hstage⟩

/-- A timer goes on, and is armed afterwards. -/
theorem Armed.goes_on {timers : Timers} {k : Nat} {topic u : Buffer} {stage stage' : ExpiryStage}
    (h : Armed timers n topic) (hk : timers.lookup k = some (u, stage))
    (hstage : n = k → stage' ≠ .running false) : Armed (timers.insert k (u, stage')) n topic := by
  by_cases hne : n = k
  · subst hne
    obtain ⟨_, hlookup, -⟩ := h
    obtain ⟨rfl, -⟩ := Prod.mk.inj (Option.some.inj (hlookup.symm.trans hk))
    exact ⟨stage', AList.lookup_insert _, hstage rfl⟩
  · exact h.insert_ne hne _

/-- A message that is about to be stored is proper, and its timer is armed. -/
structure Storing (s : RetainedMessages) (l : Last) (n : Nat) (p : PublishParams) : Prop where
  lt : n < l.count
  bytes : p.payload.flatten ≠ []
  expiry : p.messageExpiryInterval = hasExpiry p.props
  armed : hasExpiry p.props → Armed s.timers n p.topic

/-- A stored message is the last one of its topic, and its timer is armed. -/
structure IsLast (s : RetainedMessages) (l : Last) (topic : Buffer) (r : RetainType) (n : Nat) :
    Prop where
  last : l.last topic = some (n, messageOf r)
  lt : n < l.count
  timer : r.timMessageExpiry = if hasExpiry r.props then some n else none
  armed : hasExpiry r.props → Armed s.timers n topic

/-- What stands in the map is the last message of each topic, as long as it has not expired. -/
structure Stands (s : RetainedMessages) (l : Last) (m : Stored RetainType) : Prop where
  holds : Holds s.retains m
  mapSize : s.retains.mapSize = m.entries.length
  calls : s.calls = l.count
  pending : ∀ n, s.storing.lookup n = l.pending n
  storing : ∀ n p, l.pending n = some p → Storing s l n p
  message : ∀ topic r, m.lookup topic = some r → ∃ n, IsLast s l topic r n
  present : ∀ topic n msg, l.last topic = some (n, msg) →
    (m.lookup topic).isSome ∨ (hasExpiry msg.props ∧ n ∈ l.elapsed)
  stage : ∀ n topic stage, s.timers.lookup n = some (topic, stage) →
    n < l.count ∧ (stage = .waiting → n ∉ l.elapsed) ∧ (stage ≠ .waiting → n ∈ l.elapsed)
  elapsed : ∀ n ∈ l.elapsed, n < l.count

/-- Another topic stays when one is erased. -/
theorem lookup_of_erase {topic u : Buffer} {r : RetainType} (h : (m.erase topic).lookup u = some r) :
    u ≠ topic ∧ m.lookup u = some r := by
  have hne : u ≠ topic := by
    rintro rfl
    rw [AList.lookup_erase] at h
    cases h
  exact ⟨hne, by rwa [AList.lookup_erase_ne hne] at h⟩

/-- `erase` and its size -/
theorem holds_erase {retains : RetainedTopicMap RetainType} (hm : Holds retains m)
    (hsize : retains.mapSize = m.entries.length) (topic : Buffer) :
    Holds (retains.erase topic).2 (m.erase topic) ∧
      (retains.erase topic).2.mapSize = (m.erase topic).entries.length := by
  have hrepresents : RetainedTopicMap.Represents retains (keyLevels m ++ []) m :=
    (List.append_nil _).symm ▸ hm
  obtain ⟨-, -, hsize', -⟩ := hrepresents.eraseCall topic
  have hlen := AList.length_erase m topic
  exact ⟨hm.erase topic, by omega⟩

/-- `insert_or_assign` does not throw if there is room. -/
theorem holds_insert {retains : RetainedTopicMap RetainType} {topic : Buffer} (hm : Holds retains m)
    (hsize : retains.mapSize = m.entries.length) (hroom : Room retains topic) (r : RetainType) :
    ∃ k retains', retains.insertOrAssignState topic r = (.ok k, retains') ∧
      Holds retains' (m.insert topic r) ∧ retains'.mapSize = (m.insert topic r).entries.length := by
  have hrepresents : RetainedTopicMap.Represents retains (keyLevels m ++ []) m :=
    (List.append_nil _).symm ▸ hm
  obtain ⟨hwild, hmax, hnext⟩ := hroom
  cases hrepresents.inserts topic r with
  | returns retains' hstate hm' _ hsize' =>
    rw [List.append_nil] at hm'
    have hlen := AList.length_insert m topic r
    exact ⟨_, retains', hstate, hm', by omega⟩
  | rejects _ _ _ hnot => exact absurd hwild hnot
  | overflows _ hlimit =>
    rw [List.append_nil, length_keyLevels, ← hsize] at hlimit
    have hsize' : retains.size = retains.mapSize := rfl
    omega

namespace Stands

theorem make : Stands make .make ∅ where
  holds := Holds.make
  mapSize := rfl
  calls := rfl
  pending _ := rfl
  storing := by rintro _ _ ⟨⟩
  message := by rintro _ _ ⟨⟩
  present := by rintro _ _ _ ⟨⟩
  stage := by rintro _ _ _ ⟨⟩
  elapsed := by rintro _ ⟨⟩

/-- A call that stores no message -/
theorem publishErases (h : Stands s l m) (topic : Buffer) :
    Stands { s with retains := (s.retains.erase topic).2, calls := s.calls + 1 }
      { l with count := l.count + 1, last := Function.update l.last topic none }
      (m.erase topic) where
  holds := (holds_erase h.holds h.mapSize topic).1
  mapSize := (holds_erase h.holds h.mapSize topic).2
  calls := congrArg (· + 1) h.calls
  pending := h.pending
  storing n p hp :=
    have hstoring := h.storing n p hp
    { hstoring with lt := Nat.lt_succ_of_lt hstoring.lt }
  message u r hr := by
    obtain ⟨hne, hr⟩ := lookup_of_erase hr
    obtain ⟨n, hlast⟩ := h.message u r hr
    refine ⟨n, ?_, Nat.lt_succ_of_lt hlast.lt, hlast.timer, hlast.armed⟩
    exact (Function.update_of_ne hne ..).trans hlast.last
  present u n msg hlast := by
    dsimp only at hlast
    have hne : u ≠ topic := by
      rintro rfl
      rw [Function.update_self] at hlast
      cases hlast
    rw [Function.update_of_ne hne] at hlast
    rw [AList.lookup_erase_ne hne]
    exact h.present u n msg hlast
  stage n u stage hstage := (h.stage n u stage hstage).imp_left Nat.lt_succ_of_lt
  elapsed n hn := Nat.lt_succ_of_lt (h.elapsed n hn)

/-- A call without the retain flag -/
theorem publishPasses (h : Stands s l m) :
    Stands { s with calls := s.calls + 1 } { l with count := l.count + 1 } m where
  holds := h.holds
  mapSize := h.mapSize
  calls := congrArg (· + 1) h.calls
  pending := h.pending
  storing n p hp :=
    have hstoring := h.storing n p hp
    { hstoring with lt := Nat.lt_succ_of_lt hstoring.lt }
  message u r hr := by
    obtain ⟨n, hlast⟩ := h.message u r hr
    exact ⟨n, { hlast with lt := Nat.lt_succ_of_lt hlast.lt }⟩
  present := h.present
  stage n u stage hstage := (h.stage n u stage hstage).imp_left Nat.lt_succ_of_lt
  elapsed n hn := Nat.lt_succ_of_lt (h.elapsed n hn)

/-- A call that is going to store a message. Its number is new, so that no other timer is touched. -/
theorem publishStores (h : Stands s l m) (hbytes : p.payload.flatten ≠ [])
    (hexpiry : p.messageExpiryInterval = hasExpiry p.props) :
    Stands { s with
        calls := s.calls + 1
        storing := s.storing.insert s.calls p
        timers := if p.messageExpiryInterval then s.timers.insert s.calls (p.topic, .waiting)
          else s.timers }
      { l with
        count := l.count + 1
        pending := Function.update l.pending l.count (some p) } m := by
  -- the timers of earlier calls are not touched
  have harmed {n : Nat} {u : Buffer} (hn : n < l.count) (harmed : Armed s.timers n u) :
      Armed (if p.messageExpiryInterval then s.timers.insert s.calls (p.topic, .waiting)
        else s.timers) n u := by
    split
    · exact harmed.insert_ne (by rw [h.calls]; exact Nat.ne_of_lt hn) _
    · exact harmed
  constructor
  · exact h.holds
  · exact h.mapSize
  · exact congrArg (· + 1) h.calls
  · intro n
    dsimp only
    rw [h.calls]
    -- the call is the one that begins, or an earlier one
    by_cases hn : n = l.count
    · subst hn
      rw [AList.lookup_insert, Function.update_self]
    · rw [AList.lookup_insert_ne hn, Function.update_of_ne hn]
      exact h.pending n
  · intro n q hq
    dsimp only at hq
    by_cases hn : n = l.count
    · subst hn
      rw [Function.update_self] at hq
      obtain rfl := Option.some.inj hq
      refine ⟨Nat.lt_succ_self _, hbytes, hexpiry, fun hexp => ⟨.waiting, ?_, by rintro ⟨⟩⟩⟩
      dsimp only
      rw [if_pos (hexpiry.trans hexp), h.calls, AList.lookup_insert]
    · rw [Function.update_of_ne hn] at hq
      obtain ⟨hlt, hbytes', hexpiry', harmed'⟩ := h.storing n q hq
      exact ⟨Nat.lt_succ_of_lt hlt, hbytes', hexpiry', fun hexp => harmed hlt (harmed' hexp)⟩
  -- the retained messages are those of earlier calls
  · intro u r hr
    obtain ⟨n, hlast, hlt, htimer, harmed'⟩ := h.message u r hr
    exact ⟨n, hlast, Nat.lt_succ_of_lt hlt, htimer, fun hexp => harmed hlt (harmed' hexp)⟩
  · exact h.present
  -- the timer of the new call waits, the others are in their stage
  · intro n u stage hstage
    dsimp only at hstage
    have hold : s.timers.lookup n = some (u, stage) → n < l.count + 1 ∧
        (stage = .waiting → n ∉ l.elapsed) ∧ (stage ≠ .waiting → n ∈ l.elapsed) := fun hstage =>
      (h.stage n u stage hstage).imp_left Nat.lt_succ_of_lt
    split at hstage
    · rw [h.calls] at hstage
      by_cases hn : n = l.count
      · subst hn
        rw [AList.lookup_insert] at hstage
        obtain ⟨-, rfl⟩ := Prod.mk.inj (Option.some.inj hstage)
        refine ⟨Nat.lt_succ_self _, fun _ hmem => ?_, fun hne => absurd rfl hne⟩
        exact Nat.lt_irrefl _ (h.elapsed _ hmem)
      · rw [AList.lookup_insert_ne hn] at hstage
        exact hold hstage
    · exact hold hstage
  · exact fun n hn => Nat.lt_succ_of_lt (h.elapsed n hn)

/-- `do_publish` up to `insert_or_assign` -/
theorem doPublish (h : Stands s l m) (hok : ProperParams p) :
    ∃ m', Stands (s.doPublish p) (l.publish p) m' := by
  unfold RetainedMessages.doPublish Last.publish
  dsimp only
  by_cases hretain : Pub.getRetain p.opts
  · rw [if_pos hretain, if_pos hretain]
    by_cases hempty : p.payload = []
    · rw [if_pos hempty, if_pos (List.isEmpty_iff.mpr hempty)]
      exact ⟨_, h.publishErases p.topic⟩
    · rw [if_neg hempty, if_neg (mt List.isEmpty_iff.mp hempty)]
      obtain ⟨hbytes, hversion⟩ := hok hretain hempty
      have hexpiry : p.messageExpiryInterval = hasExpiry p.props := by
        unfold PublishParams.messageExpiryInterval
        cases hp : hasExpiry p.props with
        | false => rw [Bool.and_false]
        | true => simp [hversion hp]
      exact ⟨_, h.publishStores hbytes hexpiry⟩
  · rw [if_neg hretain, if_neg hretain]
    exact ⟨_, h.publishPasses⟩

/-- The message is stored, and replaces the one of its topic. -/
theorem store (h : Stands s l m) (hok : Proper s (.store n)) (hcall : s.store n = some s') :
    ∃ m', Stands s' (l.store n) m' := by
  obtain ⟨p, hp, rfl⟩ := Option.map_eq_some_iff.mp hcall
  have hpending : l.pending n = some p := (h.pending n).symm.trans hp
  obtain ⟨hlt, hbytes, hexpiry, harmed⟩ := h.storing n p hpending
  obtain ⟨k, retains', hstate, hm', hsize'⟩ :=
    holds_insert h.holds h.mapSize (hok p hp) (storedMessage n p)
  unfold Last.store
  rw [hpending, hstate]
  dsimp only
  rw [if_neg hbytes]
  -- the messages of other topics are not touched
  have hothers {u : Buffer} (hu : u ≠ p.topic) :
      (m.insert p.topic (storedMessage n p)).lookup u = m.lookup u := AList.lookup_insert_ne hu
  refine ⟨m.insert p.topic (storedMessage n p), hm', hsize', h.calls, fun i => ?_, fun i q hq => ?_,
    fun u r hr => ?_, fun u i msg hlast => ?_, h.stage, h.elapsed⟩
  -- the call has stored its message
  · by_cases hi : i = n
    · subst hi
      dsimp only
      rw [AList.lookup_erase, Function.update_self]
    · dsimp only
      rw [AList.lookup_erase_ne hi, Function.update_of_ne hi]
      exact h.pending i
  · by_cases hi : i = n
    · subst hi
      dsimp only at hq
      rw [Function.update_self] at hq
      cases hq
    · dsimp only at hq
      rw [Function.update_of_ne hi] at hq
      obtain ⟨hlt', hbytes', hexpiry', harmed'⟩ := h.storing i q hq
      exact ⟨hlt', hbytes', hexpiry', harmed'⟩
  -- the topic has the message of the call now
  · by_cases hu : u = p.topic
    · subst hu
      rw [AList.lookup_insert] at hr
      obtain rfl := Option.some.inj hr
      refine ⟨n, Function.update_self .., hlt, ?_, harmed⟩
      show (if p.messageExpiryInterval then some n else none) = _
      rw [hexpiry]
      rfl
    · rw [hothers hu] at hr
      obtain ⟨i, hlast, hlt', htimer, harmed'⟩ := h.message u r hr
      exact ⟨i, (Function.update_of_ne hu ..).trans hlast, hlt', htimer, harmed'⟩
  · by_cases hu : u = p.topic
    · subst hu
      rw [AList.lookup_insert]
      exact .inl rfl
    · dsimp only at hlast
      rw [Function.update_of_ne hu] at hlast
      rw [hothers hu]
      exact h.present u i msg hlast

theorem publishReturns (h : Stands s l m) (hcall : s.publishReturns n = some s') : Stands s' l m := by
  unfold RetainedMessages.publishReturns at hcall
  split at hcall
  · obtain rfl := Option.some.inj hcall
    exact { h with
      storing := fun i p hp =>
        have hstoring := h.storing i p hp
        ⟨hstoring.lt, hstoring.bytes, hstoring.expiry, hstoring.armed⟩
      message := fun u r hr =>
        have ⟨i, hlast⟩ := h.message u r hr
        ⟨i, hlast.last, hlast.lt, hlast.timer, hlast.armed⟩ }
  · cases hcall

/-- An interval elapses. The handler is posted, and what has expired may stay until it has run. -/
theorem elapse (h : Stands s l m) (hcall : s.elapse n = some s') :
    Stands s' { l with elapsed := n :: l.elapsed } m := by
  unfold RetainedMessages.elapse at hcall
  split at hcall
  · next hn =>
    obtain rfl := Option.some.inj hcall
    have hlt : n < l.count := h.calls ▸ hn
    have hpresent : ∀ topic k msg, l.last topic = some (k, msg) →
        (m.lookup topic).isSome ∨ (hasExpiry msg.props ∧ k ∈ n :: l.elapsed) := fun topic k msg hlast =>
      (h.present topic k msg hlast).imp_right fun hexp => ⟨hexp.1, List.mem_cons_of_mem _ hexp.2⟩
    have helapsed : ∀ k ∈ n :: l.elapsed, k < l.count :=
      List.forall_mem_cons.mpr ⟨hlt, h.elapsed⟩
    -- the timer of another call is as it was
    have hstage {k : Nat} {u : Buffer} {stage : ExpiryStage} (hk : k ≠ n)
        (hlookup : s.timers.lookup k = some (u, stage)) : k < l.count ∧
        (stage = .waiting → k ∉ n :: l.elapsed) ∧ (stage ≠ .waiting → k ∈ n :: l.elapsed) := by
      obtain ⟨hlt, hwait, hgone⟩ := h.stage k u stage hlookup
      refine ⟨hlt, fun hw hmem => ?_, fun hw => List.mem_cons_of_mem _ (hgone hw)⟩
      exact hwait hw ((List.mem_cons.mp hmem).resolve_left hk)
    split
    · next topic htimer =>
      have harmed {k : Nat} {u : Buffer} (harmed : Armed s.timers k u) :
          Armed (s.timers.insert n (topic, .posted)) k u :=
        harmed.goes_on htimer fun _ => by rintro ⟨⟩
      refine { h with
        storing := fun k p hp => ?_
        message := fun u r hr => ?_
        present := hpresent
        stage := fun k u stage hlookup => ?_
        elapsed := helapsed }
      · have hstoring := h.storing k p hp
        exact ⟨hstoring.lt, hstoring.bytes, hstoring.expiry, fun hexp => harmed (hstoring.armed hexp)⟩
      · obtain ⟨k, hlast⟩ := h.message u r hr
        exact ⟨k, hlast.last, hlast.lt, hlast.timer, fun hexp => harmed (hlast.armed hexp)⟩
      · by_cases hk : k = n
        · subst hk
          dsimp only at hlookup
          rw [AList.lookup_insert] at hlookup
          obtain ⟨-, rfl⟩ := Prod.mk.inj (Option.some.inj hlookup)
          exact ⟨hlt, by rintro ⟨⟩, fun _ => List.mem_cons_self ..⟩
        · dsimp only at hlookup
          rw [AList.lookup_insert_ne hk] at hlookup
          exact hstage hk hlookup
    · next hnot =>
      refine { h with
        storing := fun k p hp => ?_
        message := fun u r hr => ?_
        present := hpresent
        stage := fun k u stage hlookup => ?_
        elapsed := helapsed }
      · have hstoring := h.storing k p hp
        exact ⟨hstoring.lt, hstoring.bytes, hstoring.expiry, hstoring.armed⟩
      · obtain ⟨k, hlast⟩ := h.message u r hr
        exact ⟨k, hlast.last, hlast.lt, hlast.timer, hlast.armed⟩
      · by_cases hk : k = n
        · subst hk
          refine ⟨hlt, ?_, fun _ => List.mem_cons_self ..⟩
          rintro rfl
          exact absurd hlookup (hnot u)
        · exact hstage hk hlookup
  · cases hcall

/-- What a stored message or a call has is held. -/
theorem isHeld (h : Stands s l m) :
    (∀ p, l.pending n = some p → s.isHeld n) ∧
      ∀ u r, m.lookup u = some r → r.timMessageExpiry = some n → s.isHeld n := by
  unfold RetainedMessages.isHeld
  simp only [Bool.or_eq_true, List.any_eq_true, Option.any_eq_true, decide_eq_true_eq]
  constructor
  · intro p hp
    rw [h.pending, hp]
    exact .inl (.inl rfl)
  · intro u r hr htim
    rw [← h.holds.valueAt_topic] at hr
    obtain ⟨e, he, hvalue⟩ := Option.bind_eq_some_iff.mp hr
    exact .inr ⟨e, h.holds.mem he, r, hvalue, htim⟩

/-- The handler locks the timer if the message is still there, or is about to be stored. -/
theorem expiryBegins (h : Stands s l m) (hcall : s.expiryBegins n = some s') : Stands s' l m := by
  unfold RetainedMessages.expiryBegins at hcall
  split at hcall
  · next topic htimer =>
    obtain rfl := Option.some.inj hcall
    obtain ⟨hlt, -, helapsed⟩ := h.stage n topic .posted htimer
    refine { h with
      storing := fun k p hp => ?_
      message := fun u r hr => ?_
      stage := fun k u stage hlookup => ?_ }
    · have hstoring := h.storing k p hp
      refine ⟨hstoring.lt, hstoring.bytes, hstoring.expiry, fun hexp => ?_⟩
      refine (hstoring.armed hexp).goes_on htimer ?_
      rintro rfl
      rw [h.isHeld.1 p hp]
      rintro ⟨⟩
    · obtain ⟨k, hlast⟩ := h.message u r hr
      refine ⟨k, hlast.last, hlast.lt, hlast.timer, fun hexp => ?_⟩
      refine (hlast.armed hexp).goes_on htimer ?_
      rintro rfl
      rw [h.isHeld.2 u r hr (by rw [hlast.timer, if_pos hexp])]
      rintro ⟨⟩
    -- the handler of the timer has been posted and begins now
    · dsimp only at hlookup
      by_cases hk : k = n
      · subst hk
        rw [AList.lookup_insert] at hlookup
        obtain ⟨-, rfl⟩ := Prod.mk.inj (Option.some.inj hlookup)
        exact ⟨hlt, by rintro ⟨⟩, fun _ => helapsed (by rintro ⟨⟩)⟩
      · rw [AList.lookup_insert_ne hk] at hlookup
        exact h.stage k u stage hlookup
  · cases hcall

/-- The handler erases the message whose timer it is, or nothing. -/
theorem expiryEnds (h : Stands s l m) (hok : Proper s (.expiryEnds n))
    (hcall : s.expiryEnds n = some s') : ∃ m', Stands s' l m' := by
  obtain ⟨hstored, hown⟩ := hok
  have hpending : l.pending n = none := (h.pending n).symm.trans hstored
  unfold RetainedMessages.expiryEnds at hcall
  split at hcall
  · next topic locked htimer =>
    obtain rfl := Option.some.inj hcall
    obtain ⟨-, -, helapsed⟩ := h.stage n topic (.running locked) htimer
    have hstage : ∀ k u stage, (s.timers.erase n).lookup k = some (u, stage) → k < l.count ∧
        (stage = .waiting → k ∉ l.elapsed) ∧ (stage ≠ .waiting → k ∈ l.elapsed) := by
      intro k u stage hlookup
      by_cases hk : k = n
      · subst hk
        rw [AList.lookup_erase] at hlookup
        cases hlookup
      · rw [AList.lookup_erase_ne hk] at hlookup
        exact h.stage k u stage hlookup
    have hstoring : ∀ (retains : RetainedTopicMap RetainType) k p, l.pending k = some p →
        Storing { s with retains, timers := s.timers.erase n } l k p := by
      intro retains k p hp
      have hstoring := h.storing k p hp
      refine ⟨hstoring.lt, hstoring.bytes, hstoring.expiry, fun hexp => ?_⟩
      refine (hstoring.armed hexp).erase_ne ?_
      rintro rfl
      rw [hpending] at hp
      cases hp
    cases locked with
    | false =>
      -- no message has the timer any more
      refine ⟨m, { h with
        storing := hstoring _
        message := fun u r hr => ?_
        stage := hstage }⟩
      obtain ⟨k, hlast⟩ := h.message u r hr
      refine ⟨k, hlast.last, hlast.lt, hlast.timer, fun hexp => (hlast.armed hexp).erase_ne ?_⟩
      rintro rfl
      obtain ⟨stage, hlookup, hrunning⟩ := hlast.armed hexp
      exact hrunning (Prod.mk.inj (Option.some.inj (hlookup.symm.trans htimer))).2
    | true =>
      have herase := holds_erase h.holds h.mapSize topic
      refine ⟨m.erase topic, herase.1, herase.2, h.calls, h.pending, hstoring _, fun u r hr => ?_,
        fun u k msg hlast => ?_, hstage, h.elapsed⟩
      · obtain ⟨hne, hr⟩ := lookup_of_erase hr
        obtain ⟨k, hlast⟩ := h.message u r hr
        refine ⟨k, hlast.last, hlast.lt, hlast.timer, fun hexp => (hlast.armed hexp).erase_ne ?_⟩
        rintro rfl
        obtain ⟨stage, hlookup, -⟩ := hlast.armed hexp
        exact hne (Prod.mk.inj (Option.some.inj (hlookup.symm.trans htimer))).1
      · rcases h.present u k msg hlast with hsome | hexpired
        · by_cases hu : u = topic
          · subst hu
            -- the message that goes is the one whose interval has elapsed
            obtain ⟨r, hr⟩ := Option.isSome_iff_exists.mp hsome
            obtain ⟨i, hi⟩ := h.message u r hr
            obtain ⟨rfl, rfl⟩ := Prod.mk.inj (Option.some.inj (hlast.symm.trans hi.last))
            have htim := hown u r htimer ((h.holds.valueAt_topic u).trans hr)
            rw [hi.timer] at htim
            split at htim
            · next hexp =>
              obtain rfl := Option.some.inj htim
              exact .inr ⟨hexp, helapsed (by rintro ⟨⟩)⟩
            · cases htim
          · rw [AList.lookup_erase_ne hu]
            exact .inl hsome
        · exact .inr hexpired
  · cases hcall

/-- What one step does. -/
theorem perform (h : Stands s l m) (hok : Proper s call) (hcall : s.perform call = some s') :
    ∃ m', Stands s' (l.step call) m' := by
  cases call with
  | publish sourceVersion topic payload opts props =>
    obtain rfl := Option.some.inj hcall
    exact h.doPublish hok
  | will sourceVersion w d =>
    obtain rfl := Option.some.inj hcall
    exact h.doPublish hok
  | store n => exact h.store hok hcall
  | publishReturns n => exact ⟨m, h.publishReturns hcall⟩
  | elapse n => exact ⟨m, h.elapse hcall⟩
  | expiryBegins n => exact ⟨m, h.expiryBegins hcall⟩
  | expiryEnds n => exact h.expiryEnds hok hcall

end Stands

/-! ### Runs -/

theorem Runs.stands (hr : Runs Proper s l) : ∃ m, Stands s l m := by
  induction hr with
  | make => exact ⟨∅, Stands.make⟩
  | step call _ hok hcall ih =>
    obtain ⟨m, hm⟩ := ih
    exact hm.perform hok hcall

/-- The message that is retained for a topic -/
def retained (s : RetainedMessages) (topic : Buffer) : Option Message :=
  (s.retains.valueAt (topicFilterTokens topic)).map messageOf

/-- No handler that erases the topic is posted or running. -/
def Settled (s : RetainedMessages) (topic : Buffer) : Prop :=
  ∀ n stage, s.timers.lookup n = some (topic, stage) → stage = .waiting

/-- After a run of proper steps, the last retained message of each topic is retained if it has bytes
    and has not expired. No other one is, but for an expired one whose handler is still to run. -/
theorem retains_last (hr : Runs Proper s l) (topic : Buffer) :
    (∀ i, l.of topic = some i → s.retained topic = some i.2) ∧
      (∀ msg, s.retained topic = some msg → ∃ n, l.last topic = some (n, msg)) ∧
      (s.Settled topic → s.retained topic = (l.of topic).map Prod.snd) := by
  obtain ⟨m, hm⟩ := hr.stands
  have hretained : s.retained topic = (m.lookup topic).map messageOf := by
    rw [retained, hm.holds.valueAt_topic]
  have hlast : ∀ msg, s.retained topic = some msg → ∃ n, l.last topic = some (n, msg) := by
    intro msg hmsg
    rw [hretained] at hmsg
    obtain ⟨r, hr, rfl⟩ := Option.map_eq_some_iff.mp hmsg
    obtain ⟨n, hn⟩ := hm.message topic r hr
    exact ⟨n, hn.last⟩
  have hof : ∀ i, l.of topic = some i → s.retained topic = some i.2 := by
    rintro ⟨n, msg⟩ hi
    obtain ⟨hi, hfresh⟩ := Option.filter_eq_some_iff.mp hi
    rcases hm.present topic n msg hi with hsome | ⟨hexp, helapsed⟩
    · obtain ⟨r, hr⟩ := Option.isSome_iff_exists.mp hsome
      have hmsg : s.retained topic = some (messageOf r) := by rw [hretained, hr]; rfl
      obtain ⟨k, hk⟩ := hlast _ hmsg
      obtain ⟨-, rfl⟩ := Prod.mk.inj (Option.some.inj (hi.symm.trans hk))
      exact hmsg
    · simp [hexp, helapsed] at hfresh
  refine ⟨hof, hlast, fun hsettled => ?_⟩
  cases hi : l.of topic with
  | some i => exact hof i hi
  | none =>
    -- what would still be there has expired, and its handler is not over
    rw [hretained, Option.map_none, Option.map_eq_none_iff]
    by_contra hsome
    obtain ⟨r, hr⟩ := Option.ne_none_iff_exists'.mp hsome
    obtain ⟨n, hn⟩ := hm.message topic r hr
    have hexpired : hasExpiry r.props ∧ n ∈ l.elapsed := by
      by_contra hfresh
      have hsome : l.of topic = some (n, messageOf r) :=
        Option.filter_eq_some_iff.mpr ⟨hn.last, by simpa [messageOf, imp_iff_not_or] using hfresh⟩
      rw [hi] at hsome
      cases hsome
    obtain ⟨stage, hlookup, -⟩ := hn.armed hexpired.1
    obtain ⟨-, hwaiting, -⟩ := hm.stage n topic stage hlookup
    exact hwaiting (hsettled n stage hlookup) hexpired.2

/-- A message with a Message Expiry Interval is replaced by a will, and then its interval elapses. -/
theorem retains_last_replaced : ∃ s : RetainedMessages, s.retained [0x61] = some ⟨[8], [], 0⟩ := by
  have hroom : ∀ m : RetainedTopicMap RetainType, m.mapSize ≤ 1 → m.nextNodeId ≤ 3 →
      Room m [0x61] := by
    intro m hsize hnext
    refine ⟨by unfold NoWildcards; decide, Nat.lt_of_le_of_lt hsize (by decide), ?_⟩
    exact Nat.lt_of_le_of_lt (Nat.add_le_add_right hnext _) (by decide)
  have h₁ := Runs.step (.publish .v5 [0x61] [7] 1 [.messageExpiryInterval 9]) .make
    (proper_publish.mpr fun _ _ _ => rfl) rfl
  have h₂ := Runs.step (.store 0) h₁
    (fun p hp => Option.some.inj hp ▸ hroom _ (by decide) (by decide)) rfl
  have h₃ := Runs.step (.publishReturns 0) h₂ trivial rfl
  have h₄ := Runs.step (.will .v311 ⟨[0x61], [8], 1, []⟩ none) h₃
    (proper_will.mpr fun _ => ⟨by rintro ⟨⟩, by rintro ⟨⟩⟩) rfl
  have h₅ := Runs.step (.store 1) h₄
    (fun p hp => Option.some.inj hp ▸ hroom _ (by decide) (by decide)) rfl
  have h₆ := Runs.step (.elapse 0) h₅ trivial rfl
  have h₇ := Runs.step (.expiryBegins 0) h₆ trivial rfl
  have h₈ := Runs.step (.expiryEnds 0) h₇ ⟨rfl, by rintro topic r ⟨⟩⟩ rfl
  exact ⟨_, (retains_last h₈ [0x61]).1 (1, ⟨[8], [], 0⟩) rfl⟩

/-- A retained will with an empty message does not erase the retained message, and is retained
    itself. -/
theorem empty_will_retained :
    ¬ ∀ (s : RetainedMessages) (l : Last), Runs (fun _ _ => True) s l →
      ∀ topic, s.Settled topic → s.retained topic = (l.of topic).map Prod.snd := by
  intro hclaim
  have h₀ : Runs (fun _ _ => True) make .make := .make
  have h₁ := Runs.step (.publish .v311 [0x61] [7] 1 []) h₀ trivial rfl
  have h₂ := Runs.step (.store 0) h₁ trivial rfl
  have h₃ := Runs.step (.will .v311 ⟨[0x61], [], 1, []⟩ none) h₂ trivial rfl
  have h₄ := Runs.step (.store 1) h₃ trivial rfl
  exact absurd (hclaim _ _ h₄ [0x61] (by rintro n stage ⟨⟩)) (by decide)

/-- A handler that has locked the timer of a message erases the one by which it is replaced. -/
theorem late_handler_erases : ∃ (s : RetainedMessages) (l : Last), Runs (fun _ _ => True) s l ∧
    l.of [0x61] = some (1, ⟨[8], [], 0⟩) ∧ s.retained [0x61] = none := by
  have h₀ : Runs (fun _ _ => True) make .make := .make
  have h₁ := Runs.step (.publish .v5 [0x61] [7] 1 [.messageExpiryInterval 9]) h₀ trivial rfl
  have h₂ := Runs.step (.store 0) h₁ trivial rfl
  have h₃ := Runs.step (.elapse 0) h₂ trivial rfl
  have h₄ := Runs.step (.expiryBegins 0) h₃ trivial rfl
  have h₅ := Runs.step (.publish .v311 [0x61] [8] 1 []) h₄ trivial rfl
  have h₆ := Runs.step (.store 1) h₅ trivial rfl
  have h₇ := Runs.step (.expiryEnds 0) h₆ trivial rfl
  exact ⟨_, _, h₇, rfl, by decide⟩

end RetainedMessages

end AsyncMqtt
