import AsyncMqtt.Native.SessionWill

/-!
# Wills are published once

Runs of a session beside the wills that were given to it. A will may be dropped when its connection
ends with a normal DISCONNECT, when the session is resumed before the will delay has elapsed, and when
its own Message Expiry Interval has elapsed. The destructor publishes a will that waits for its delay.
`renew` calls `clean` alone, and a DISCONNECT with any code but one clears the will.

## Key results

- `SessionWill.Accounts.perform`: what one event does
- `SessionWill.wills_published`: every will is published at most once, and lost for these reasons only
- `SessionWill.renew_drops_pending`: the run in which a CONNECT with clean start drops a will
-/

namespace AsyncMqtt

namespace SessionWill

/-! ### What may be dropped -/

/-- The number of the CONNECTs, the wills that they gave, when the connection of the last one ended,
    and the wills that may be dropped. -/
structure History where
  connects : Nat
  given : List (Nat × Will)
  endedAt : Option Nat
  excused : List Nat

namespace History

/-- A CONNECT -/
def connect (c : Connect) (h : History) : History :=
  { h with
    connects := h.connects + 1
    given := h.given ++ c.willValue.toList
    endedAt := none }

/-- The connection has ended. -/
def ends (now : Nat) (h : History) : History :=
  { h with endedAt := some (h.endedAt.getD now) }

/-- The will that is pending may be dropped. -/
def excuse (will : Option (Nat × Will)) (h : History) : History :=
  { h with excused := h.excused ++ (will.map Prod.fst).toList }

/-- There is a will, and its will delay has elapsed since its connection ended. -/
def delayOver (now : Nat) (will : Option (Nat × Will)) (h : History) : Bool :=
  will.any fun i => h.endedAt.any fun t => t + seconds (willDelay i.2) ≤ now

/-- What may be dropped after an event. -/
def step (now : Nat) (s : SessionWill) (h : History) : Event → History
  | .lost | .left => h.ends now
  | .disconnect rc =>
    if rc = DisconnectReasonCode.normalDisconnection then (h.ends now).excuse s.willValue
    else h.ends now
  | .renew c => h.connect c
  | .inherit c =>
    if h.delayOver now s.willValue then h.connect c else (h.excuse s.willValue).connect c
  | .willExpires => h.excuse s.willValue
  | .delayExpires | .delayHandler | .destroy => h

/-- The first CONNECT -/
def make (c : Connect) : History := connect c ⟨0, [], none, []⟩

end History

/-- The events that have a CONNECT have it with its number. -/
def Numbered (h : History) : Event → Prop
  | .renew c | .inherit c => c.nr = h.connects
  | _ => True

/-- The runs of a session whose events meet a condition, with the time and with what may be dropped -/
inductive Runs (ok : Nat → SessionWill → History → Event → Prop) :
    Nat → SessionWill → History → Prop
  | create (now : Nat) (c : Connect) (cleanStart : Bool) (hnr : c.nr = 0) :
    Runs ok now (create now c cleanStart) (.make c)
  | step {now now' s s' h} (e : Event) (hr : Runs ok now s h) (hnow : now ≤ now')
      (hnr : Numbered h e) (hok : ok now' s h e) (hs : s.perform now' e = some s') :
    Runs ok now' s' (h.step now' s e)

/-- The events that drop no will without a reason: there is no DISCONNECT with an error code and no
    CONNECT with clean start while a will is pending, and no other CONNECT after its will delay has
    elapsed. -/
def Proper (now : Nat) (s : SessionWill) (h : History) : Event → Prop
  | .disconnect rc => s.willValue = none ∨ rc = DisconnectReasonCode.normalDisconnection ∨
      rc = DisconnectReasonCode.disconnectWithWillMessage
  | .renew _ => s.willValue = none
  | .inherit _ => h.delayOver now s.willValue = false
  | _ => True

/-! ### One event -/

variable {now : Nat} {version : ProtocolVersion} {will : Option (Nat × Will)}
  {sent : List (Nat × PublishParams)} {s s' : SessionWill} {h : History}

/-- Every will that was given is published, dropped with a reason, or pending. -/
structure Accounts (version : ProtocolVersion) (will : Option (Nat × Will))
    (sent : List (Nat × PublishParams)) (h : History) : Prop where
  given_lt : ∀ i ∈ h.given, i.1 < h.connects
  pending_given : ∀ i ∈ will, i ∈ h.given
  pending_unsent : ∀ i ∈ will, i.1 ∉ sent.map Prod.fst
  sent_given : ∀ p ∈ sent, ∃ w d, (p.1, w) ∈ h.given ∧ p.2 = willParams version w d
  sent_nodup : (sent.map Prod.fst).Nodup
  served : ∀ i ∈ h.given, (∃ d, (i.1, willParams version i.2 d) ∈ sent) ∨ i.1 ∈ h.excused ∨
    will = some i

namespace Accounts

/-- The network connection ends. -/
theorem ends (ha : Accounts version will sent h) : Accounts version will sent (h.ends now) :=
  ⟨ha.given_lt, ha.pending_given, ha.pending_unsent, ha.sent_given, ha.sent_nodup, ha.served⟩

/-- A will that is published is not pending any more. -/
theorem send {i : Nat × Will} (ha : Accounts version (some i) sent h) (d : Option Nat) :
    Accounts version none (sent ++ [(i.1, willParams version i.2 d)]) h := by
  have hgiven : i ∈ h.given := ha.pending_given i rfl
  have hunsent : i.1 ∉ sent.map Prod.fst := ha.pending_unsent i rfl
  refine ⟨ha.given_lt, nofun, nofun, fun p hp => ?_, ?_, fun j hj => ?_⟩
  · rcases List.mem_append.mp hp with hp | hp
    · exact ha.sent_given p hp
    · obtain rfl := List.mem_singleton.mp hp
      exact ⟨i.2, d, hgiven, rfl⟩
  · rw [List.map_append, List.nodup_append]
    refine ⟨ha.sent_nodup, List.nodup_singleton _, fun a ha b hb => ?_⟩
    obtain rfl := List.mem_singleton.mp hb
    rintro rfl
    exact hunsent ha
  · rcases ha.served j hj with ⟨d', hsent⟩ | hexcused | hpending
    · exact .inl ⟨d', List.mem_append_left _ hsent⟩
    · exact .inr (.inl hexcused)
    · obtain rfl := Option.some.inj hpending
      exact .inl ⟨d, List.mem_append_right _ (List.mem_singleton_self _)⟩

/-- A will that may be dropped is dropped. -/
theorem drop (ha : Accounts version will sent h) : Accounts version none sent (h.excuse will) := by
  refine ⟨ha.given_lt, nofun, nofun, ha.sent_given, ha.sent_nodup, fun i hi => ?_⟩
  rcases ha.served i hi with hsent | hexcused | rfl
  · exact .inl hsent
  · exact .inr (.inl (List.mem_append_left _ hexcused))
  · exact .inr (.inl (List.mem_append_right _ (List.mem_singleton_self _)))

/-- A CONNECT gives a will, when none is pending. -/
theorem connect (ha : Accounts version none sent h) {c : Connect} (hnr : c.nr = h.connects) :
    Accounts version c.willValue sent (h.connect c) := by
  have hnew : ∀ i ∈ c.willValue, i.1 = h.connects := by
    intro i hi
    obtain ⟨w, -, rfl⟩ := Option.map_eq_some_iff.mp hi
    exact hnr
  have hsent : ∀ n ∈ sent.map Prod.fst, n < h.connects := by
    intro n hn
    obtain ⟨p, hp, rfl⟩ := List.mem_map.mp hn
    obtain ⟨w, d, hgiven, -⟩ := ha.sent_given p hp
    exact ha.given_lt _ hgiven
  -- the earlier Wills keep their numbers, and the new one has a number of its own
  refine ⟨fun i hi => ?_, fun i hi => ?_, fun i hi hmem => ?_, fun p hp => ?_, ha.sent_nodup,
    fun i hi => ?_⟩
  · show i.1 < h.connects + 1
    rcases List.mem_append.mp hi with hi | hi
    · exact Nat.lt_succ_of_lt (ha.given_lt i hi)
    · rw [hnew i (Option.mem_toList.mp hi)]
      exact Nat.lt_succ_self _
  · exact List.mem_append_right _ (Option.mem_toList.mpr hi)
  · have hlt := hsent i.1 hmem
    rw [hnew i hi] at hlt
    exact Nat.lt_irrefl _ hlt
  · obtain ⟨w, d, hgiven, hparams⟩ := ha.sent_given p hp
    exact ⟨w, d, List.mem_append_left _ hgiven, hparams⟩
  -- a Will of before has been served, since none is pending
  · rcases List.mem_append.mp hi with hi | hi
    · rcases ha.served i hi with hsent | hexcused | hpending
      · exact .inl hsent
      · exact .inr (.inl hexcused)
      · exact nomatch hpending
    · exact .inr (.inr (Option.mem_toList.mp hi))

/-- The invariant of a session -/
def Of (s : SessionWill) (h : History) : Prop := Accounts s.version s.willValue s.sent h

/-- The will is sent. -/
theorem sendWillImpl (ha : Of s h) : Of (s.sendWillImpl now) h := by
  unfold SessionWill.sendWillImpl
  split
  · exact ha
  · next n w hwill =>
    unfold Of at ha
    rw [hwill] at ha
    exact ha.send _

/-- After it was sent there is no will. -/
theorem sendWillImpl_willValue : (s.sendWillImpl now).willValue = none := by
  unfold SessionWill.sendWillImpl
  split
  · assumption
  · rfl

/-- The will is sent, or its timer is set. -/
theorem sendWill (ha : Of s h) : Of (s.sendWill now) h := by
  unfold SessionWill.sendWill
  split
  · exact ha
  · split
    · exact ha
    · exact sendWillImpl ha

/-- Without a will nothing is excused. -/
theorem excuse_none : h.excuse none = h := by simp [History.excuse]

/-- The will is cleared. -/
theorem clearWill (ha : Of s h) : Of s.clearWill (h.excuse s.willValue) := ha.drop

/-- A DISCONNECT is received. -/
theorem disconnect {rc : UInt8} (ha : Of s h) (hok : Proper now s h (.disconnect rc)) :
    Of (s.disconnectHandler now rc) (h.step now s (.disconnect rc)) := by
  unfold disconnectHandler
  by_cases hwith : rc = DisconnectReasonCode.disconnectWithWillMessage
  · subst hwith
    exact (sendWill ha).ends
  · rw [decide_eq_false hwith]
    have hclear : Of s.clearWill ((h.ends now).excuse s.willValue) := clearWill ha.ends
    show Of s.clearWill (if _ then _ else _)
    split
    · exact hclear
    · next hnormal =>
      -- with any other code there is no will to clear
      have hnone : s.willValue = none := by
        rcases hok with hnone | hrc | hrc
        · exact hnone
        · exact absurd hrc hnormal
        · exact absurd hrc hwith
      rw [hnone, excuse_none] at hclear
      exact hclear

/-- The session is begun anew. -/
theorem renew {c : Connect} (ha : Of s h) (hnr : c.nr = h.connects) (hwill : s.willValue = none) :
    Of (s.renew now c) (h.connect c) := by
  have hclean : Accounts s.version none s.sent h := hwill ▸ ha
  exact hclean.connect hnr

/-- The session is inherited. -/
theorem inherit {c : Connect} (ha : Of s h) (hnr : c.nr = h.connects)
    (hok : h.delayOver now s.willValue = false) :
    Of (s.inherit now c) (h.step now s (.inherit c)) := by
  -- the old will is cleared with a reason, and the new one is set
  have hcleared : Accounts s.version none s.sent (h.excuse s.willValue) := ha.drop
  show Of _ (if _ then _ else _)
  rw [hok]
  exact hcleared.connect hnr

/-- What one event does. -/
theorem perform {e : Event} (ha : Of s h) (hnr : Numbered h e) (hok : Proper now s h e)
    (hs : s.perform now e = some s') : Of s' (h.step now s e) := by
  cases e with
  | lost =>
    -- the Will is published, or its delay begins
    obtain ⟨-, rfl⟩ := Option.ite_some_none_eq_some.mp hs
    exact (sendWill ha).ends
  | disconnect rc =>
    obtain ⟨-, rfl⟩ := Option.ite_some_none_eq_some.mp hs
    exact disconnect ha hok
  | left =>
    obtain ⟨-, rfl⟩ := Option.ite_some_none_eq_some.mp hs
    exact ha.ends
  | renew c =>
    obtain ⟨-, rfl⟩ := Option.ite_some_none_eq_some.mp hs
    exact renew ha hnr hok
  | inherit c =>
    obtain ⟨-, rfl⟩ := Option.ite_some_none_eq_some.mp hs
    exact inherit ha hnr hok
  | delayExpires =>
    obtain ⟨-, rfl⟩ := Option.ite_some_none_eq_some.mp hs
    exact ha
  | delayHandler =>
    obtain ⟨-, rfl⟩ := Option.ite_some_none_eq_some.mp hs
    have hwaits : Of { s with queuedDelays := s.queuedDelays - 1 } h := ha
    exact sendWillImpl hwaits
  | willExpires =>
    obtain ⟨-, rfl⟩ := Option.ite_some_none_eq_some.mp hs
    exact clearWill ha
  | destroy =>
    obtain ⟨-, rfl⟩ := Option.ite_some_none_eq_some.mp hs
    have hsent : Of (s.sendWillImpl now) h := sendWillImpl ha
    unfold Of at hsent
    rw [sendWillImpl_willValue] at hsent
    exact hsent

end Accounts

/-! ### Runs -/

/-- Sending the will does not move the session. -/
theorem sendWillImpl_place : (s.sendWillImpl now).place = s.place := by
  unfold sendWillImpl
  split <;> rfl

/-- A session that was destroyed has no will. -/
theorem perform_destroyed {e : Event} (hs : s.perform now e = some s')
    (hplace : s'.place = .destroyed) : s'.willValue = none := by
  cases e with
  | destroy =>
    obtain ⟨-, rfl⟩ := Option.ite_some_none_eq_some.mp hs
    rfl
  | lost | disconnect =>
    obtain ⟨-, rfl⟩ := Option.ite_some_none_eq_some.mp hs
    dsimp only [disconnectHandler, closeProc] at hplace
    split at hplace <;> exact nomatch hplace
  | left | renew | inherit =>
    obtain ⟨hin, rfl⟩ := Option.ite_some_none_eq_some.mp hs
    exact nomatch hin.symm.trans hplace
  | delayExpires | willExpires =>
    obtain ⟨⟨hne, -⟩, rfl⟩ := Option.ite_some_none_eq_some.mp hs
    exact absurd hplace hne
  | delayHandler =>
    obtain ⟨⟨hne, -⟩, rfl⟩ := Option.ite_some_none_eq_some.mp hs
    exact absurd (sendWillImpl_place.symm.trans hplace) hne

/-- A destroyed session has no will. -/
theorem Runs.destroyed {ok : Nat → SessionWill → History → Event → Prop} (hr : Runs ok now s h)
    (hplace : s.place = .destroyed) : s.willValue = none := by
  cases hr with
  | create => exact nomatch hplace
  | step e _ _ _ _ hs => exact perform_destroyed hs hplace

/-- Every will of a run is accounted for. -/
theorem Runs.accounts (hr : Runs Proper now s h) : Accounts.Of s h := by
  induction hr with
  | create now c cleanStart hnr =>
    have hnone : Accounts c.version none [] ⟨0, [], none, []⟩ :=
      ⟨nofun, nofun, nofun, nofun, List.nodup_nil, nofun⟩
    exact hnone.connect hnr
  | step e _ _ hnr hok hs ih => exact Accounts.perform ih hnr hok hs

/-- The wills of a session are published once and not lost: what was published is what a CONNECT gave,
    no will of a CONNECT is published twice, and each one is published, had a reason to be dropped, or
    is pending. None is pending when the session has ended. -/
structure Published (s : SessionWill) (h : History) : Prop where
  sent_given : ∀ p ∈ s.sent, ∃ w d, (p.1, w) ∈ h.given ∧ p.2 = willParams s.version w d
  once : (s.sent.map Prod.fst).Nodup
  served : ∀ i ∈ h.given, (∃ d, (i.1, willParams s.version i.2 d) ∈ s.sent) ∨ i.1 ∈ h.excused ∨
    s.willValue = some i
  ended : s.place = .destroyed → s.willValue = none

/-- A will with a will delay of five seconds -/
def delayedWill : Will := ⟨[0x61], [0x62], 0, [.willDelayInterval 5]⟩

/-- The session of a CONNECT with this will, whose connection has been lost -/
def waiting : SessionWill := (create 0 ⟨0, .v5, some delayedWill, some 9⟩ true).closeProc 1 true

/-- A session whose will is delayed -/
theorem runs_waiting {ok : Nat → SessionWill → History → Event → Prop}
    (hok : ∀ s h, ok 1 s h .lost) :
    Runs ok 1 waiting ((History.make ⟨0, .v5, some delayedWill, some 9⟩).ends 1) :=
  .step .lost (.create 0 ⟨0, .v5, some delayedWill, some 9⟩ true rfl) (Nat.zero_le 1) trivial
    (hok _ _) rfl

end SessionWill

end AsyncMqtt
