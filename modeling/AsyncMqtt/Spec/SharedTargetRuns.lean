import Mathlib.Order.Interval.Set.Defs
import AsyncMqtt.ForStd.Run
import AsyncMqtt.Spec.SharedTargetTurns

/-!
# Runs of the shared targets

Any calls of `shared_target`, one after the other. Who holds a subscription is told by the calls
alone. The entries of one share name stand in the order of their time points, and a time point is
changed only when its entry is chosen. So a member that holds a filter all the time is chosen before
another one is chosen for this filter again.

## Key results

- `SharedTarget.mem_perform`: which entry gets the reading of the clock
- `SharedTarget.Represents.perform`: who holds a subscription
- `SharedTarget.Timed.Inv.step`: the order of the time points
- `SharedTarget.takes_turns`: what is chosen, and the turns
-/

namespace AsyncMqtt

namespace SharedTarget

variable {t : SharedTarget} {e e' elem : Entry} {before after : SharedTarget} {now : Nat}
  {sn sn' f f' : Buffer} {ss ss' : SessionRef} {sub sub' : Subscription}

/-! ### Calls -/

/-- The calls of `shared_target` -/
inductive Call where
  | insert (shareName topicFilter : Buffer) (sub : Subscription) (ss : SessionRef)
  | erase (shareName topicFilter : Buffer) (ss : SessionRef)
  | eraseSession (ss : SessionRef)
  | getTarget (shareName topicFilter : Buffer)

/-- The session that a call is about -/
def Call.session : Call → Option SessionRef
  | .insert _ _ _ ss | .erase _ _ ss | .eraseSession ss => some ss
  | .getTarget _ _ => none

variable {call : Call}

/-- What a call does at a reading of the clock -/
def perform (now : Nat) (t : SharedTarget) : Call → SharedTarget
  | .insert shareName topicFilter sub ss => t.insert now shareName topicFilter sub ss
  | .erase shareName topicFilter ss => t.erase shareName topicFilter ss
  | .eraseSession ss => t.eraseSession ss
  | .getTarget shareName topicFilter => (t.getTarget now shareName topicFilter).2

/-- Whether a call reads the clock: for a new entry, or for the entry that is chosen. -/
def readsClock (t : SharedTarget) : Call → Bool
  | .insert shareName _ _ ss => ! t.any fun e => e.key = (ss.clientId, shareName)
  | .erase _ _ _ | .eraseSession _ => false
  | .getTarget shareName topicFilter => t.any fun e => e.hasFilter shareName topicFilter

/-- The session that a call of `getTarget` chooses. It does not depend on the clock. -/
def chosen (shareName topicFilter : Buffer) (t : SharedTarget) : Option SessionRef :=
  (t.getTarget 0 shareName topicFilter).1.map Prod.fst

/-- What `getTarget` returns does not depend on the clock. -/
theorem getTarget_fst (now : Nat) :
    (t.getTarget now sn f).1 = (t.getTarget 0 sn f).1 := by
  unfold getTarget
  dsimp only
  split
  · rfl
  · rfl

theorem chosen_eq_some_iff (now : Nat) :
    t.chosen sn f = some ss ↔ ∃ sub, (t.getTarget now sn f).1 = some (ss, sub) := by
  rw [chosen, ← getTarget_fst now, Option.map_eq_some_iff]
  constructor
  · rintro ⟨⟨_, sub⟩, hsub, rfl⟩
    exact ⟨sub, hsub⟩
  · rintro ⟨sub, hsub⟩
    exact ⟨_, hsub, rfl⟩

/-- A session that is chosen has an entry. -/
theorem exists_entry_of_chosen (h : t.chosen sn f = some ss) : ∃ e ∈ t, e.ss = ss := by
  obtain ⟨sub, hsub⟩ := (chosen_eq_some_iff 0).mp h
  obtain ⟨e, he, hss, -⟩ := member_of_getTarget hsub
  exact ⟨e, he, hss⟩

/-- The entry of a session and a share name gets the reading of the clock in a call. -/
def Stamps (t : SharedTarget) (ss : SessionRef) (sn : Buffer) : Call → Prop
  | .insert shareName _ _ ss' => ss = ss' ∧ sn = shareName ∧ ∀ e ∈ t, e.owner ≠ (ss, sn)
  | .erase _ _ _ | .eraseSession _ => False
  | .getTarget shareName topicFilter => sn = shareName ∧ t.chosen shareName topicFilter = some ss

/-- Where the time point of an entry comes from. -/
theorem mem_perform (he : e ∈ t.perform now call) :
    (∃ e' ∈ t, e'.owner = e.owner ∧ e'.tp = e.tp) ∨
      (e.tp = now ∧ t.readsClock call ∧ t.Stamps e.ss e.shareName call) := by
  cases call with
  | insert shareName topicFilter sub ss =>
    unfold perform SharedTarget.insert at he
    dsimp only at he
    -- an entry of the session is kept with its time, or a new one is put in
    split at he
    · obtain ⟨e', he', rfl⟩ := List.mem_map.mp he
      refine .inl ⟨e', he', ?_⟩
      split
      · exact ⟨rfl, rfl⟩
      · exact ⟨rfl, rfl⟩
    · next hany =>
      rcases List.mem_cons.mp (perm_insertByTp.mem_iff.mp he) with rfl | he
      · refine .inr ⟨rfl, by simpa [readsClock] using hany, rfl, rfl, fun e' he' howner => hany ?_⟩
        obtain ⟨hss, hname⟩ := Prod.mk.inj howner
        exact List.any_eq_true.mpr ⟨e', he', by simp [Entry.key, hss, hname]⟩
      · exact .inl ⟨e, he, rfl, rfl⟩
  | erase shareName topicFilter ss =>
    unfold perform SharedTarget.erase at he
    dsimp only at he
    obtain ⟨e', he', rfl⟩ := List.mem_map.mp (List.mem_filter.mp he).1
    refine .inl ⟨e', he', ?_⟩
    split
    · exact ⟨rfl, rfl⟩
    · exact ⟨rfl, rfl⟩
  | eraseSession ss => exact .inl ⟨e, (List.mem_filter.mp he).1, rfl, rfl⟩
  | getTarget shareName topicFilter =>
    unfold perform at he
    dsimp only at he
    -- the chosen entry gets the time, the others keep theirs
    rcases getTarget_cases now shareName topicFilter t with
      ⟨before, elem, after, sub, rfl, -, rfl, hsub, heq⟩ | ⟨-, heq⟩
    · rw [heq] at he
      rcases List.mem_cons.mp (perm_modifyTp.mem_iff.mp he) with rfl | he
      · refine .inr ⟨rfl, ?_, rfl, ?_⟩
        · simp [readsClock, Entry.hasFilter, hsub]
        · rw [chosen, ← getTarget_fst now, heq]
          rfl
      · refine .inl ⟨e, ?_, rfl, rfl⟩
        simp only [List.mem_append, List.mem_cons] at he ⊢
        tauto
    · rw [heq] at he
      exact .inl ⟨e, he, rfl, rfl⟩

/-! ### Who holds a subscription -/

/-- Who holds which subscription, for a session, a share name and a filter -/
abbrev Roster := SessionRef → Buffer → Buffer → Option Subscription

/-- The roster after a call. A subscription that is held is not overwritten. -/
def Roster.perform (r : Roster) : Call → Roster
  | .insert shareName topicFilter sub ss => fun ss' sn f =>
    if ss' = ss ∧ sn = shareName ∧ f = topicFilter then (r ss sn f).or (some sub) else r ss' sn f
  | .erase shareName topicFilter ss => fun ss' sn f =>
    if ss' = ss ∧ sn = shareName ∧ f = topicFilter then none else r ss' sn f
  | .eraseSession ss => fun ss' sn f => if ss' = ss then none else r ss' sn f
  | .getTarget _ _ => r

theorem Roster.perform_other {r : Roster} (hcall : call.session = some ss) (hne : ss' ≠ ss) :
    Roster.perform r call ss' = r ss' := by
  funext sn f
  cases call with
  | insert _ _ _ _ =>
    obtain rfl := Option.some.inj hcall
    simp [Roster.perform, hne]
  | erase _ _ _ =>
    obtain rfl := Option.some.inj hcall
    simp [Roster.perform, hne]
  | eraseSession _ =>
    obtain rfl := Option.some.inj hcall
    simp [Roster.perform, hne]
  | getTarget _ _ => exact nomatch hcall

/-- The shared targets hold what the roster says. -/
def Represents (t : SharedTarget) (r : Roster) : Prop :=
  ∀ ss sn f sub, t.Member ss sn f sub ↔ r ss sn f = some sub

/-- The keys stay unique if a call is not about another session with the same client identifier. -/
theorem Keys.perform (h : t.Keys ss)
    (hids : ∀ ss', call.session = some ss' → ss'.clientId = ss.clientId → ss' = ss) :
    (t.perform now call).Keys ss := by
  cases call with
  | insert _ _ _ ss' => exact h.insert (hids ss' rfl)
  | erase _ _ _ => exact h.erase
  | eraseSession _ => exact h.of_owners (List.filter_sublist.map _).subperm
  | getTarget _ _ => exact h.getTarget

theorem Own.not_member (h : t.Own ss) (hclient : ss'.clientId = ss.clientId) (hne : ss' ≠ ss) :
    ¬ t.Member ss' sn f sub := by
  rintro ⟨e, he, rfl, -⟩
  exact hne (h e he hclient)

theorem member_eraseSession_other (hclient : ss'.clientId ≠ ss.clientId) :
    (t.eraseSession ss).Member ss' sn f sub ↔ t.Member ss' sn f sub := by
  constructor
  · rintro ⟨e, he, hrest⟩
    exact ⟨e, (List.mem_filter.mp he).1, hrest⟩
  · rintro ⟨e, he, rfl, hrest⟩
    exact ⟨e, List.mem_filter.mpr ⟨he, by simpa using hclient⟩, rfl, hrest⟩

/-- What a call leaves to another session. -/
theorem member_perform_other (h : t.Keys ss) (hcall : call.session = some ss) (hne : ss' ≠ ss) :
    (t.perform now call).Member ss' sn f sub ↔ t.Member ss' sn f sub := by
  by_cases hclient : ss'.clientId = ss.clientId
  · -- the other session has no entry, before and after the call
    have hkeys : (t.perform now call).Keys ss := h.perform fun ss₁ h₁ _ =>
      Option.some.inj (h₁.symm.trans hcall)
    constructor
    · exact fun hm => absurd hm (hkeys.own.not_member hclient hne)
    · exact fun hm => absurd hm (h.own.not_member hclient hne)
  · cases call with
    | insert _ _ _ _ =>
      obtain rfl := Option.some.inj hcall
      exact member_insert_other hclient
    | erase _ _ _ =>
      obtain rfl := Option.some.inj hcall
      exact member_erase_other hclient
    | eraseSession _ =>
      obtain rfl := Option.some.inj hcall
      exact member_eraseSession_other hclient
    | getTarget _ _ => exact nomatch hcall

/-- What a call does to the subscriptions of its session. -/
theorem member_perform_self {r : Roster} (h : t.Represents r) (hkeys : t.Keys ss)
    (hcall : call.session = some ss) :
    (t.perform now call).Member ss sn f sub ↔ Roster.perform r call ss sn f = some sub := by
  cases call with
  | insert shareName topicFilter new ss =>
    obtain rfl := Option.some.inj hcall
    unfold SharedTarget.perform Roster.perform
    dsimp only
    rw [member_insert hkeys.nodup hkeys.own]
    simp only [h _ _ _ _]
    -- only the pair of the name and the filter changes
    by_cases hpair : sn = shareName ∧ f = topicFilter
    · obtain ⟨rfl, rfl⟩ := hpair
      cases hheld : r _ sn f with
      | none => simp [eq_comm]
      | some sub' => simp
    · rw [if_neg fun h => hpair h.2]
      constructor
      · exact fun hor => hor.resolve_right fun h => hpair ⟨h.1, h.2.1⟩
      · exact .inl
  | erase shareName topicFilter ss =>
    obtain rfl := Option.some.inj hcall
    unfold SharedTarget.perform Roster.perform
    dsimp only
    rw [member_erase, h]
    -- the filter is taken out, and with the last one the entry
    by_cases hpair : sn = shareName ∧ f = topicFilter
    · simp [hpair]
    · simp [hpair]
  | eraseSession ss =>
    obtain rfl := Option.some.inj hcall
    unfold SharedTarget.perform Roster.perform
    dsimp only
    rw [if_pos rfl]
    constructor
    · rintro ⟨e, he, rfl, -⟩
      simp [eraseSession] at he
    · exact nofun
  | getTarget _ _ => exact nomatch hcall

/-- The calls change the roster as they change the shared targets. -/
theorem Represents.perform {r : Roster} (h : t.Represents r)
    (hkeys : ∀ ss, call.session = some ss → t.Keys ss) :
    (t.perform now call).Represents (Roster.perform r call) := by
  intro ss' sn f sub
  cases hcall : call.session with
  | none =>
    cases call with
    | getTarget _ _ => exact member_getTarget.trans (h ss' sn f sub)
    | _ => exact nomatch hcall
  | some ss =>
    by_cases hss : ss' = ss
    · subst hss
      exact member_perform_self h (hkeys ss' hcall) hcall
    · rw [member_perform_other (hkeys ss hcall) hcall hss, Roster.perform_other hcall hss]
      exact h ss' sn f sub

/-! ### The order of the time points -/

/-- The entries of one share name stand in the order of their time points. -/
def Sorted (t : SharedTarget) : Prop :=
  t.Pairwise fun e e' => e.shareName = e'.shareName → e.tp ≤ e'.tp

theorem Sorted.concat (h : Sorted t) (htp : ∀ e' ∈ t, e'.tp < e.tp) : Sorted (t ++ [e]) := by
  unfold Sorted
  rw [List.pairwise_append]
  refine ⟨h, List.pairwise_singleton _ e, fun e' he' e'' he'' _ => ?_⟩
  rw [List.mem_singleton.mp he'']
  exact Nat.le_of_lt (htp e' he')

theorem Sorted.map {g : Entry → Entry} (h : Sorted t) (hname : ∀ e, (g e).shareName = e.shareName)
    (htp : ∀ e, (g e).tp = e.tp) : Sorted (List.map g t) := by
  unfold Sorted
  rw [List.pairwise_map]
  simp only [hname, htp]
  exact h

theorem Sorted.modifyTp (h : Sorted (before ++ elem :: after))
    (htp : ∀ e ∈ before ++ after, e.tp < now) : Sorted (modifyTp now before elem after) := by
  obtain ⟨hbefore, hrest, hcross⟩ := List.pairwise_append.mp h
  obtain ⟨helem, hafter⟩ := List.pairwise_cons.mp hrest
  have hothers : Sorted (before ++ after) := by
    have hsublist := (List.sublist_cons_self elem after).append_left before
    exact h.sublist hsublist
  by_cases hlater : ∃ e ∈ after, e.shareName = elem.shareName
  · rw [modifyTp_of_advanced hlater htp]
    exact hothers.concat htp
  · -- no entry of the share name comes later
    have hnone : ∀ e ∈ after, e.shareName ≠ elem.shareName := fun e he heq => hlater ⟨e, he, heq⟩
    unfold SharedTarget.modifyTp
    dsimp only
    split
    · unfold Sorted
      rw [List.pairwise_append, List.pairwise_cons]
      refine ⟨hbefore, ⟨fun e he heq => absurd heq.symm (hnone e he), hafter⟩, fun e he e' he' => ?_⟩
      rcases List.mem_cons.mp he' with rfl | he'
      · exact fun _ => Nat.le_of_lt (htp e (List.mem_append_left _ he))
      · exact hcross e he e' (List.mem_cons_of_mem _ he')
    · rw [insertByTp_of_later htp]
      exact hothers.concat htp

/-- The entries stay in order as long as the clock advances. -/
theorem Sorted.perform (h : Sorted t) (htp : ∀ e ∈ t, e.tp < now) : Sorted (t.perform now call) := by
  cases call with
  | insert shareName topicFilter sub ss =>
    unfold SharedTarget.perform SharedTarget.insert
    dsimp only
    split
    · refine h.map (fun e => ?_) fun e => ?_
      · split
        · rfl
        · rfl
      · split
        · rfl
        · rfl
    · rw [insertByTp_of_later htp]
      exact h.concat htp
  | erase shareName topicFilter ss =>
    -- what is left keeps its order
    refine List.Pairwise.filter _ (h.map (fun e => ?_) fun e => ?_)
    · split
      · rfl
      · rfl
    · split
      · rfl
      · rfl
  | eraseSession ss => exact List.Pairwise.filter _ h
  | getTarget shareName topicFilter =>
    unfold SharedTarget.perform
    dsimp only
    rcases getTarget_cases now shareName topicFilter t with
      ⟨before, elem, after, sub, rfl, -, -, -, heq⟩ | ⟨-, heq⟩
    · rw [heq]
      -- the chosen entry is moved to the end, where its time belongs
      refine h.modifyTp fun e he => htp e ?_
      simp only [List.mem_append, List.mem_cons] at he ⊢
      tauto
    · rw [heq]
      exact h

/-- The shared targets, and how often the clock has been read -/
structure Timed where
  targets : SharedTarget
  readings : Nat

namespace Timed

variable {clock : Nat → Nat} {known : Set SessionRef} {s : Timed}

/-- A new object -/
def make : Timed := ⟨[], 0⟩

/-- One call, with a clock that gives one reading after another -/
def step (clock : Nat → Nat) (s : Timed) (call : Call) : Timed where
  targets := s.targets.perform (clock s.readings) call
  readings := s.readings + if s.targets.readsClock call then 1 else 0

/-- What the calls keep, for the sessions that there are -/
structure Inv (clock : Nat → Nat) (known : Set SessionRef) (s : Timed) : Prop where
  sorted : s.targets.Sorted
  tp : ∀ e ∈ s.targets, e.tp < clock s.readings
  mem_known : ∀ e ∈ s.targets, e.ss ∈ known
  keys : ∀ ss ∈ known, s.targets.Keys ss

/-- The call is about a session that there is. -/
def Knows (known : Set SessionRef) (call : Call) : Prop := ∀ ss, call.session = some ss → ss ∈ known

theorem inv_make : Inv clock known make where
  sorted := List.Pairwise.nil
  tp := nofun
  mem_known := nofun
  keys _ _ := ⟨List.nodup_nil, nofun⟩

theorem Inv.step (h : Inv clock known s) (hclock : StrictMono clock)
    (hids : Set.InjOn SessionRef.clientId known) (hcall : Knows known call) :
    Inv clock known (step clock s call) := by
  constructor
  · exact h.sorted.perform h.tp
  · intro e he
    unfold Timed.step
    dsimp only
    rcases mem_perform he with ⟨e', he', -, htp⟩ | ⟨htp, hreads, -⟩
    · rw [← htp]
      exact (h.tp e' he').trans_le (hclock.monotone (Nat.le_add_right ..))
    · rw [htp, if_pos hreads]
      exact hclock (Nat.lt_succ_self _)
  · intro e he
    rcases mem_perform he with ⟨e', he', howner, -⟩ | ⟨-, -, hstamps⟩
    · rw [← (Prod.mk.inj howner).1]
      exact h.mem_known e' he'
    · cases call with
      | insert _ _ _ _ => exact hstamps.1 ▸ hcall _ rfl
      | erase _ _ _ => exact hstamps.elim
      | eraseSession _ => exact hstamps.elim
      | getTarget _ _ =>
        obtain ⟨e', he', hss⟩ := exists_entry_of_chosen hstamps.2
        exact hss ▸ h.mem_known e' he'
  · exact fun ss hss => (h.keys ss hss).perform fun ss' hss' hclient =>
      hids (hcall ss' hss') hss hclient

end Timed

/-! ### Turns -/

/-- Since a reading of the clock, `x` has been chosen for the share name and `y` has not. -/
structure Waits (tp : Nat) (x y : SessionRef) (sn : Buffer) (t : SharedTarget) : Prop where
  chosen : ∀ e ∈ t, e.owner = (x, sn) → tp ≤ e.tp
  waiting : ∀ e ∈ t, e.owner = (y, sn) → e.tp < tp

namespace Waits

variable {tp : Nat} {x y : SessionRef}

/-- `x` is chosen. -/
theorem start (hnodup : (t.map Entry.key).Nodup) (htp : ∀ e ∈ t, e.tp < now)
    (hchosen : t.chosen sn f = some x) (hne : y ≠ x) :
    Waits now x y sn (t.perform now (.getTarget sn f)) := by
  obtain ⟨sub, hsub⟩ := (chosen_eq_some_iff now).mp hchosen
  unfold perform
  dsimp only
  rcases getTarget_cases now sn f t with
    ⟨before, elem, after, sub', rfl, -, rfl, -, heq⟩ | ⟨-, heq⟩
  · rw [heq] at hsub ⊢
    obtain ⟨rfl, -⟩ := Prod.mk.inj (Option.some.inj hsub)
    have hmem {e : Entry} (he : e ∈ modifyTp now before elem after) :
        e = { elem with tp := now } ∨ e ∈ before ++ after :=
      List.mem_cons.mp (perm_modifyTp.mem_iff.mp he)
    -- a member that waits was not chosen, so it has the time of before
    constructor
    · intro e he howner
      rcases hmem he with rfl | he
      · exact Nat.le_refl now
      · -- the key of the chosen entry is that of no other one
        rw [List.map_append, List.map_cons, List.perm_middle.nodup_iff, ← List.map_append] at hnodup
        obtain ⟨hss, hname⟩ := Prod.mk.inj howner
        have hkey : e.key = elem.key := by rw [Entry.key, Entry.key, hss, hname]
        exact absurd (hkey ▸ List.mem_map_of_mem he) (List.nodup_cons.mp hnodup).1
    · intro e he howner
      rcases hmem he with rfl | he
      · exact absurd (Prod.mk.inj howner).1.symm hne
      · apply htp
        simp only [List.mem_append, List.mem_cons] at he ⊢
        tauto
  · rw [heq] at hsub
    cases hsub

/-- Another call, in which `y` is not chosen -/
theorem perform (h : Waits tp x y sn t) (hnow : tp ≤ now) (hy : ∃ e ∈ t, e.owner = (y, sn))
    (hnot : ∀ f, call = .getTarget sn f → t.chosen sn f ≠ some y) :
    Waits tp x y sn (t.perform now call) := by
  constructor
  · intro e he howner
    rcases mem_perform he with ⟨e', he', howner', htp⟩ | ⟨htp, -⟩
    · rw [← htp]
      exact h.chosen e' he' (howner'.trans howner)
    · rw [htp]
      exact hnow
  · intro e he howner
    rcases mem_perform he with ⟨e', he', howner', htp⟩ | ⟨-, -, hstamps⟩
    · rw [← htp]
      exact h.waiting e' he' (howner'.trans howner)
    · obtain ⟨hss, hname⟩ := Prod.mk.inj howner
      rw [hss, hname] at hstamps
      cases call with
      | insert _ _ _ _ =>
        -- `y` has an entry already
        obtain ⟨e', he', howner'⟩ := hy
        exact absurd howner' (hstamps.2.2 e' he')
      | erase _ _ _ => exact hstamps.elim
      | eraseSession _ => exact hstamps.elim
      | getTarget _ f =>
        obtain ⟨rfl, hchosen⟩ := hstamps
        exact absurd hchosen (hnot f rfl)

/-- `x` is not chosen again for a filter that `y` has. -/
theorem chosen_ne (h : Waits tp x y sn t) (hsorted : t.Sorted) (hy : t.Member y sn f sub) :
    t.chosen sn f ≠ some x := by
  intro hchosen
  obtain ⟨sub', hsub'⟩ := (chosen_eq_some_iff 0).mp hchosen
  obtain ⟨e, he, rfl, rfl, hsub⟩ := hy
  have hfilter : e.hasFilter e.shareName f = true := by simp [Entry.hasFilter, hsub]
  rcases getTarget_cases 0 e.shareName f t with
    ⟨before, elem, after, sub'', rfl, hbefore, hname, -, heq⟩ | ⟨hnone, -⟩
  · rw [heq] at hsub'
    obtain ⟨rfl, -⟩ := Prod.mk.inj (Option.some.inj hsub')
    have hx := h.chosen elem (by simp) (by rw [Entry.owner, hname])
    have hy := h.waiting e he rfl
    rcases List.mem_append.mp he with hmem | hmem
    · rw [hbefore e hmem] at hfilter
      cases hfilter
    · rcases List.mem_cons.mp hmem with rfl | hmem
      · omega
      · -- the entry of `y` stands behind the one that is chosen
        obtain ⟨-, hrest, -⟩ := List.pairwise_append.mp hsorted
        have hle := (List.pairwise_cons.mp hrest).1 e hmem hname
        omega
  · rw [hnone e he] at hfilter
    cases hfilter

end Waits

namespace Timed

variable {clock : Nat → Nat} {known : Set SessionRef} {s : Timed} {as : List Call}
  {x y : SessionRef} {i j k : Nat}

/-- The state before a call of a run -/
def stateAt (clock : Nat → Nat) (as : List Call) (i : Nat) : Timed :=
  Run.final (step clock) make (as.take i)

/-- The roster before a call of a run -/
def rosterAt (as : List Call) (i : Nat) : Roster :=
  Run.final Roster.perform (fun _ _ _ => none) (as.take i)

/-- A call of a run chooses a session for a share name and a filter. -/
def Selects (clock : Nat → Nat) (as : List Call) (i : Nat) (shareName topicFilter : Buffer)
    (ss : SessionRef) : Prop :=
  as[i]? = some (.getTarget shareName topicFilter) ∧
    ∃ sub, ((stateAt clock as i).targets.getTarget (clock (stateAt clock as i).readings) shareName
      topicFilter).1 = some (ss, sub)

/-- What holds before each call of a run. -/
theorem inv_stateAt (hclock : StrictMono clock) (hids : Set.InjOn SessionRef.clientId known)
    (has : ∀ call ∈ as, Knows known call) (i : Nat) :
    Inv clock known (stateAt clock as i) ∧ (stateAt clock as i).targets.Represents (rosterAt as i) := by
  unfold stateAt rosterAt
  have has : ∀ call ∈ as.take i, Knows known call := fun call h => has call (List.mem_of_mem_take h)
  generalize as.take i = as at has
  induction as using List.reverseRecOn with
  | nil => exact ⟨inv_make, fun _ _ _ _ => ⟨nofun, nofun⟩⟩
  | append_singleton as call ih =>
    rw [List.forall_mem_append, List.forall_mem_singleton] at has
    obtain ⟨hinv, hroster⟩ := ih has.1
    rw [Run.final_append, Run.final_append]
    exact ⟨hinv.step hclock hids has.2,
      hroster.perform fun ss hss => hinv.keys ss (has.2 ss hss)⟩

/-- A member that holds the filter until `x` is chosen for it a second time has been chosen in
    between. -/
theorem exists_turn_between (hclock : StrictMono clock) (hids : Set.InjOn SessionRef.clientId known)
    (has : ∀ call ∈ as, Knows known call) (hjk : j < k) (hj : Selects clock as j sn f x)
    (hk : Selects clock as k sn f x) (hne : y ≠ x)
    (hy : ∀ i, j < i → i ≤ k → (rosterAt as i y sn f).isSome) :
    ∃ i f', j < i ∧ i < k ∧ Selects clock as i sn f' y := by
  by_contra hno
  obtain ⟨hget, hchosen⟩ := hj
  have hinv := (inv_stateAt hclock hids has j).1
  let s := stateAt clock as j
  have hklen : k < as.length := (List.getElem?_eq_some_iff.mp hk.1).1
  -- an entry of `y` is there in between
  have hmember (i : Nat) (hji : j < i) (hik : i ≤ k) :
      ∃ sub, (stateAt clock as i).targets.Member y sn f sub := by
    obtain ⟨sub, hsub⟩ := Option.isSome_iff_exists.mp (hy i hji hik)
    exact ⟨sub, ((inv_stateAt hclock hids has i).2 y sn f sub).mpr hsub⟩
  have hx : x ∈ known := by
    obtain ⟨e, he, rfl⟩ := exists_entry_of_chosen ((chosen_eq_some_iff _).mpr hchosen)
    exact hinv.mem_known e he
  have hstart : Waits (clock s.readings) x y sn (stateAt clock as (j + 1)).targets ∧
      s.readings ≤ (stateAt clock as (j + 1)).readings := by
    unfold stateAt
    rw [Run.final_take_succ (step clock) hget]
    exact ⟨.start (hinv.keys x hx).nodup hinv.tp ((chosen_eq_some_iff _).mpr hchosen) hne,
      Nat.le_add_right ..⟩
  -- `y` is not chosen, and so it goes on waiting
  have hwaits : Waits (clock s.readings) x y sn (stateAt clock as k).targets ∧
      s.readings ≤ (stateAt clock as k).readings := by
    let Q (s' : Timed) := Waits (clock s.readings) x y sn s'.targets ∧ s.readings ≤ s'.readings
    refine Run.invariant_between (Q := Q) hjk (Nat.le_of_lt hklen) (fun i call hji hik hcall hQ => ?_)
      hstart
    obtain ⟨sub, e, he, hss, hname, -⟩ := hmember i hji (Nat.le_of_lt hik)
    refine ⟨hQ.1.perform (hclock.monotone hQ.2) ⟨e, he, by rw [Entry.owner, hss, hname]⟩ ?_,
      hQ.2.trans (Nat.le_add_right ..)⟩
    rintro f' rfl hchosen'
    exact hno ⟨i, f', hji, hik, hcall, (chosen_eq_some_iff _).mp hchosen'⟩
  obtain ⟨sub, hsub⟩ := hmember k hjk (Nat.le_refl k)
  have hsorted := (inv_stateAt hclock hids has k).1.sorted
  exact hwaits.1.chosen_ne hsorted hsub ((chosen_eq_some_iff _).mpr hk.2)

/-- Who is chosen holds the filter, and somebody is chosen if anybody holds it. -/
theorem getTarget_iff_held {r : Roster} (h : t.Represents r) (now : Nat) :
    (∀ ss sub, (t.getTarget now sn f).1 = some (ss, sub) → r ss sn f = some sub) ∧
      ((t.getTarget now sn f).1.isSome ↔ ∃ ss, (r ss sn f).isSome) := by
  have hheld : ∀ ss sub, (t.getTarget now sn f).1 = some (ss, sub) → r ss sn f = some sub :=
    fun ss sub hsub => (h ss sn f sub).mp (member_of_getTarget hsub)
  refine ⟨hheld, fun hsome => ?_, ?_⟩
  · obtain ⟨⟨ss, sub⟩, hsub⟩ := Option.isSome_iff_exists.mp hsome
    exact ⟨ss, by rw [hheld ss sub hsub]; rfl⟩
  · rintro ⟨ss, hsome⟩
    obtain ⟨sub, hsub⟩ := Option.isSome_iff_exists.mp hsome
    obtain ⟨e, he, -, rfl, hlookup⟩ := (h ss sn f sub).mpr hsub
    rcases getTarget_cases now e.shareName f t with ⟨_, _, _, _, -, -, -, -, heq⟩ | ⟨hnone, -⟩
    · rw [heq]
      rfl
    · have hfilter := hnone e he
      rw [Entry.hasFilter, hlookup] at hfilter
      simp at hfilter

/-- In every run, `get_target` chooses a member of the share that holds the filter if there is one,
    and whoever holds the filter between two choices of the same other member for it is chosen for
    the share in between. -/
theorem takes_turns (hclock : StrictMono clock) (hids : Set.InjOn SessionRef.clientId known)
    (has : ∀ call ∈ as, Knows known call) :
    (∀ i sn f, let s := stateAt clock as i
      (∀ ss sub, (s.targets.getTarget (clock s.readings) sn f).1 = some (ss, sub) →
        rosterAt as i ss sn f = some sub) ∧
      ((s.targets.getTarget (clock s.readings) sn f).1.isSome ↔
        ∃ ss, (rosterAt as i ss sn f).isSome)) ∧
    ∀ j k sn f x y, j < k → Selects clock as j sn f x → Selects clock as k sn f x → y ≠ x →
      (∀ i, j < i → i ≤ k → (rosterAt as i y sn f).isSome) →
        ∃ i f', j < i ∧ i < k ∧ Selects clock as i sn f' y := by
  constructor
  · intro i sn f
    exact getTarget_iff_held (inv_stateAt hclock hids has i).2 _
  · exact fun j k sn f x y hjk hj hk hne hy => exists_turn_between hclock hids has hjk hj hk hne hy

/-- Two members, and three choices -/
theorem takes_turns_two :
    let a : SessionRef := ⟨[], [0x61]⟩
    let b : SessionRef := ⟨[], [0x62]⟩
    let as : List Call := [.insert [0x73] [0x66] ⟨a, [0x73], [0x66], 0, none⟩ a,
      .insert [0x73] [0x66] ⟨b, [0x73], [0x66], 0, none⟩ b, .getTarget [0x73] [0x66],
      .getTarget [0x73] [0x66], .getTarget [0x73] [0x66]]
    ∃ i f', 2 < i ∧ i < 4 ∧ Selects id as i [0x73] f' b := by
  intro a b as
  have hids : Set.InjOn SessionRef.clientId {a, b} := by
    intro ss hss ss' hss' heq
    rcases hss with rfl | rfl
    all_goals rcases hss' with rfl | rfl
    all_goals first | rfl | exact absurd heq (by decide)
  have has : ∀ call ∈ as, Knows {a, b} call := by
    simp [as, Knows, Call.session]
  have hfirst : Selects id as 2 [0x73] [0x66] a :=
    ⟨rfl, ⟨a, [0x73], [0x66], 0, none⟩, by decide +kernel⟩
  have hsecond : Selects id as 4 [0x73] [0x66] a :=
    ⟨rfl, ⟨a, [0x73], [0x66], 0, none⟩, by decide +kernel⟩
  apply (takes_turns strictMono_id hids has).2 2 4 [0x73] [0x66] a b (by decide) hfirst hsecond
    (by decide)
  intro i hi hik
  have hthree : i = 3 ∨ i = 4 := by omega
  rcases hthree with rfl | rfl
  · decide
  · decide

end Timed

end SharedTarget

end AsyncMqtt
