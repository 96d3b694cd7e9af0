import Mathlib.Data.List.Nodup
import Mathlib.Logic.Function.Basic
import Mathlib.Logic.Relation

/-!
# Delivery over a line that breaks

A sender keeps every message until it is answered, and puts what it keeps on the line
again, in order, after the line has broken. A message under an identifier is answered
with an acknowledgement; or, if it is to be delivered once, the receiver remembers the
identifier until the sender, told that the message was received, releases it.

The two directions of the line are lists. Anything on them may be lost at any moment;
what arrives does so in order.

## Key results

- `Delivery.Step.inv`: every step keeps the invariant
- `Delivery.Reachable.once_prefix`: the messages to be delivered once are delivered in
  the order in which they were offered, none twice and none left out
- `Delivery.Reachable.nothing_lost`: what was not delivered is kept
- `Delivery.Reachable.all_delivered`: on a line that has lost nothing, what is not on the
  line was delivered
- `Delivery.Reachable.free`: an identifier under which nothing is kept is nowhere else
- `Delivery.Follows`: what a simulation has to keep about the two ends
-/

namespace Delivery

variable {K M : Type}

/-- What a sender keeps and puts on the line. -/
inductive Outgoing (K M : Type) where
  | message (k : K) (m : M)
  | release (k : K)
  deriving DecidableEq

/-- What a receiver answers. -/
inductive Reply (K : Type) where
  | ack (k : K)
  | received (k : K)
  | complete (k : K)
  deriving DecidableEq

namespace Outgoing

/-- The identifier that a packet is about -/
def key : Outgoing K M → K
  | message k _ => k
  | release k => k

/-- The message of a packet, if it has one -/
def message? : Outgoing K M → Option M
  | message _ m => some m
  | release _ => none

/-- The answer that ends the stay with the sender. -/
def awaits (once : M → Bool) : Outgoing K M → Reply K
  | message k m => if once m then .received k else .ack k
  | release k => .complete k

end Outgoing

namespace Reply

/-- The identifier that a reply is about -/
def key : Reply K → K
  | ack k => k
  | received k => k
  | complete k => k

/-- What the sender keeps next. -/
def next : Reply K → List (Outgoing K M)
  | received k => [.release k]
  | _ => []

end Reply

/-- The messages among what is kept or on the line. -/
def messages (os : List (Outgoing K M)) : List M := os.filterMap Outgoing.message?

/-- A sender, a receiver and the line between them. -/
structure State (K M : Type) where
  kept : List (Outgoing K M)
  /-- the identifiers that the receiver remembers -/
  handled : K → Bool
  forward : List (Outgoing K M)
  backward : List (Reply K)
  offered : List M
  delivered : List M
  /-- since the sender began again, all that it was offered went on the line -/
  emitting : Bool
  /-- since the sender began again, nothing on its line was lost -/
  accepting : Bool

/-- Nothing has happened yet. -/
def State.init : State K M where
  kept := []
  handled _ := false
  forward := []
  backward := []
  offered := []
  delivered := []
  emitting := false
  accepting := false

section

variable [DecidableEq K] (once : M → Bool)

/-- A step of the sender, of the receiver or of the line. -/
inductive Step : State K M → State K M → Prop where
  /-- a message is offered, and perhaps put on the line -/
  | offer {s : State K M} {k : K} (m : M) (hk : ∀ o ∈ s.kept, o.key ≠ k) (sent : Bool)
      (hsent : sent → s.accepting → s.emitting) :
      Step s { s with
        kept := s.kept ++ [.message k m]
        offered := s.offered ++ [m]
        forward := if sent then s.forward ++ [.message k m] else s.forward
        emitting := s.emitting && sent }
  /-- a message arrives; one to be delivered once is delivered if it is not remembered -/
  | deliver {s : State K M} {k : K} {m : M} {rest : List (Outgoing K M)}
      (hforward : s.forward = .message k m :: rest) (haccepting : s.accepting) :
      Step s { s with
        forward := rest
        backward := s.backward ++ [Outgoing.awaits once (.message k m)]
        delivered := if once m && s.handled k then s.delivered else s.delivered ++ [m]
        handled := if once m then Function.update s.handled k true else s.handled }
  /-- a release arrives: the identifier is forgotten -/
  | release {s : State K M} {k : K} {rest : List (Outgoing K M)}
      (hforward : s.forward = .release k :: rest) :
      Step s { s with
        forward := rest
        backward := s.backward ++ [.complete k]
        handled := Function.update s.handled k false }
  /-- an answer arrives -/
  | answered {s : State K M} {r : Reply K} {rest : List (Reply K)}
      (hbackward : s.backward = r :: rest) :
      Step s { s with
        backward := rest
        kept := s.kept.filter (fun o => o.awaits once ≠ r) ++ r.next
        forward := s.forward ++ r.next }
  | loseForward {s : State K M} {os : List (Outgoing K M)} (h : os.Sublist s.forward) :
      Step s { s with forward := os, accepting := false }
  | loseBackward {s : State K M} {rs : List (Reply K)} (h : rs.Sublist s.backward) :
      Step s { s with backward := rs }
  /-- on a new line the sender begins again -/
  | resume {s : State K M} (hforward : s.forward = []) (hbackward : s.backward = []) :
      Step s { s with forward := s.kept, accepting := true, emitting := true }

/-- The states that can be reached. -/
def Reachable (s : State K M) : Prop := Relation.ReflTransGen (Step once) .init s

/-! ### The invariant -/

/-- The receiver has got this message: for one that is to be delivered once it remembers
    the identifier, for the others `seen` does. A release is nothing to be delivered. -/
def got (handled seen : K → Bool) : Outgoing K M → Bool
  | .message k m => if once m then handled k else seen k
  | .release _ => true

/-- What is kept and was not delivered. -/
def pending (s : State K M) (seen : K → Bool) : List (Outgoing K M) :=
  s.kept.filter fun o => ! got once s.handled seen o

/-- What holds in every state that can be reached -/
structure Inv (s : State K M) (seen : K → Bool) : Prop where
  keys : (s.kept.map Outgoing.key).Nodup
  /-- at most one packet about an identifier is on the line -/
  alone : (s.forward.map Outgoing.key ++ s.backward.map Reply.key).Nodup
  forwardKept : ∀ o ∈ s.forward, o ∈ s.kept
  backwardKept : ∀ r ∈ s.backward, ∃ o ∈ s.kept, o.awaits once = r ∧ got once s.handled seen o
  completed : ∀ k, .complete k ∈ s.backward → s.handled k = false
  handledKept : ∀ k, s.handled k → ∃ o ∈ s.kept, o.key = k ∧ o.awaits once ≠ .ack k
  seenKept : ∀ k, seen k → ∃ o ∈ s.kept, o.awaits once = .ack k
  deliveredOffered : ∀ m ∈ s.delivered, m ∈ s.offered
  keptOffered : ∀ k m, .message k m ∈ s.kept → m ∈ s.offered
  /-- what was delivered first, and then what is still kept -/
  history : ∃ first, s.offered = first ++ messages (pending once s seen) ∧
    first.Sublist s.delivered ∧ first.filter once = s.delivered.filter once
  order : s.accepting → ∃ later,
    pending once s seen = s.forward.filter (fun o => ! got once s.handled seen o) ++ later ∧
      (s.emitting → later = [])

end

/-- The messages of a longer list of packets -/
theorem messages_append (os os' : List (Outgoing K M)) :
    messages (os ++ os') = messages os ++ messages os' := List.filterMap_append ..

/-- What is remembered about other identifiers says nothing about this packet. -/
theorem got_congr {once : M → Bool} {handled handled' seen seen' : K → Bool} {o : Outgoing K M}
    (hh : handled' o.key = handled o.key) (hs : seen' o.key = seen o.key) :
    got once handled' seen' o = got once handled seen o := by
  cases o with
  | message k m =>
    simp only [Outgoing.key] at hh hs
    rw [got, got, hh, hs]
  | release k => rfl

/-- A packet waits for a reply about the same identifier. -/
@[simp] theorem key_awaits (once : M → Bool) (o : Outgoing K M) : (o.awaits once).key = o.key := by
  cases o with
  | message k m =>
    rw [Outgoing.awaits]
    split <;> rfl
  | release k => rfl

/-- A reply is followed by a release or by nothing. -/
theorem key_next {o : Outgoing K M} {r : Reply K} (h : o ∈ r.next) : o = .release r.key := by
  cases r with
  | received k => exact List.mem_singleton.mp h
  | ack k | complete k => cases h

/-! ### Keys -/

section

variable {once : M → Bool} {s : State K M} {seen : K → Bool} {o o' : Outgoing K M} {r : Reply K}
  {k : K} {m : M}

/-- A kept packet is known by its identifier. -/
theorem Inv.eq_of_key (h : Inv once s seen) (ho : o ∈ s.kept) (ho' : o' ∈ s.kept)
    (hk : o.key = o'.key) : o = o' := List.inj_on_of_nodup_map h.keys ho ho' hk

/-- An identifier is on the line in one direction only. -/
theorem Inv.not_both (h : Inv once s seen) (ho : o ∈ s.forward) (hr : r ∈ s.backward) :
    o.key ≠ r.key := fun hk =>
  (List.nodup_append.mp h.alone).2.2 _ (List.mem_map_of_mem ho) _ (List.mem_map_of_mem hr) hk

/-- Nothing is kept under this identifier. -/
def Free (s : State K M) (k : K) : Prop := ∀ o ∈ s.kept, o.key ≠ k

/-- No packet on the line is about a free identifier. -/
theorem Inv.free_forward (h : Inv once s seen) (hk : Free s k) (ho : o ∈ s.forward) : o.key ≠ k :=
  hk o (h.forwardKept o ho)

/-- No reply on the line is about a free identifier. -/
theorem Inv.free_backward (h : Inv once s seen) (hk : Free s k) (hr : r ∈ s.backward) :
    r.key ≠ k := by
  obtain ⟨o, ho, rfl, -⟩ := h.backwardKept r hr
  rw [key_awaits]
  exact hk o ho

/-- A free identifier is not handled. -/
theorem Inv.free_handled (h : Inv once s seen) (hk : Free s k) : s.handled k = false := by
  by_contra hh
  obtain ⟨o, ho, hkey, -⟩ := h.handledKept k (by simpa using hh)
  exact hk o ho hkey

/-- The message of a free identifier has not been seen. -/
theorem Inv.free_seen (h : Inv once s seen) (hk : Free s k) : seen k = false := by
  by_contra hh
  obtain ⟨o, ho, hack⟩ := h.seenKept k (by simpa using hh)
  exact hk o ho (by rw [← key_awaits once, hack]; rfl)

/-- The packet at the head of the line is replaced by its answer. -/
theorem Inv.alone_head (h : Inv once s seen) {rest : List (Outgoing K M)} {r : Reply K}
    (hforward : s.forward = o :: rest) (hr : r.key = o.key) :
    (rest.map Outgoing.key ++ (s.backward ++ [r]).map Reply.key).Nodup := by
  have halone := h.alone
  rw [hforward, List.map_cons, List.cons_append, List.nodup_cons] at halone
  rw [List.map_append, ← List.append_assoc, List.nodup_append]
  refine ⟨halone.2, List.nodup_singleton _, fun k₁ hk₁ k₂ hk₂ hk => ?_⟩
  obtain rfl := List.mem_singleton.mp hk₂
  exact halone.1 (by rw [← hr, ← hk]; exact hk₁)

/-- A packet at the head of the line is alone with its identifier there. -/
theorem Inv.head_alone (h : Inv once s seen) {rest : List (Outgoing K M)}
    (hforward : s.forward = o :: rest) :
    (∀ o' ∈ rest, o'.key ≠ o.key) ∧ ∀ r ∈ s.backward, r.key ≠ o.key := by
  have halone := h.alone
  rw [hforward, List.map_cons, List.cons_append, List.nodup_cons] at halone
  refine ⟨fun o' ho' hk => halone.1 ?_, fun r hr hk => halone.1 ?_⟩
  · exact List.mem_append_left _ (hk ▸ List.mem_map_of_mem ho')
  · exact List.mem_append_right _ (hk ▸ List.mem_map_of_mem hr)

/-- What is delivered after one more message that is kept. -/
theorem Inv.deliveredAfter (h : Inv once s seen) (hkept : .message k m ∈ s.kept) {m' : M}
    (hm' : m' ∈ s.delivered ++ [m]) : m' ∈ s.offered := by
  rcases List.mem_append.mp hm' with hm' | hm'
  · exact h.deliveredOffered m' hm'
  · obtain rfl := List.mem_singleton.mp hm'
    exact h.keptOffered k m' hkept

/-! ### Steps -/

/-- In the beginning nothing is under way. -/
theorem Inv.init : Inv once (.init : State K M) fun _ => false where
  keys := List.nodup_nil
  alone := List.nodup_nil
  forwardKept _ ho := absurd ho List.not_mem_nil
  backwardKept _ hr := absurd hr List.not_mem_nil
  completed _ hk := absurd hk List.not_mem_nil
  handledKept _ hk := by cases hk
  seenKept _ hk := by cases hk
  deliveredOffered _ hm := absurd hm List.not_mem_nil
  keptOffered _ _ hm := absurd hm List.not_mem_nil
  history := ⟨[], rfl, List.Sublist.refl _, rfl⟩
  order ha := by cases ha

/-- A message is offered under a free identifier. -/
theorem Inv.offer (h : Inv once s seen) (hk : Free s k) (m : M) {sent : Bool}
    (hsent : sent → s.accepting → s.emitting) :
    Inv once { s with
      kept := s.kept ++ [.message k m]
      offered := s.offered ++ [m]
      forward := if sent then s.forward ++ [.message k m] else s.forward
      emitting := s.emitting && sent } seen := by
  have hnew : got once s.handled seen (.message k m) = false := by
    rw [got, h.free_handled hk, h.free_seen hk, ite_self]
  have hpending : (s.kept ++ [Outgoing.message k m]).filter (fun o => ! got once s.handled seen o) =
      pending once s seen ++ [.message k m] := by
    rw [List.filter_append, List.filter_singleton, hnew]
    rfl
  refine ⟨?_, ?_, ?_, ?_, h.completed, ?_, ?_, fun m hm => ?_, fun k' m' hm' => ?_, ?_, ?_⟩
  · rw [List.map_append, List.nodup_append]
    refine ⟨h.keys, List.nodup_singleton _, fun k₁ hk₁ k₂ hk₂ => ?_⟩
    obtain ⟨o, ho, rfl⟩ := List.mem_map.mp hk₁
    obtain rfl := List.mem_singleton.mp hk₂
    exact hk o ho
  · cases sent with
    | false => exact h.alone
    | true =>
      -- the identifier is not yet on the line
      have hline : k ∉ s.forward.map Outgoing.key ++ s.backward.map Reply.key := by
        simp only [List.mem_append, List.mem_map]
        rintro (⟨o, ho, hok⟩ | ⟨r, hr, hrk⟩)
        · exact h.free_forward hk ho hok
        · exact h.free_backward hk hr hrk
      have hperm : (s.forward.map Outgoing.key ++ k :: s.backward.map Reply.key).Nodup :=
        List.nodup_middle.mpr (List.nodup_cons.mpr ⟨hline, h.alone⟩)
      simpa [Outgoing.key] using hperm
  · intro o ho
    cases sent with
    | false => exact List.mem_append_left _ (h.forwardKept o ho)
    | true =>
      rcases List.mem_append.mp ho with ho | ho
      · exact List.mem_append_left _ (h.forwardKept o ho)
      · exact List.mem_append_right _ ho
  · intro r hr
    obtain ⟨o, ho, hgot⟩ := h.backwardKept r hr
    exact ⟨o, List.mem_append_left _ ho, hgot⟩
  · intro k' hk'
    obtain ⟨o, ho, hrest⟩ := h.handledKept k' hk'
    exact ⟨o, List.mem_append_left _ ho, hrest⟩
  · intro k' hk'
    obtain ⟨o, ho, hack⟩ := h.seenKept k' hk'
    exact ⟨o, List.mem_append_left _ ho, hack⟩
  · exact List.mem_append_left _ (h.deliveredOffered m hm)
  · rcases List.mem_append.mp hm' with hm' | hm'
    · exact List.mem_append_left _ (h.keptOffered k' m' hm')
    · obtain ⟨⟩ := List.mem_singleton.mp hm'
      exact List.mem_append_right _ List.mem_cons_self
  · obtain ⟨first, hoffered, hrest⟩ := h.history
    refine ⟨first, ?_, hrest⟩
    rw [pending, hpending, messages_append, hoffered, List.append_assoc]
    rfl
  · intro ha
    obtain ⟨later, horder, hlater⟩ := h.order ha
    rw [pending, hpending, horder]
    cases sent with
    | false =>
      refine ⟨later ++ [.message k m], by simp, fun he => ?_⟩
      exact absurd he (by simp)
    | true =>
      obtain rfl := hlater (hsent rfl ha)
      refine ⟨[], ?_, fun _ => rfl⟩
      simp [hnew]

/-- A message that arrives and was got before: only the line changes, and what was delivered
    again. -/
theorem Inv.deliverAgain (h : Inv once s seen) {rest : List (Outgoing K M)}
    (hforward : s.forward = .message k m :: rest)
    (hgot : got once s.handled seen (.message k m)) :
    Inv once { s with
      forward := rest
      backward := s.backward ++ [Outgoing.awaits once (.message k m)]
      delivered := if once m then s.delivered else s.delivered ++ [m] } seen := by
  have hkept : .message k m ∈ s.kept := h.forwardKept _ (hforward ▸ List.mem_cons_self)
  have hmem : ∀ o ∈ rest, o ∈ s.forward := fun o ho => hforward ▸ List.mem_cons_of_mem _ ho
  refine ⟨h.keys, h.alone_head hforward (key_awaits once _), fun o ho => h.forwardKept o (hmem o ho),
    ?_, ?_, h.handledKept, h.seenKept, ?_, h.keptOffered, ?_, ?_⟩
  -- the reply to the packet is the one that it waits for
  · intro r hr
    rcases List.mem_append.mp hr with hr | hr
    · exact h.backwardKept r hr
    · exact ⟨_, hkept, (List.mem_singleton.mp hr).symm, hgot⟩
  -- no exchange is completed by a message
  · intro k' hk'
    rcases List.mem_append.mp hk' with hk' | hk'
    · exact h.completed k' hk'
    · rw [List.mem_singleton, Outgoing.awaits] at hk'
      split at hk' <;> cases hk'
  -- the message is one of those offered
  · intro m' hm'
    dsimp only at hm'
    split at hm'
    · exact h.deliveredOffered m' hm'
    · exact h.deliveredAfter hkept hm'
  -- a message that may come twice does not change what was delivered once
  · obtain ⟨first, hoffered, hsub, honce⟩ := h.history
    refine ⟨first, hoffered, ?_⟩
    dsimp only
    split
    · exact ⟨hsub, honce⟩
    · next hm =>
      refine ⟨hsub.trans (List.sublist_append_left _ _), ?_⟩
      have hm : once m = false := by simpa using hm
      rw [List.filter_append, ← honce, List.filter_singleton, hm]
      exact (List.append_nil _).symm
  -- the order of what is still to come is the same
  · intro ha
    obtain ⟨later, horder, hlater⟩ := h.order ha
    refine ⟨later, ?_, hlater⟩
    rw [hforward, List.filter_cons, hgot] at horder
    exact horder

/-- Packets are lost with their line. -/
theorem Inv.loseForward (h : Inv once s seen) {os : List (Outgoing K M)}
    (hos : os.Sublist s.forward) : Inv once { s with forward := os, accepting := false } seen :=
  { h with
    alone := h.alone.sublist ((hos.map _).append_right _)
    forwardKept := fun o ho => h.forwardKept o (hos.subset ho)
    order := fun ha => by cases ha }

/-- Replies are lost with their line. -/
theorem Inv.loseBackward (h : Inv once s seen) {rs : List (Reply K)}
    (hrs : rs.Sublist s.backward) : Inv once { s with backward := rs } seen :=
  { h with
    alone := h.alone.sublist ((hrs.map _).append_left _)
    backwardKept := fun r hr => h.backwardKept r (hrs.subset hr)
    completed := fun k hk => h.completed k (hrs.subset hk) }

/-- What is kept is sent again. -/
theorem Inv.resume (h : Inv once s seen) (hbackward : s.backward = []) :
    Inv once { s with forward := s.kept, accepting := true, emitting := true } seen :=
  { h with
    alone := by
      rw [hbackward, List.map_nil, List.append_nil]
      exact h.keys
    forwardKept := fun _ ho => ho
    order := fun _ => ⟨[], (List.append_nil _).symm, fun _ => rfl⟩ }

end

section

variable [DecidableEq K] {once : M → Bool} {s : State K M} {seen : K → Bool}
  {o : Outgoing K M} {k : K} {m : M}

/-- What is got after one more message was got. -/
theorem Inv.got_update (h : Inv once s seen) (hkept : .message k m ∈ s.kept) (ho : o ∈ s.kept) :
    got once (if once m then Function.update s.handled k true else s.handled)
      (if once m then seen else Function.update seen k true) o =
        (got once s.handled seen o || decide (o.key = k)) := by
  by_cases hkey : o.key = k
  · obtain rfl := h.eq_of_key ho hkept hkey
    rw [decide_eq_true hkey, Bool.or_true, got]
    split <;> exact Function.update_self ..
  · rw [decide_eq_false hkey, Bool.or_false]
    refine got_congr ?_ ?_ <;> split <;> first | rfl | exact Function.update_of_ne hkey ..

/-- A message that arrives for the first time is the first of those that are pending. -/
theorem Inv.deliverFirst (h : Inv once s seen) {rest : List (Outgoing K M)}
    (hforward : s.forward = .message k m :: rest) (haccepting : s.accepting)
    (hgot : got once s.handled seen (.message k m) = false) :
    Inv once { s with
      forward := rest
      backward := s.backward ++ [Outgoing.awaits once (.message k m)]
      delivered := s.delivered ++ [m]
      handled := if once m then Function.update s.handled k true else s.handled }
      (if once m then seen else Function.update seen k true) := by
  have hkept : .message k m ∈ s.kept := h.forwardKept _ (hforward ▸ List.mem_cons_self)
  have hmem : ∀ o ∈ rest, o ∈ s.forward := fun o ho => hforward ▸ List.mem_cons_of_mem _ ho
  have hrest : ∀ o ∈ rest, o.key ≠ k := (h.head_alone hforward).1
  have hback : ∀ r ∈ s.backward, r.key ≠ k := (h.head_alone hforward).2
  have hupdate : ∀ o ∈ s.kept, _ := fun o ho => h.got_update hkept ho
  obtain ⟨later, horder, hlater⟩ := h.order haccepting
  rw [hforward, List.filter_cons, hgot] at horder
  -- the message is no longer pending, and the others still are
  have hpending : s.kept.filter (fun o =>
      ! got once (if once m then Function.update s.handled k true else s.handled)
        (if once m then seen else Function.update seen k true) o) =
      rest.filter (fun o => ! got once s.handled seen o) ++ later := by
    have hfilter : s.kept.filter (fun o =>
        ! got once (if once m then Function.update s.handled k true else s.handled)
          (if once m then seen else Function.update seen k true) o) =
        (pending once s seen).filter fun o => o.key ≠ k := by
      rw [pending, List.filter_filter]
      refine List.filter_congr fun o ho => ?_
      rw [hupdate o ho, Bool.not_or, Bool.and_comm]
      simp
    have hkeys : ((pending once s seen).map Outgoing.key).Nodup :=
      h.keys.sublist (List.filter_sublist.map _)
    rw [hfilter]
    rw [horder] at hkeys ⊢
    rw [if_pos (by simp), List.cons_append, List.map_cons, List.nodup_cons] at hkeys
    rw [if_pos (by simp), List.cons_append, List.filter_cons_of_neg (by simp [Outgoing.key])]
    refine List.filter_eq_self.mpr fun o ho => ?_
    simpa using fun hk : o.key = k => hkeys.1 (List.mem_map.mpr ⟨o, ho, hk⟩)
  have hmessages : messages (pending once s seen) =
      m :: messages (rest.filter (fun o => ! got once s.handled seen o) ++ later) := by
    rw [horder]
    rfl
  refine ⟨h.keys, h.alone_head hforward (key_awaits once _), fun o ho => h.forwardKept o (hmem o ho),
    ?_, ?_, ?_, ?_, fun _ hm' => h.deliveredAfter hkept hm', h.keptOffered, ?_, ?_⟩
  · intro r hr
    rcases List.mem_append.mp hr with hr | hr
    · obtain ⟨o, ho, hawaits, hgot⟩ := h.backwardKept r hr
      exact ⟨o, ho, hawaits, by rw [hupdate o ho, hgot]; rfl⟩
    · refine ⟨_, hkept, (List.mem_singleton.mp hr).symm, ?_⟩
      rw [hupdate _ hkept]
      simp [Outgoing.key]
  · intro k' hk'
    have hne : k' ≠ k ∧ s.handled k' = false := by
      rcases List.mem_append.mp hk' with hk' | hk'
      · exact ⟨hback _ hk', h.completed k' hk'⟩
      · rw [List.mem_singleton, Outgoing.awaits] at hk'
        split at hk' <;> cases hk'
    dsimp only
    split
    · rw [Function.update_of_ne hne.1]
      exact hne.2
    · exact hne.2
  · intro k' hk'
    dsimp only at hk'
    split at hk'
    · next hm =>
      by_cases hkey : k' = k
      · subst hkey
        exact ⟨_, hkept, rfl, by rw [Outgoing.awaits, if_pos hm]; rintro ⟨⟩⟩
      · rw [Function.update_of_ne hkey] at hk'
        exact h.handledKept k' hk'
    · exact h.handledKept k' hk'
  · intro k' hk'
    split at hk'
    · exact h.seenKept k' hk'
    · next hm =>
      by_cases hkey : k' = k
      · subst hkey
        exact ⟨_, hkept, by rw [Outgoing.awaits, if_neg hm]⟩
      · rw [Function.update_of_ne hkey] at hk'
        exact h.seenKept k' hk'
  · obtain ⟨first, hoffered, hsub, honce⟩ := h.history
    refine ⟨first ++ [m], ?_, hsub.append (List.Sublist.refl _), ?_⟩
    · rw [pending, hpending, hoffered, hmessages, List.append_assoc]
      rfl
    · rw [List.filter_append, List.filter_append, honce]
  · refine fun _ => ⟨later, hpending.trans (congrArg (· ++ later) ?_), hlater⟩
    refine List.filter_congr fun o ho => ?_
    rw [hupdate o (h.forwardKept o (hmem o ho)), decide_eq_false (hrest o ho), Bool.or_false]

/-- A release arrives. What is kept under the identifier is the release itself. -/
theorem Inv.release (h : Inv once s seen) {rest : List (Outgoing K M)}
    (hforward : s.forward = .release k :: rest) :
    Inv once { s with
      forward := rest
      backward := s.backward ++ [.complete k]
      handled := Function.update s.handled k false } seen := by
  have hkept : .release k ∈ s.kept := h.forwardKept _ (hforward ▸ List.mem_cons_self)
  have hmem : ∀ o ∈ rest, o ∈ s.forward := fun o ho => hforward ▸ List.mem_cons_of_mem _ ho
  have hback : ∀ r ∈ s.backward, r.key ≠ k := (h.head_alone hforward).2
  -- whether a message has been got does not change, since the kept packet about the identifier is
  -- the release
  have hgot : ∀ o ∈ s.kept,
      got once (Function.update s.handled k false) seen o = got once s.handled seen o := by
    intro o ho
    by_cases hkey : o.key = k
    · obtain rfl := h.eq_of_key ho hkept hkey
      rfl
    · exact got_congr (Function.update_of_ne hkey ..) rfl
  have hpending : s.kept.filter (fun o => ! got once (Function.update s.handled k false) seen o) =
      pending once s seen := List.filter_congr fun o ho => by rw [hgot o ho]
  refine ⟨h.keys, h.alone_head hforward rfl, fun o ho => h.forwardKept o (hmem o ho), ?_, ?_, ?_,
    h.seenKept, h.deliveredOffered, h.keptOffered, ?_, ?_⟩
  · intro r hr
    rcases List.mem_append.mp hr with hr | hr
    · obtain ⟨o, ho, hawaits, hrest⟩ := h.backwardKept r hr
      exact ⟨o, ho, hawaits, by rw [hgot o ho, hrest]⟩
    · exact ⟨_, hkept, (List.mem_singleton.mp hr).symm, rfl⟩
  · intro k' hk'
    rcases List.mem_append.mp hk' with hk' | hk'
    · dsimp only
      have hne : k' ≠ k := hback _ hk'
      rw [Function.update_of_ne hne]
      exact h.completed k' hk'
    · obtain ⟨⟩ := List.mem_singleton.mp hk'
      exact Function.update_self ..
  · intro k' hk'
    dsimp only at hk'
    by_cases hkey : k' = k
    · rw [hkey, Function.update_self] at hk'
      cases hk'
    · rw [Function.update_of_ne hkey] at hk'
      exact h.handledKept k' hk'
  · rw [pending, hpending]
    exact h.history
  · intro ha
    obtain ⟨later, horder, hlater⟩ := h.order ha
    refine ⟨later, ?_, hlater⟩
    have hrest : rest.filter (fun o => ! got once (Function.update s.handled k false) seen o) =
        rest.filter fun o => ! got once s.handled seen o :=
      List.filter_congr fun o ho => by rw [hgot o (h.forwardKept o (hmem o ho))]
    rw [pending, hpending, horder, hforward, hrest]
    rfl

/-- An answer arrives: what awaited it is no longer kept. -/
theorem Inv.answered (h : Inv once s seen) {r : Reply K} {rest : List (Reply K)}
    (hbackward : s.backward = r :: rest) :
    Inv once { s with
      backward := rest
      kept := s.kept.filter (fun o => o.awaits once ≠ r) ++ r.next
      forward := s.forward ++ r.next } (Function.update seen r.key false) := by
  obtain ⟨o₀, ho₀, rfl, hgot₀⟩ := h.backwardKept r (hbackward ▸ List.mem_cons_self)
  generalize hr : o₀.awaits once = r at *
  have hkey₀ : r.key = o₀.key := by rw [← hr, key_awaits]
  have hmem : ∀ r' ∈ rest, r' ∈ s.backward := fun r' hr' => hbackward ▸ List.mem_cons_of_mem _ hr'
  -- under the identifier of the answer there was only what awaited it
  have hne : ∀ o ∈ s.kept, o.awaits once ≠ r ↔ o.key ≠ r.key := by
    intro o ho
    constructor
    · intro haw hkey
      exact haw (by rw [h.eq_of_key ho ho₀ (hkey.trans hkey₀), hr])
    · exact fun hkey haw => hkey (by rw [← haw, key_awaits])
  have hstays : ∀ o ∈ s.kept, o.key ≠ r.key →
      o ∈ s.kept.filter (fun o => o.awaits once ≠ r) ++ r.next := fun o ho hkey =>
    List.mem_append_left _ (List.mem_filter.mpr ⟨ho, by simpa using (hne o ho).mpr hkey⟩)
  have hgot : ∀ o : Outgoing K M, o.key ≠ r.key →
      got once s.handled (Function.update seen r.key false) o = got once s.handled seen o :=
    fun o hkey => got_congr rfl (Function.update_of_ne hkey ..)
  have hnext : ∀ o ∈ r.next, got once s.handled (Function.update seen r.key false) o := by
    intro o ho
    obtain rfl := key_next ho
    rfl
  have hnil : r.next.filter (fun o : Outgoing K M =>
      ! got once s.handled (Function.update seen r.key false) o) = [] :=
    List.filter_eq_nil_iff.mpr fun o ho => by simp [hnext o ho]
  have hpending : (s.kept.filter (fun o : Outgoing K M => o.awaits once ≠ r) ++ r.next).filter (fun o =>
      ! got once s.handled (Function.update seen r.key false) o) = pending once s seen := by
    rw [List.filter_append, List.filter_filter, hnil, List.append_nil]
    refine List.filter_congr fun o ho => ?_
    by_cases hkey : o.key = r.key
    · obtain rfl := h.eq_of_key ho ho₀ (hkey.trans hkey₀)
      rw [hgot₀, hr]
      simp
    · rw [hgot o hkey, decide_eq_true ((hne o ho).mpr hkey), Bool.and_true]
  have halone := h.alone
  rw [hbackward, List.map_cons] at halone
  refine ⟨?_, ?_, ?_, ?_, fun k hk => h.completed k (hmem _ hk), ?_, ?_, h.deliveredOffered, ?_, ?_, ?_⟩
  · have hfilter : ((s.kept.filter fun o => o.awaits once ≠ r).map Outgoing.key).Nodup :=
      h.keys.sublist (List.filter_sublist.map _)
    rw [List.map_append, List.nodup_append]
    refine ⟨hfilter, ?_, fun k₁ hk₁ k₂ hk₂ hk => ?_⟩
    · cases r <;> simp [Reply.next]
    · obtain ⟨o, ho, rfl⟩ := List.mem_map.mp hk₁
      obtain ⟨o', ho', rfl⟩ := List.mem_map.mp hk₂
      obtain ⟨ho, haw⟩ := List.mem_filter.mp ho
      rw [key_next ho'] at hk
      exact (hne o ho).mp (by simpa using haw) hk
  · rw [List.map_append, List.append_assoc]
    cases r with
    | received k => exact halone
    | ack k | complete k => exact halone.sublist ((List.sublist_cons_self _ _).append_left _)
  · intro o ho
    rcases List.mem_append.mp ho with ho | ho
    · refine hstays o (h.forwardKept o ho) ?_
      exact h.not_both ho (hbackward ▸ List.mem_cons_self)
    · exact List.mem_append_right _ ho
  · intro r' hr'
    obtain ⟨o, ho, hawaits, hrest⟩ := h.backwardKept r' (hmem r' hr')
    have hkey : o.key ≠ r.key := by
      intro hk
      rw [List.nodup_append, List.nodup_cons] at halone
      refine halone.2.1.1 ?_
      rw [← hk, ← key_awaits once, hawaits]
      exact List.mem_map_of_mem hr'
    exact ⟨o, hstays o ho hkey, hawaits, by rw [hgot o hkey, hrest]⟩
  · intro k hk
    obtain ⟨o, ho, hok, hack⟩ := h.handledKept k hk
    by_cases hkey : k = r.key
    · -- the receiver remembers the identifier only until it has answered the release
      obtain rfl := h.eq_of_key ho ho₀ (hok.trans (hkey.trans hkey₀))
      cases hr' : r with
      | ack k' =>
        rw [hr, hr'] at hack
        rw [hr'] at hkey
        exact absurd (congrArg Reply.ack hkey.symm) hack
      | received k' =>
        refine ⟨.release k', List.mem_append_right _ List.mem_cons_self, ?_, by rintro ⟨⟩⟩
        rw [hkey, hr']
        rfl
      | complete k' =>
        have hcompleted := h.completed k' (by rw [hbackward, hr']; exact List.mem_cons_self)
        rw [hr'] at hkey
        rw [hkey, Reply.key, hcompleted] at hk
        cases hk
    · exact ⟨o, hstays o ho (hok ▸ hkey), hok, hack⟩
  · intro k hk
    by_cases hkey : k = r.key
    · rw [hkey, Function.update_self] at hk
      cases hk
    · rw [Function.update_of_ne hkey] at hk
      obtain ⟨o, ho, hack⟩ := h.seenKept k hk
      refine ⟨o, hstays o ho ?_, hack⟩
      rw [← key_awaits once, hack]
      exact hkey
  · intro k m hm
    rcases List.mem_append.mp hm with hm | hm
    · exact h.keptOffered k m (List.mem_filter.mp hm).1
    · cases key_next hm
  · rw [pending, hpending]
    exact h.history
  · intro ha
    obtain ⟨later, horder, hlater⟩ := h.order ha
    refine ⟨later, ?_, hlater⟩
    have hforward : s.forward.filter (fun o =>
        ! got once s.handled (Function.update seen r.key false) o) =
        s.forward.filter fun o => ! got once s.handled seen o := by
      refine List.filter_congr fun o ho => ?_
      rw [hgot o (h.not_both ho (hbackward ▸ List.mem_cons_self))]
    rw [pending, hpending, horder, List.filter_append, hforward, hnil, List.append_nil]

/-- Every step keeps the invariant. -/
theorem Step.inv {t : State K M} (hstep : Step once s t) (h : Inv once s seen) :
    ∃ seen', Inv once t seen' := by
  cases hstep with
  | offer m hk sent hsent => exact ⟨_, h.offer hk m hsent⟩
  | @deliver k m rest hforward haccepting =>
    -- a message that was got before is only answered again
    cases hgot : got once s.handled seen (.message k m) with
    | true =>
      have hagain := h.deliverAgain hforward hgot
      refine ⟨seen, ?_⟩
      by_cases hm : once m
      · rw [got, if_pos hm] at hgot
        have hsame : Function.update s.handled k true = s.handled :=
          Function.update_eq_self_iff.mpr hgot.symm
        simpa [hm, hgot, hsame] using hagain
      · simpa [hm] using hagain
    | false =>
      have hnew : (once m && s.handled k) = false := by
        rw [got] at hgot
        by_cases hm : once m
        · rw [if_pos hm] at hgot
          rw [hgot, Bool.and_false]
        · simp [hm]
      refine ⟨if once m then seen else Function.update seen k true, ?_⟩
      rw [hnew]
      exact h.deliverFirst hforward haccepting hgot
  | release hforward => exact ⟨_, h.release hforward⟩
  | answered hbackward => exact ⟨_, h.answered hbackward⟩
  | loseForward hos => exact ⟨_, h.loseForward hos⟩
  | loseBackward hrs => exact ⟨_, h.loseBackward hrs⟩
  | resume _ hbackward => exact ⟨_, h.resume hbackward⟩

/-! ### Results -/

/-- Every reachable state satisfies the invariant, for the messages that were seen. -/
theorem Reachable.inv (h : Reachable once s) : ∃ seen, Inv once s seen := by
  induction h with
  | refl => exact ⟨_, .init⟩
  | tail _ hstep ih =>
    obtain ⟨seen, hinv⟩ := ih
    exact hstep.inv hinv

/-- Nothing is delivered that was not offered. -/
theorem Reachable.delivered_offered (h : Reachable once s) (hm : m ∈ s.delivered) :
    m ∈ s.offered := by
  obtain ⟨seen, hinv⟩ := h.inv
  exact hinv.deliveredOffered m hm

/-- Of the messages to be delivered once, the first ones were delivered, in order. -/
theorem Reachable.once_prefix (h : Reachable once s) :
    s.delivered.filter once <+: s.offered.filter once := by
  obtain ⟨seen, hinv⟩ := h.inv
  obtain ⟨first, hoffered, -, honce⟩ := hinv.history
  rw [← honce, hoffered, List.filter_append]
  exact List.prefix_append _ _

/-- The first of the messages were delivered, in order and perhaps with repetitions, and the
    others are kept, in order. -/
theorem Reachable.nothing_lost (h : Reachable once s) :
    ∃ first later, s.offered = first ++ later ∧ first.Sublist s.delivered ∧
      later.Sublist (messages s.kept) := by
  obtain ⟨seen, hinv⟩ := h.inv
  obtain ⟨first, hoffered, hsub, -⟩ := hinv.history
  exact ⟨first, _, hoffered, hsub, List.filter_sublist.filterMap _⟩

/-- As long as nothing was lost on the line and nothing was held back, what is no longer on
    the line was delivered. -/
theorem Reachable.all_delivered (h : Reachable once s) (haccepting : s.accepting)
    (hemitting : s.emitting) (hforward : messages s.forward = []) :
    s.offered.Sublist s.delivered ∧ s.delivered.filter once = s.offered.filter once := by
  obtain ⟨seen, hinv⟩ := h.inv
  obtain ⟨later, horder, hlater⟩ := hinv.order haccepting
  obtain ⟨first, hoffered, hsub, honce⟩ := hinv.history
  have hnone : messages (pending once s seen) = [] := by
    rw [horder, hlater hemitting, List.append_nil, ← List.sublist_nil, ← hforward]
    exact List.filter_sublist.filterMap _
  rw [hnone, List.append_nil] at hoffered
  subst hoffered
  exact ⟨hsub, honce.symm⟩

/-- An identifier under which nothing is kept is neither on the line nor remembered. -/
theorem Reachable.free (h : Reachable once s) (hk : Free s k) :
    (∀ o ∈ s.forward, o.key ≠ k) ∧ (∀ r ∈ s.backward, r.key ≠ k) ∧ s.handled k = false := by
  obtain ⟨seen, hinv⟩ := h.inv
  exact ⟨fun _ => hinv.free_forward hk, fun _ => hinv.free_backward hk, hinv.free_handled hk⟩

/-- An answer on the line is awaited. -/
theorem Reachable.awaited (h : Reachable once s) {r : Reply K} (hr : r ∈ s.backward) :
    ∃ o ∈ s.kept, o.awaits once = r := by
  obtain ⟨seen, hinv⟩ := h.inv
  obtain ⟨o, ho, hawaits, -⟩ := hinv.backwardKept r hr
  exact ⟨o, ho, hawaits⟩

/-! ### The two ends -/

/-- A state that can be reached, as the two ends see it: a sender that is up has begun again and
    held nothing back, and if it is up or has packets on the line, then a receiver that is up has
    missed nothing. If both are up, then all that is kept is on the line, or its answer is. -/
structure Follows (once : M → Bool) (s : State K M) (sender receiver : Prop) : Prop where
  reachable : Reachable once s
  emitting : sender → s.emitting
  accepting : sender ∨ s.forward ≠ [] → receiver → s.accepting
  working : sender → receiver → ∀ o ∈ s.kept, o ∈ s.forward ∨ o.awaits once ∈ s.backward

variable {sender receiver sender' receiver' : Prop}

/-- In the beginning nothing has to follow. -/
theorem Follows.init : Follows once (.init : State K M) False False where
  reachable := .refl
  emitting h := h.elim
  accepting _ h := h.elim
  working h := h.elim

/-- An end that is not needed goes down. -/
theorem Follows.change (h : Follows once s sender receiver) (hs : sender' → sender)
    (hr : sender' ∨ s.forward ≠ [] → receiver' → receiver) : Follows once s sender' receiver' where
  reachable := h.reachable
  emitting hs' := h.emitting (hs hs')
  accepting hf hr' := h.accepting (hf.imp_left hs) (hr hf hr')
  working hs' hr' := h.working (hs hs') (hr (.inl hs') hr')

/-- A message is offered. -/
theorem Follows.offer (h : Follows once s sender receiver) (hk : Free s k) (m : M) {sent : Bool}
    (hsent : sent ↔ sender) :
    Follows once { s with
      kept := s.kept ++ [.message k m]
      offered := s.offered ++ [m]
      forward := if sent then s.forward ++ [.message k m] else s.forward
      emitting := s.emitting && sent } sender receiver where
  reachable := h.reachable.tail (.offer m hk sent fun hs _ => h.emitting (hsent.mp hs))
  emitting hs := by
    rw [h.emitting hs, hsent.mpr hs]
    rfl
  accepting hf hr := by
    cases sent with
    | true => exact h.accepting (.inl (hsent.mp rfl)) hr
    | false => exact h.accepting hf hr
  working hs hr o ho := by
    obtain rfl := hsent.mpr hs
    rcases List.mem_append.mp ho with ho | ho
    · exact (h.working hs hr o ho).imp_left (List.mem_append_left _)
    · exact .inl (List.mem_append_right _ ho)

/-- What is first on the line is answered. -/
theorem Follows.working_head (h : Follows once s sender receiver) (hs : sender) (hr : receiver)
    {o : Outgoing K M} {rest : List (Outgoing K M)} (hforward : s.forward = o :: rest) :
    ∀ o' ∈ s.kept, o' ∈ rest ∨ o'.awaits once ∈ s.backward ++ [o.awaits once] := by
  intro o' ho'
  rcases h.working hs hr o' ho' with hmem | hmem
  · rw [hforward] at hmem
    rcases List.mem_cons.mp hmem with rfl | hmem
    · exact .inr (List.mem_append_right _ List.mem_cons_self)
    · exact .inl hmem
  · exact .inr (List.mem_append_left _ hmem)

/-- A message is delivered. -/
theorem Follows.deliver (h : Follows once s sender receiver) {rest : List (Outgoing K M)}
    (hforward : s.forward = .message k m :: rest) (hreceiver : receiver) :
    Follows once { s with
      forward := rest
      backward := s.backward ++ [Outgoing.awaits once (.message k m)]
      delivered := if once m && s.handled k then s.delivered else s.delivered ++ [m]
      handled := if once m then Function.update s.handled k true else s.handled }
      sender receiver where
  reachable := by
    have hne : s.forward ≠ [] := by
      rw [hforward]
      exact List.cons_ne_nil _ _
    exact h.reachable.tail (.deliver hforward (h.accepting (.inr hne) hreceiver))
  emitting := h.emitting
  accepting _ hr := by
    have hne : s.forward ≠ [] := by
      rw [hforward]
      exact List.cons_ne_nil _ _
    exact h.accepting (.inr hne) hr
  working hs hr o ho := h.working_head hs hr hforward o ho

/-- A release is answered. -/
theorem Follows.release (h : Follows once s sender receiver) {rest : List (Outgoing K M)}
    (hforward : s.forward = .release k :: rest) :
    Follows once { s with
      forward := rest
      backward := s.backward ++ [.complete k]
      handled := Function.update s.handled k false } sender receiver where
  reachable := h.reachable.tail (.release hforward)
  emitting := h.emitting
  accepting _ hr := by
    have hne : s.forward ≠ [] := by
      rw [hforward]
      exact List.cons_ne_nil _ _
    exact h.accepting (.inr hne) hr
  working hs hr o ho := h.working_head hs hr hforward o ho

/-- A reply is taken, and may be followed by a release. -/
theorem Follows.answered (h : Follows once s sender receiver) {rest : List (Reply K)}
    (hbackward : s.backward = r :: rest) (hsender : sender) :
    Follows once { s with
      backward := rest
      kept := s.kept.filter (fun o => o.awaits once ≠ r) ++ r.next
      forward := s.forward ++ r.next } sender receiver where
  reachable := h.reachable.tail (.answered hbackward)
  emitting := h.emitting
  accepting _ hr := h.accepting (.inl hsender) hr
  working hs hr o ho := by
    rcases List.mem_append.mp ho with ho | ho
    · obtain ⟨ho, hne⟩ := List.mem_filter.mp ho
      refine (h.working hs hr o ho).imp (List.mem_append_left _) fun hmem => ?_
      rw [hbackward] at hmem
      exact (List.mem_cons.mp hmem).resolve_left (of_decide_eq_true hne)
    · exact .inl (List.mem_append_right _ ho)

/-- What arrives at a receiver that is down is lost. -/
theorem Follows.loseForward (h : Follows once s sender receiver) {os : List (Outgoing K M)}
    (hos : os.Sublist s.forward) (hreceiver : ¬ receiver) :
    Follows once { s with forward := os, accepting := false } sender receiver where
  reachable := h.reachable.tail (.loseForward hos)
  emitting := h.emitting
  accepting _ hr := absurd hr hreceiver
  working _ hr := absurd hr hreceiver

/-- What arrives at a sender that is down is lost. -/
theorem Follows.loseBackward (h : Follows once s sender receiver) {rs : List (Reply K)}
    (hrs : rs.Sublist s.backward) (hsender : ¬ sender) :
    Follows once { s with backward := rs } sender receiver where
  reachable := h.reachable.tail (.loseBackward hrs)
  emitting := h.emitting
  accepting := h.accepting
  working hs := absurd hs hsender

/-- The sender begins again. -/
theorem Follows.resume (h : Follows once s sender receiver) (hforward : s.forward = [])
    (hbackward : s.backward = []) : Follows once
      { s with forward := s.kept, accepting := true, emitting := true } sender' receiver' where
  reachable := h.reachable.tail (.resume hforward hbackward)
  emitting _ := rfl
  accepting _ _ := rfl
  working _ _ _ ho := .inl ho

/-- The line breaks. -/
theorem Follows.cut (h : Follows once s sender receiver) (hsender : ¬ sender') :
    Follows once { s with forward := [], backward := [], accepting := false } sender' receiver' where
  reachable := (h.reachable.tail (.loseForward (List.nil_sublist _))).tail
    (.loseBackward (List.nil_sublist _))
  emitting hs := absurd hs hsender
  accepting hf := absurd hf (not_or.mpr ⟨hsender, not_not_intro rfl⟩)
  working hs := absurd hs hsender

/-- When nothing is on the line any more, nothing is kept. -/
theorem Follows.settled (h : Follows once s sender receiver) (hs : sender) (hr : receiver)
    (hforward : s.forward = []) (hbackward : s.backward = []) : s.kept = [] := by
  refine List.eq_nil_iff_forall_not_mem.mpr fun o ho => ?_
  rcases h.working hs hr o ho with hmem | hmem
  · rw [hforward] at hmem
    cases hmem
  · rw [hbackward] at hmem
    cases hmem

end

end Delivery
