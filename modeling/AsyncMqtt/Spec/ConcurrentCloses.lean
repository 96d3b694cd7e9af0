import AsyncMqtt.ForStd.Run
import AsyncMqtt.Native.CloseOp
import AsyncMqtt.Spec.EndpointSteps

/-!
# Concurrent closes

Several operations may close an endpoint at the same time. The first one closes the stream. Those
that come while it is closing wait in a queue, and they run again when it is closed: then there is
nothing left to do for them.

## Key results

- `CloseLog.Inv.of_turn`: every operation is in one place, and only one waits for the stream
- `CloseLog.Inv.work_of_turn`: whatever the executor does next, there is less left to do
- `CloseLog.closes_once`: one notification for each time that the endpoint is closed, and one
  completion for each operation
-/

namespace AsyncMqtt

namespace Closer

variable {role : Role} {pb : PacketIdBytes}

/-- The operations that have not completed. -/
def pending (c : Closer role pb) : List CloseOp :=
  c.dispatched ++ (c.streamClosing ++ (c.closeQueue.handlers ++ c.polling))

/-- The endpoint is not opened while the stream is being closed or from within the poll after it. -/
def Undisturbed (c : Closer role pb) : Input → Prop
  | .handshake ok => ok = true → c.ep.status ≠ .closing ∧ c.polling = []
  | .underlyingAccepted => c.ep.status ≠ .closing ∧ c.polling = []
  | _ => True

/-- The executor can do this without a new call. -/
def Enabled (c : Closer role pb) : Input → Prop
  | .run k => k < c.dispatched.length
  | .streamClosed k => k < c.streamClosing.length
  | .poll => c.polling ≠ []
  | _ => False

/-- Nothing is left for the executor to do. -/
def Idle (c : Closer role pb) : Prop := ∀ i, ¬ c.Enabled i

/-- A bound of what the executor can do without a new call. An operation that is dispatched may
    have to wait for the stream, or in the queue and then run again. -/
def work (c : Closer role pb) : Nat :=
  match c.ep.status with
  | .open => 6 * c.dispatched.length + 4 * c.closeQueue.handlers.length +
      3 * c.streamClosing.length + c.polling.length
  | .closing => 5 * c.dispatched.length + 4 * c.closeQueue.handlers.length +
      3 * c.streamClosing.length + c.polling.length
  | .closed => c.dispatched.length + 2 * c.closeQueue.handlers.length +
      3 * c.streamClosing.length + c.polling.length

end Closer

/-- The operation that completes. -/
def CloseOutput.completion? : CloseOutput → Option Nat
  | complete op => some op.number
  | _ => none

/-- Closing the stream completes nothing. -/
@[simp] theorem CloseOutput.completions_streamClose (op : CloseOp) :
    [streamClose op].filterMap completion? = [] := rfl

/-- Telling the connection completes nothing. -/
@[simp] theorem CloseOutput.completions_notifyClosed :
    [notifyClosed].filterMap completion? = [] := rfl

/-- A completion is one of its operation. -/
@[simp] theorem CloseOutput.completions_complete (op : CloseOp) :
    [complete op].filterMap completion? = [op.number] := rfl

/-- An endpoint with what has happened to it: the operations that have completed, the calls of
    `notify_closed`, and how often the endpoint has become closed. -/
structure CloseLog (role : Role) (pb : PacketIdBytes) where
  closer : Closer role pb
  completed : List Nat
  notified : Nat
  passages : Nat

namespace CloseLog

variable {role : Role} {pb : PacketIdBytes}

/-- A new endpoint without closes -/
def make (role : Role) (pb : PacketIdBytes) (ver : ProtocolVersion) : CloseLog role pb :=
  ⟨.make role pb ver, [], 0, 0⟩

/-- The effect of an input. -/
def step (l : CloseLog role pb) (i : Closer.Input) : CloseLog role pb :=
  let r := l.closer.call i
  { closer := r.1
    completed := l.completed ++ r.2.filterMap CloseOutput.completion?
    notified := l.notified + r.2.count .notifyClosed
    passages := l.passages +
      if l.closer.ep.status ≠ .closed ∧ r.1.ep.status = .closed then 1 else 0 }

/-- Operations complete on a closed endpoint only. -/
def CompletesClosed (l : CloseLog role pb) (i : Closer.Input) : Prop :=
  (l.closer.call i).2.filterMap CloseOutput.completion? ≠ [] →
    (l.closer.call i).1.ep.status = .closed

/-- The concurrent operations close the endpoint once. -/
structure ClosesOnce (l : CloseLog role pb) : Prop where
  notified : l.notified = l.passages
  /-- no operation completes twice -/
  atMostOnce : l.completed.Nodup ∧ ∀ n ∈ l.completed, n < l.closer.started
  /-- after the poll the queue is empty -/
  queue : l.closer.ep.status = .closed → l.closer.polling = [] → l.closer.closeQueue.handlers = []
  /-- what the executor does comes to an end -/
  ends : ∀ is, Run.All step (fun l i => l.closer.Enabled i) l is → is.length ≤ l.closer.work
  /-- then every operation has completed -/
  completed : l.closer.Idle → l.completed.Perm (List.range l.closer.started)

/-! ### The invariant -/

/-- How often an operation is in one of the places or has completed. -/
def places (l : CloseLog role pb) (n : Nat) : Nat :=
  (l.closer.pending.map CloseOp.number ++ l.completed).count n

/-- Every operation that was started has completed or is in one place, and one operation waits for
    the stream while it is closing. -/
structure Inv (l : CloseLog role pb) : Prop where
  numbers : ∀ n, l.places n = (List.range l.closer.started).count n
  dispatched : ∀ op ∈ l.closer.dispatched, op.state = .close
  queued : ∀ op ∈ l.closer.closeQueue.handlers, op.state = .close
  streamClosing : ∀ op ∈ l.closer.streamClosing, op.state = .complete
  closing : l.closer.streamClosing.length = if l.closer.ep.status = .closing then 1 else 0
  polling : l.closer.polling ≠ [] → l.closer.ep.status = .closed
  waiting : l.closer.closeQueue.handlers ≠ [] →
    l.closer.ep.status = .closing ∨ l.closer.polling ≠ []
  notified : l.notified = l.passages

/-- In the beginning no close is under way. -/
theorem inv_make (ver : ProtocolVersion) : (make role pb ver).Inv :=
  ⟨fun _ => rfl, nofun, nofun, nofun, rfl, nofun, nofun, rfl⟩

/-- An element splits the list. -/
theorem split_of_getElem? {α : Type} {xs : List α} {k : Nat} {x : α} (h : xs[k]? = some x) :
    ∃ as bs, xs = as ++ x :: bs ∧ xs.eraseIdx k = as ++ bs := by
  obtain ⟨hk, rfl⟩ := List.getElem?_eq_some_iff.mp h
  exact ⟨xs.take k, xs.drop (k + 1), by simp, List.eraseIdx_eq_take_drop_succ xs k⟩

/-- What is left was there. -/
theorem mem_of_split {α : Type} {xs as bs : List α} {x y : α} (hsplit : xs = as ++ x :: bs)
    (hy : y ∈ as ++ bs) : y ∈ xs := by
  rw [hsplit, List.mem_append, List.mem_cons]
  exact (List.mem_append.mp hy).imp_right .inr

variable {l : CloseLog role pb}

/-- The places of a close -/
theorem places_eq (l : CloseLog role pb) (n : Nat) :
    l.places n = (l.closer.dispatched.map CloseOp.number).count n +
      ((l.closer.streamClosing.map CloseOp.number).count n +
        ((l.closer.closeQueue.handlers.map CloseOp.number).count n +
          (l.closer.polling.map CloseOp.number).count n)) + l.completed.count n := by
  simp only [places, Closer.pending, List.map_append, List.count_append]

/-- The closes that are under way and those that have completed are all that were started. -/
theorem Inv.numbers_perm (h : l.Inv) :
    (l.closer.pending.map CloseOp.number ++ l.completed).Perm (List.range l.closer.started) :=
  List.perm_iff_count.mpr h.numbers

/-- No operation completes twice. -/
theorem Inv.atMostOnce (h : l.Inv) :
    l.completed.Nodup ∧ ∀ n ∈ l.completed, n < l.closer.started := by
  constructor
  · have hnodup := h.numbers_perm.nodup_iff.mpr List.nodup_range
    exact hnodup.of_append_right
  · intro n hn
    rw [← List.mem_range, ← h.numbers_perm.mem_iff]
    exact List.mem_append_right _ hn

/-- While no operation closes the stream or polls, none waits in the queue. -/
theorem Inv.handlers_eq_nil (h : l.Inv) (hclosing : l.closer.ep.status ≠ .closing)
    (hpolling : l.closer.polling = []) : l.closer.closeQueue.handlers = [] := by
  by_contra hne
  rcases h.waiting hne with hc | hp
  · exact hclosing hc
  · exact hp hpolling

/-- The stream is being closed only while the status says so. -/
theorem Inv.streamClosing_eq_nil (h : l.Inv) (hclosing : l.closer.ep.status ≠ .closing) :
    l.closer.streamClosing = [] := by
  rw [← List.length_eq_zero_iff, h.closing, if_neg hclosing]

/-- What an input does to the operations, one case for each branch of `close_op` and for each end of
    a turn of the poll. -/
inductive Turn (l : CloseLog role pb) : Closer.Input → CloseLog role pb → Prop where
  | nothing {i} (h : ¬ l.closer.Enabled i) : Turn l i l
  | opens {i} (hi : ¬ l.closer.Enabled i) (hclosing : l.closer.ep.status ≠ .closing) (hpolling : l.closer.polling = []) :
      Turn l i { l with closer := { l.closer with ep := { l.closer.ep with status := .open } } }
  | starts :
      Turn l .asyncClose
        { l with closer := { l.closer with
            dispatched := l.closer.dispatched ++ [⟨l.closer.started, .close⟩]
            started := l.closer.started + 1 } }
  | closes {k op as bs} (hsplit : l.closer.dispatched = as ++ op :: bs)
      (hopen : l.closer.ep.status = .open) :
      Turn l (.run k)
        { l with closer := { l.closer with
            ep := { l.closer.ep with status := .closing }
            dispatched := as ++ bs
            streamClosing := l.closer.streamClosing ++ [⟨op.number, .complete⟩] } }
  | waits {k op as bs} (hsplit : l.closer.dispatched = as ++ op :: bs)
      (hclosing : l.closer.ep.status = .closing) :
      Turn l (.run k)
        { l with closer := { l.closer with
            dispatched := as ++ bs
            closeQueue := l.closer.closeQueue.post op } }
  | ends {k op as bs} (hsplit : l.closer.dispatched = as ++ op :: bs)
      (hclosed : l.closer.ep.status = .closed) :
      Turn l (.run k)
        { l with
            closer := { l.closer with dispatched := as ++ bs }
            completed := l.completed ++ [op.number] }
  | notifies {k op as bs ep} (hsplit : l.closer.streamClosing = as ++ op :: bs)
      (hclosing : l.closer.ep.status = .closing) (hclosed : ep.status = .closed) :
      Turn l (.streamClosed k)
        { closer := { l.closer with
            ep, streamClosing := as ++ bs, polling := l.closer.polling ++ [op] }
          completed := l.completed
          notified := l.notified + 1
          passages := l.passages + 1 }
  | hands {op polling next q} (hpolling : l.closer.polling = op :: polling)
      (hqueue : l.closer.closeQueue.handlers = next :: q.handlers) :
      Turn l .poll
        { l with closer := { l.closer with
            closeQueue := q
            dispatched := l.closer.dispatched ++ [next] } }
  | polled {op polling q} (hpolling : l.closer.polling = op :: polling)
      (hqueue : l.closer.closeQueue.handlers = []) (hq : q.handlers = []) :
      Turn l .poll
        { l with
            closer := { l.closer with closeQueue := q, polling }
            completed := l.completed ++ [op.number] }

/-- After `notify_closed` the endpoint is closed. -/
theorem notifyClosed_status (ep : Endpoint role pb) : ep.notifyClosed.status = .closed := by
  obtain ⟨armed, out, heq⟩ := Endpoint.timed_notifyClosed ep
  rw [heq]

/-- An operation that was dispatched runs. -/
theorem Inv.turn_run (h : l.Inv) (k : Nat) : Turn l (.run k) (l.step (.run k)) := by
  cases hk : l.closer.dispatched[k]? with
  | none =>
    have hstep : l.step (.run k) = l := by simp [step, Closer.call, hk]
    rw [hstep]
    exact .nothing (Nat.not_lt.mpr (List.getElem?_eq_none_iff.mp hk))
  | some op =>
    obtain ⟨as, bs, hsplit, herase⟩ := split_of_getElem? hk
    have hstate : op.state = .close := h.dispatched op (List.mem_of_getElem? hk)
    cases hstatus : l.closer.ep.status with
    | «open» =>
      have hturn := Turn.closes (k := k) hsplit hstatus
      simpa [step, Closer.call, Closer.closeOp, hk, herase, hstate,
        hstatus] using hturn
    | closing =>
      have hturn := Turn.waits (k := k) hsplit hstatus
      simpa [step, Closer.call, Closer.closeOp, hk, herase, hstate,
        hstatus] using hturn
    | closed =>
      have hturn := Turn.ends (k := k) hsplit hstatus
      simpa [step, Closer.call, Closer.closeOp, hk, herase, hstate,
        hstatus] using hturn

/-- The close of the stream completes. -/
theorem Inv.turn_streamClosed (h : l.Inv) (k : Nat) :
    Turn l (.streamClosed k) (l.step (.streamClosed k)) := by
  cases hk : l.closer.streamClosing[k]? with
  | none =>
    have hstep : l.step (.streamClosed k) = l := by simp [step, Closer.call, hk]
    rw [hstep]
    exact .nothing (Nat.not_lt.mpr (List.getElem?_eq_none_iff.mp hk))
  | some op =>
    obtain ⟨as, bs, hsplit, herase⟩ := split_of_getElem? hk
    have hstate : op.state = .complete := h.streamClosing op (List.mem_of_getElem? hk)
    have hclosing : l.closer.ep.status = .closing := by
      by_contra hne
      rw [h.streamClosing_eq_nil hne] at hk
      simp at hk
    have hturn := Turn.notifies (k := k) hsplit hclosing (notifyClosed_status l.closer.ep)
    simpa [step, Closer.call, Closer.closeOp, hk, herase, hstate,
      hclosing, notifyClosed_status] using hturn

/-- A turn of the poll. -/
theorem turn_poll (l : CloseLog role pb) : Turn l .poll (l.step .poll) := by
  cases hpolling : l.closer.polling with
  | nil =>
    have hstep : l.step .poll = l := by simp [step, Closer.call, hpolling]
    rw [hstep]
    exact .nothing fun hne => hne hpolling
  | cons op polling =>
    cases hqueue : l.closer.closeQueue.handlers with
    | nil =>
      have hturn := Turn.polled (q := (l.closer.closeQueue.pollOne).2) hpolling hqueue
        (by simp [IocQueue.pollOne, hqueue])
      simpa [step, Closer.call, Closer.pollTurn, IocQueue.pollOne, hpolling, hqueue] using hturn
    | cons next rest =>
      have hqueue' : l.closer.closeQueue.handlers = next :: (l.closer.closeQueue.pollOne).2.handlers := by
        simp [IocQueue.pollOne, hqueue]
      have hturn := Turn.hands hpolling hqueue'
      simpa [step, Closer.call, Closer.pollTurn, IocQueue.pollOne, hpolling, hqueue] using hturn

/-- The endpoint is opened. -/
theorem turn_opens {i : Closer.Input} (hopens : l.closer.call i =
      ({ l.closer with ep := { l.closer.ep with status := .open } }, []))
    (hnot : ¬ l.closer.Enabled i)
    (hi : l.closer.ep.status ≠ .closing ∧ l.closer.polling = []) : Turn l i (l.step i) := by
  have hturn := Turn.opens hnot hi.1 hi.2
  simpa [step, hopens] using hturn

/-- Every step takes a turn. -/
theorem Inv.turn (h : l.Inv) {i : Closer.Input} (hi : l.closer.Undisturbed i) :
    Turn l i (l.step i) := by
  cases i with
  | asyncClose =>
    have hturn := Turn.starts (l := l)
    simpa [step, Closer.call, Closer.closeOp] using hturn
  | run k => exact h.turn_run k
  | streamClosed k => exact h.turn_streamClosed k
  | poll => exact turn_poll l
  | handshake ok =>
    cases ok with
    | false =>
      have hstep : l.step (.handshake false) = l := by simp [step, Closer.call]
      rw [hstep]
      exact .nothing fun h => h
    | true => exact turn_opens rfl (fun h => h) (hi rfl)
  | underlyingAccepted => exact turn_opens rfl (fun h => h) hi

/-! ### What a turn keeps -/

/-- Every operation stays in one place: a turn takes one from where it is and puts it somewhere else,
    and a new operation has the next number. -/
theorem Inv.numbers_of_turn (h : l.Inv) {i : Closer.Input} {l' : CloseLog role pb}
    (hturn : Turn l i l') (n : Nat) :
    l'.places n = (List.range l'.closer.started).count n := by
  have hn := h.numbers n
  -- each turn moves one close from one place to the next
  cases hturn with
  | nothing => exact hn
  | opens => exact hn
  | starts =>
    simp only [places_eq, List.range_succ, List.map_append, List.map_cons, List.map_nil,
      List.count_append] at hn ⊢
    omega
  | closes hsplit =>
    simp only [places_eq, hsplit, List.map_append, List.map_cons, List.map_nil,
      List.count_append, List.count_cons, List.count_nil] at hn ⊢
    omega
  | waits hsplit =>
    simp only [places_eq, hsplit, IocQueue.post, List.map_append, List.map_cons, List.map_nil,
      List.count_append, List.count_cons, List.count_nil] at hn ⊢
    omega
  | ends hsplit =>
    simp only [places_eq, hsplit, List.map_append, List.map_cons, List.count_append,
      List.count_cons, List.count_nil] at hn ⊢
    omega
  | notifies hsplit =>
    simp only [places_eq, hsplit, List.map_append, List.map_cons, List.map_nil,
      List.count_append, List.count_cons, List.count_nil] at hn ⊢
    omega
  | hands _ hqueue =>
    simp only [places_eq, hqueue, List.map_append, List.map_cons, List.map_nil,
      List.count_append, List.count_cons, List.count_nil] at hn ⊢
    omega
  | polled hpolling hqueue hq =>
    simp only [places_eq, hpolling, hqueue, hq, List.map_cons, List.count_append,
      List.count_cons, List.count_nil] at hn ⊢
    omega

/-- A turn keeps the invariant: one case for each branch of `close_op` and for each end of a turn of
    the poll. -/
theorem Inv.of_turn (h : l.Inv) {i : Closer.Input} {l' : CloseLog role pb} (hturn : Turn l i l') :
    l'.Inv := by
  have hnumbers := h.numbers_of_turn hturn
  cases hturn with
  | nothing => exact h
  | opens _ hclosing hpolling =>
    -- nobody closes and nobody is to be told, so the stream is as at the start
    exact {
      numbers := hnumbers
      dispatched := h.dispatched
      queued := h.queued
      streamClosing := h.streamClosing
      closing := congrArg List.length (h.streamClosing_eq_nil hclosing)
      polling := fun hne => absurd hpolling hne
      waiting := fun hne => absurd (h.handlers_eq_nil hclosing hpolling) hne
      notified := h.notified }
  | starts =>
    -- a new operation is dispatched
    refine { h with numbers := hnumbers, dispatched := fun op hop => ?_ }
    rcases List.mem_append.mp hop with hop | hop
    · exact h.dispatched op hop
    · obtain rfl := List.mem_singleton.mp hop
      rfl
  | closes hsplit hopen =>
    -- the first to close waits for the stream, and it is the only one that does
    have hnil := h.streamClosing_eq_nil (by simp [hopen])
    refine { h with
      numbers := hnumbers, dispatched := ?_, streamClosing := ?_, closing := ?_, polling := ?_
      waiting := ?_ }
    · exact fun op hop => h.dispatched op (mem_of_split hsplit hop)
    · simp [hnil]
    · simp [hnil]
    · intro hne
      exact absurd (h.polling hne) (by simp [hopen])
    · exact fun _ => .inl rfl
  | waits hsplit hclosing =>
    -- somebody else closes, so that this one is put into the queue
    refine { h with numbers := hnumbers, dispatched := ?_, queued := ?_, waiting := ?_ }
    · exact fun op hop => h.dispatched op (mem_of_split hsplit hop)
    · intro op hop
      rcases List.mem_append.mp hop with hop | hop
      · exact h.queued op hop
      · -- the operation that waits was dispatched before
        obtain rfl := List.mem_singleton.mp hop
        exact h.dispatched _ (by simp [hsplit])
    · exact fun _ => .inl hclosing
  | ends hsplit hclosed =>
    -- there is nothing to close any more
    exact { h with
      numbers := hnumbers
      dispatched := fun op hop => h.dispatched op (mem_of_split hsplit hop) }
  -- the stream has been closed: the queue is to be polled
  | notifies hsplit hclosing hclosed =>
    refine { h with
      numbers := hnumbers, streamClosing := ?_, closing := ?_, polling := ?_, waiting := ?_
      notified := ?_ }
    · exact fun op hop => h.streamClosing op (mem_of_split hsplit hop)
    · -- it was the only one that waited for the stream
      have hlength := h.closing
      rw [if_pos hclosing, hsplit, List.length_append, List.length_cons] at hlength
      rw [if_neg (by simp [hclosed]), List.length_append]
      omega
    · exact fun _ => hclosed
    · exact fun _ => .inr (by simp)
    · exact congrArg (· + 1) h.notified
  | hands hpolling hqueue =>
    -- the first of the queue gets its turn
    refine { h with numbers := hnumbers, dispatched := ?_, queued := ?_, waiting := ?_ }
    · intro op hop
      rcases List.mem_append.mp hop with hop | hop
      · exact h.dispatched op hop
      · obtain rfl := List.mem_singleton.mp hop
        exact h.queued _ (by simp [hqueue])
    · exact fun op hop => h.queued op (by simp [hqueue, hop])
    · exact fun _ => .inr (by simp [hpolling])
  | polled hpolling hqueue hq =>
    -- nothing is left in the queue, so the poll is over
    refine { h with numbers := hnumbers, queued := ?_, polling := ?_, waiting := ?_ }
    · exact fun op hop => by simp [hq] at hop
    · exact fun _ => h.polling (by simp [hpolling])
    · exact fun hne => absurd hq hne

/-- An operation completes on a closed endpoint only. -/
theorem Inv.completed_of_turn (h : l.Inv) {i : Closer.Input} {l' : CloseLog role pb}
    (hturn : Turn l i l') : l'.completed = l.completed ∨ l'.closer.ep.status = .closed := by
  cases hturn with
  | ends hsplit hclosed => exact .inr hclosed
  | polled hpolling hqueue hq => exact .inr (h.polling (by simp [hpolling]))
  | _ => exact .inl rfl

/-- Whatever the executor does, there is less left to do. -/
theorem Inv.work_of_turn (h : l.Inv) {i : Closer.Input} {l' : CloseLog role pb}
    (hturn : Turn l i l') (hi : l.closer.Enabled i) : l'.closer.work < l.closer.work := by
  -- a turn that was due moves a close nearer to its end
  cases hturn with
  | nothing hnot => exact absurd hi hnot
  | opens hnot => exact absurd hi hnot
  | starts => exact hi.elim
  | closes hsplit hopen =>
    simp only [Closer.work, hopen, hsplit, List.length_append, List.length_cons, List.length_nil]
    omega
  | waits hsplit hclosing =>
    simp only [Closer.work, hclosing, hsplit, IocQueue.post, List.length_append, List.length_cons,
      List.length_nil]
    omega
  | ends hsplit hclosed =>
    simp only [Closer.work, hclosed, hsplit, List.length_append, List.length_cons]
    omega
  | notifies hsplit hclosing hclosed =>
    simp only [Closer.work, hclosing, hclosed, hsplit, List.length_append, List.length_cons,
      List.length_nil]
    omega
  | hands hpolling hqueue =>
    have hclosed := h.polling (by simp [hpolling])
    simp only [Closer.work, hclosed, hqueue, List.length_append, List.length_cons, List.length_nil]
    omega
  | polled hpolling hqueue hq =>
    have hclosed := h.polling (by simp [hpolling])
    simp only [Closer.work, hclosed, hpolling, hqueue, hq, List.length_cons]
    omega

/-- When nothing is left to do, every operation has completed. -/
theorem Inv.completed_of_idle (h : l.Inv) (hidle : l.closer.Idle) :
    l.completed.Perm (List.range l.closer.started) := by
  have hdispatched : l.closer.dispatched = [] := by
    by_contra hne
    exact hidle (.run 0) (List.length_pos_iff.mpr hne)
  have hstream : l.closer.streamClosing = [] := by
    by_contra hne
    exact hidle (.streamClosed 0) (List.length_pos_iff.mpr hne)
  have hpolling : l.closer.polling = [] := by
    by_contra hne
    exact hidle .poll hne
  have hclosing : l.closer.ep.status ≠ .closing := by
    intro hclosing
    have hlength := h.closing
    rw [if_pos hclosing, hstream] at hlength
    exact nomatch hlength
  have hqueue := h.handlers_eq_nil hclosing hpolling
  have hpending : l.closer.pending = [] := by
    rw [Closer.pending, hdispatched, hstream, hqueue, hpolling]
    rfl
  have hperm := h.numbers_perm
  rwa [hpending] at hperm

/-- Every step keeps the invariant. -/
theorem Inv.step (h : l.Inv) {i : Closer.Input} (hi : l.closer.Undisturbed i) :
    (l.step i).Inv :=
  h.of_turn (h.turn hi)

/-- A step that can be taken disturbs nothing. -/
theorem undisturbed_of_enabled {c : Closer role pb} {i : Closer.Input} (hi : c.Enabled i) :
    c.Undisturbed i := by
  cases i with
  | handshake ok => exact hi.elim
  | underlyingAccepted => exact hi.elim
  | _ => trivial

/-- Without new calls the executor comes to an end. -/
theorem Inv.ends (h : l.Inv) {is : List Closer.Input}
    (his : Run.All CloseLog.step (fun l i => l.closer.Enabled i) l is) :
    is.length ≤ l.closer.work := by
  induction is generalizing l with
  | nil => exact Nat.zero_le _
  | cons i is ih =>
    obtain ⟨hi, his⟩ := Run.all_cons.mp his
    have hturn := h.turn (undisturbed_of_enabled hi)
    have hlt := h.work_of_turn hturn hi
    have hle := ih (h.of_turn hturn) his
    rw [List.length_cons]
    omega

/-- A close completes with the endpoint closed. -/
theorem Inv.completesClosed (h : l.Inv) {i : Closer.Input} (hi : l.closer.Undisturbed i) :
    l.CompletesClosed i := by
  intro hne
  rcases h.completed_of_turn (h.turn hi) with hsame | hclosed
  · exact absurd (List.append_right_eq_self.mp hsame) hne
  · exact hclosed

/-- A close completes at most once. -/
theorem Inv.closesOnce (h : l.Inv) : l.ClosesOnce where
  notified := h.notified
  atMostOnce := h.atMostOnce
  queue hclosed hpolling := h.handlers_eq_nil (by simp [hclosed]) hpolling
  ends _ := h.ends
  completed := h.completed_of_idle

/-- However the operations that close an endpoint are started and run, the packets of the
    connection are released once for each time that it is closed, and each operation completes
    once, on the closed endpoint. -/
theorem closes_once (ver : ProtocolVersion) (is : List Closer.Input)
    (his : Run.All step (fun l i => l.closer.Undisturbed i) (make role pb ver) is) :
    (Run.final step (make role pb ver) is).ClosesOnce ∧
      Run.All step CompletesClosed (make role pb ver) is := by
  constructor
  · have hinv : (Run.final step (make role pb ver) is).Inv :=
      Run.final_invariant (fun l i hi h => h.step hi) (inv_make ver) his
    exact hinv.closesOnce
  · intro j i hj
    have hinv : (Run.final step (make role pb ver) (is.take j)).Inv :=
      Run.final_invariant (fun l i hi h => h.step hi) (inv_make ver) (his.take j)
    exact hinv.completesClosed (his j i hj)

/-- Two operations close an endpoint that was accepted. -/
theorem closes_once_of_two :
    (Run.final step (make .server .two .v5)
        [.underlyingAccepted, .asyncClose, .asyncClose, .run 0, .run 0, .streamClosed 0, .poll,
          .run 0, .poll]).completed = [1, 0] ∧
      (Run.final step (make .server .two .v5)
        [.underlyingAccepted, .asyncClose, .asyncClose, .run 0, .run 0, .streamClosed 0, .poll,
          .run 0, .poll]).ClosesOnce :=
  ⟨by decide +kernel, (closes_once .v5 _ (by
    repeat' first | exact Run.all_nil | refine Run.all_cons.mpr ⟨?_, ?_⟩
    all_goals trivial)).1⟩

end CloseLog

end AsyncMqtt
