import AsyncMqtt.ForStd.Run
import AsyncMqtt.Native.AcquireWaitUntil
import AsyncMqtt.Spec.PacketIdCorrect

/-!
# Those who wait for a packet identifier

Operations that wait for an identifier get one in the order in which they began, are aborted
only when the application cancels them, and none waits while an identifier is free. For this
each released identifier has to wake one of them, which then has to find it.

An identifier that is given back by `release_packet_id`, or because a write has failed, wakes
nobody. One that is released when all who wait are woken already is left for the next operation,
which lines up behind them instead. And one shared flag tells a timer that was cancelled on
purpose from one that was cancelled to wake an operation: if the application cancels an
operation after an identifier was released, then the one at the front leaves the queue for it.

## Key results

- `AcquireLog.waiters_served`: what holds in runs without these
- `AcquireLog.waiter_forgotten`, `AcquireLog.waiter_not_notified`: an operation that waits while an
  identifier is free
- `AcquireLog.waiter_displaced`: an operation that loses its place to one that was cancelled
-/

namespace AsyncMqtt

/-- The state of those who wait, with the operations that the application has cancelled and
    the completions. -/
structure AcquireLog (pb : PacketIdBytes) where
  wait : AcquireWait pb
  cancelled : List Nat
  completed : List AcquireCompletion
  deriving DecidableEq

namespace AcquireWait

variable {pb : PacketIdBytes}

/-- The operation that the application cancels with this input. -/
def cancels : Input pb → List Nat
  | .cancel op => [op]
  | _ => []

/-- How many of those who wait have been woken. -/
def woken (w : AcquireWait pb) : Nat := w.timRetryAcqPidQueue.countP (·.cancelled)

/-- All who wait have been woken. -/
def allWoken (w : AcquireWait pb) : Bool := w.timRetryAcqPidQueue.all (·.cancelled)

/-- An operation of this timer that gets on finds its own timer at the front, which was
    cancelled to wake it or is the only one. -/
def atFront (w : AcquireWait pb) (tim : RetryTimer) : Bool :=
  match w.timRetryAcqPidQueue with
  | [] => false
  | e :: es => e.tim = tim && (e.cancelled || es.isEmpty)

end AcquireWait

namespace AcquireLog

variable {pb : PacketIdBytes}

/-- A new endpoint. -/
def make (pb : PacketIdBytes) : AcquireLog pb := ⟨.make pb, [], []⟩

/-- The effect of an input. -/
def step (l : AcquireLog pb) (i : AcquireWait.Input pb) : AcquireLog pb :=
  ⟨(l.wait.call i).1, l.cancelled ++ AcquireWait.cancels i, l.completed ++ (l.wait.call i).2⟩

/-- An operation that is aborted was cancelled by the application. One that gets an identifier
    is the first of those that have not completed. If no handler is posted and somebody waits,
    then no identifier is free. -/
structure Served (l : AcquireLog pb) : Prop where
  dismissed : ∀ op, ⟨op, none⟩ ∈ l.completed → op ∈ l.cancelled
  inOrder : ∀ op packetId, ⟨op, some packetId⟩ ∈ l.completed →
    ∀ op' < op, ∃ r, ⟨op', r⟩ ∈ l.completed
  woken : l.wait.handlers = [] → l.wait.timRetryAcqPidQueue ≠ [] →
    ∀ packetId, packetId ∉ l.wait.pidMan.pool

/-- The largest four-byte identifier is not acquired. An operation does not line up behind
    others that have all been woken while there is an identifier for it, and others do not take
    an identifier for which one was woken. An identifier is not given back without notice, or with
    a notice that comes later, while somebody waits that was not woken. And an operation that was cancelled by the application
    is not taken for one that was woken, unless that makes no difference. -/
def Orderly (l : AcquireLog pb) : AcquireWait.Input pb → Prop
  | .acquireUniquePacketIdWaitUntil => ¬ l.wait.pidMan.Wraps ∧
    (l.wait.hasRetry → l.wait.pidMan.pool.count ≤ l.wait.woken)
  | .acquireUniquePacketId => ¬ l.wait.pidMan.Wraps ∧
    (l.wait.pidMan.pool.count = 0 ∨ l.wait.woken < l.wait.pidMan.pool.count)
  | .registerPacketId packetId => l.wait.pidMan.isUsedId packetId ∨ ¬ l.wait.pidMan.Wraps ∧
    l.wait.woken < l.wait.pidMan.pool.count
  | .releasePacketId packetId => l.wait.pidMan.isUsedId packetId → l.wait.allWoken
  | .notifyReleasePid => l.wait.allWoken
  | .clear => l.wait.allWoken ∧ l.wait.woken ≤ l.wait.pidMan.clear.pool.count
  | .handler => ¬ l.wait.pidMan.Wraps ∧ ∀ tim ∈ l.wait.handlers.head?,
    tim.op ∈ l.cancelled → l.wait.packetIdReleased → l.wait.atFront tim
  | _ => True

/-- Whether an input is in order can be decided. -/
instance (l : AcquireLog pb) : (i : AcquireWait.Input pb) → Decidable (l.Orderly i)
  | .acquireUniquePacketIdWaitUntil | .acquireUniquePacketId | .clear =>
    inferInstanceAs (Decidable (_ ∧ _))
  | .releasePacketId _ => inferInstanceAs (Decidable (_ → _))
  | .registerPacketId _ => inferInstanceAs (Decidable (_ ∨ _))
  | .notifyReleasePid => inferInstanceAs (Decidable (_ = true))
  | .handler =>
    inferInstanceAs (Decidable (_ ∧ ∀ tim ∈ l.wait.handlers.head?, _ → _ → _))
  | .cancel _ | .packetIdReleased _ => inferInstanceAs (Decidable True)

/-- What holds of the queue in an orderly run. The queue begins with those that have been woken.
    There is an identifier for each of them, and no other one if somebody else waits. -/
structure Lined (l : AcquireLog pb) (ms us : List TimCancelled) : Prop where
  queue : l.wait.timRetryAcqPidQueue = ms ++ us
  marked : ∀ e ∈ ms, e.cancelled = true
  unmarked : ∀ e ∈ us, e.cancelled = false
  released : ms ≠ [] → l.wait.packetIdReleased = true
  enough : ms.length ≤ l.wait.pidMan.pool.count
  exact : us ≠ [] → l.wait.pidMan.pool.count = ms.length
  posted : ∀ e ∈ ms, e.tim ∈ l.wait.handlers

/-- What holds in an orderly run. -/
structure Inv (l : AcquireLog pb) : Prop where
  lined : ∃ ms us, l.Lined ms us
  range : ∀ v ∈ l.wait.pidMan.pool, v < pb.limit
  highest : l.wait.pidMan.highest < pb.limit
  /-- Operations and timers stand in the queue in the order of their numbers. -/
  ops : (l.wait.timRetryAcqPidQueue.map (·.tim.op)).Pairwise (· < ·)
  timers : (l.wait.timRetryAcqPidQueue.map (·.tim.number)).Pairwise (· < ·)
  opsBelow : ∀ e ∈ l.wait.timRetryAcqPidQueue, e.tim.op < l.wait.ops
  timersBelow : ∀ e ∈ l.wait.timRetryAcqPidQueue, e.tim.number < l.wait.timers
  /-- An operation that has begun has completed or waits. -/
  begun : ∀ op < l.wait.ops, (∃ r, ⟨op, r⟩ ∈ l.completed) ∨
    ∃ e ∈ l.wait.timRetryAcqPidQueue, e.tim.op = op
  /-- The timers that are waited for and those whose handler is posted are those of the queue. -/
  timersPerm : (l.wait.waiting ++ l.wait.handlers).Perm (l.wait.timRetryAcqPidQueue.map (·.tim))
  /-- Whoever was woken comes after all that are before it in the queue. -/
  order : ∀ before tim after, l.wait.handlers = before ++ tim :: after → tim.op ∉ l.cancelled →
    ∃ front rest, l.wait.timRetryAcqPidQueue.map (·.tim) = front ++ tim :: rest ∧
      ∀ t ∈ front, t ∈ before
  woken : ∀ e ∈ l.wait.timRetryAcqPidQueue, e.tim ∈ l.wait.handlers → e.tim.op ∉ l.cancelled →
    e.cancelled = true
  dismissed : ∀ op, ⟨op, none⟩ ∈ l.completed → op ∈ l.cancelled
  inOrder : ∀ op packetId, ⟨op, some packetId⟩ ∈ l.completed →
    ∀ op' < op, ∃ r, ⟨op', r⟩ ∈ l.completed

/-- In the beginning nobody waits. -/
theorem inv_make (pb : PacketIdBytes) : (make pb).Inv := by
  have hpool : ∀ v, v ∈ (make pb).wait.pidMan.pool → v < pb.limit := by
    intro v hv
    have hle := ((IntervalPool.mem_singleton (by cases pb <;> decide)).mp hv).2
    have hpos : 0 < pb.limit := by cases pb <;> decide
    omega
  refine ⟨⟨[], [], rfl, nofun, nofun, nofun, Nat.zero_le _, nofun, nofun⟩, hpool, ?_,
    List.Pairwise.nil, List.Pairwise.nil, nofun, nofun, nofun, List.Perm.nil, ?_, nofun, nofun,
    nofun⟩
  · cases pb <;> decide
  · intro before tim after h
    exact nomatch (List.append_eq_nil_iff.mp h.symm).2

section

variable {l : AcquireLog pb}

/-- The timers in front are those that were woken. -/
theorem Lined.woken_eq {ms us : List TimCancelled} (h : l.Lined ms us) :
    l.wait.woken = ms.length := by
  rw [AcquireWait.woken, h.queue, List.countP_append, List.countP_eq_length.mpr h.marked,
    List.countP_eq_zero.mpr fun e he => by simp [h.unmarked e he], Nat.add_zero]

/-- If all have been woken, there is nobody else. -/
theorem Lined.unmarked_nil {ms us : List TimCancelled} (h : l.Lined ms us)
    (hall : l.wait.allWoken) : us = [] := by
  refine List.eq_nil_iff_forall_not_mem.mpr fun e he => ?_
  rw [AcquireWait.allWoken, h.queue, List.all_eq_true] at hall
  exact Bool.false_ne_true ((h.unmarked e he).symm.trans (hall e (List.mem_append_right ms he)))

/-- The timers in the queue differ. -/
theorem Inv.nodup (h : l.Inv) : (l.wait.timRetryAcqPidQueue.map (·.tim)).Nodup := by
  have hnumbers : (l.wait.timRetryAcqPidQueue.map (·.tim.number)).Nodup :=
    h.timers.imp Nat.ne_of_lt
  rw [show (·.tim.number) = RetryTimer.number ∘ TimCancelled.tim from rfl, ← List.map_map]
    at hnumbers
  exact hnumbers.of_map _

/-- A timer that waits is in the queue. -/
theorem Inv.mem_queue (h : l.Inv) {tim : RetryTimer}
    (htim : tim ∈ l.wait.waiting ++ l.wait.handlers) :
    ∃ e ∈ l.wait.timRetryAcqPidQueue, e.tim = tim :=
  List.mem_map.mp (h.timersPerm.mem_iff.mp htim)

/-- What the invariant says about those who wait. -/
theorem Inv.served (h : l.Inv) : l.Served := by
  refine ⟨h.dismissed, h.inOrder, fun hnone hqueue => ?_⟩
  obtain ⟨ms, us, hl⟩ := h.lined
  have hms : ms = [] := by
    refine List.eq_nil_iff_forall_not_mem.mpr fun e he => ?_
    have hposted := hl.posted e he
    rw [hnone] at hposted
    exact nomatch hposted
  subst hms
  have hus : us ≠ [] := fun hus => hqueue (by rw [hl.queue, hus]; rfl)
  exact IntervalPool.count_eq_zero.mp (hl.exact hus)

/-! ### Identifiers come and go -/

/-- Only the identifiers change. -/
theorem Inv.pidMan (h : l.Inv) {m : PacketIdManager pb} (hrange : ∀ v ∈ m.pool, v < pb.limit)
    (hhighest : m.highest = l.wait.pidMan.highest)
    (hcount : ∀ ms us, l.Lined ms us →
      ms.length ≤ m.pool.count ∧ (us ≠ [] → m.pool.count = ms.length)) :
    ({ l with wait := { l.wait with pidMan := m } } : AcquireLog pb).Inv := by
  obtain ⟨ms, us, hl⟩ := h.lined
  obtain ⟨henough, hexact⟩ := hcount ms us hl
  exact ⟨⟨ms, us, hl.queue, hl.marked, hl.unmarked, hl.released, henough, hexact, hl.posted⟩,
    hrange, hhighest ▸ h.highest, h.ops, h.timers, h.opsBelow, h.timersBelow, h.begun,
    h.timersPerm, h.order, h.woken, h.dismissed, h.inOrder⟩

/-- A released identifier is below the limit of its width. -/
theorem range_release (h : l.Inv) (packetId : Fin pb.limit) :
    ∀ v ∈ (l.wait.pidMan.releaseId packetId).pool, v < pb.limit := by
  intro v hv
  rcases ValueAllocator.mem_deallocate hv with hv | rfl
  · exact h.range v hv
  · exact packetId.isLt

/-- Nobody has to be woken. -/
theorem Inv.releasePacketId (h : l.Inv) {packetId : Fin pb.limit}
    (hused : l.wait.pidMan.isUsedId packetId) (hall : l.wait.allWoken) :
    ({ l with wait := l.wait.releaseId packetId } : AcquireLog pb).Inv := by
  refine h.pidMan (range_release h packetId) rfl fun ms us hl => ?_
  have hcount := ValueAllocator.count_deallocate (ValueAllocator.isUsed_iff.mp hused)
  have henough := hl.enough
  refine ⟨?_, fun hus => absurd (hl.unmarked_nil hall) hus⟩
  change ms.length ≤ (l.wait.pidMan.deallocate packetId).pool.count
  omega

/-- A clear wakes every operation, if there are identifiers for all. -/
theorem Inv.clear (h : l.Inv) (hall : l.wait.allWoken)
    (hle : l.wait.woken ≤ l.wait.pidMan.clear.pool.count) :
    ({ l with wait := { l.wait with pidMan := l.wait.pidMan.clear } } : AcquireLog pb).Inv := by
  refine h.pidMan (fun v hv => ?_) rfl fun ms us hl => ?_
  · have hle := ((IntervalPool.mem_singleton l.wait.pidMan.inRange).mp hv).2
    have hhighest := h.highest
    omega
  · exact ⟨hl.woken_eq ▸ hle, fun hus => absurd (hl.unmarked_nil hall) hus⟩

/-- Somebody else takes an identifier. -/
theorem Inv.acquire (h : l.Inv) (hwraps : ¬ l.wait.pidMan.Wraps)
    (hle : l.wait.pidMan.pool.count = 0 ∨ l.wait.woken < l.wait.pidMan.pool.count) :
    ({ l with wait := { l.wait with pidMan := l.wait.pidMan.acquireUniqueId.2 } } :
      AcquireLog pb).Inv := by
  rw [PacketIdManager.acquireUniqueId]
  rcases hacq : l.wait.pidMan.allocate with ⟨packetId, m⟩
  have hhighest := ValueAllocator.highest_of_allocate hacq
  cases packetId with
  | none =>
    obtain rfl := ValueAllocator.allocate_none hacq
    exact h
  | some packetId =>
    obtain ⟨-, hsub⟩ := ValueAllocator.mem_allocate hacq h.range hwraps
    have hcount := ValueAllocator.count_allocate hacq h.range hwraps
    refine h.pidMan (fun v hv => h.range v (hsub v hv).1) hhighest fun ms us hl => ?_
    have hwoken := hl.woken_eq
    have henough := hl.enough
    refine ⟨by dsimp only; omega, fun hus => ?_⟩
    have hexact := hl.exact hus
    omega

/-- Somebody else takes an identifier of its own choice. -/
theorem Inv.registerPacketId (h : l.Inv) {packetId : Fin pb.limit}
    (hfree : l.wait.pidMan.isUsedId packetId ∨ ¬ l.wait.pidMan.Wraps ∧
      l.wait.woken < l.wait.pidMan.pool.count) :
    ({ l with wait := { l.wait with pidMan := (l.wait.pidMan.registerId packetId).2 } } :
      AcquireLog pb).Inv := by
  rw [PacketIdManager.registerId]
  by_cases hmem : (packetId : Nat) ∈ l.wait.pidMan.pool
  · obtain ⟨hwraps, hlt⟩ := hfree.resolve_left fun hused => ValueAllocator.isUsed_iff.mp hused hmem
    obtain ⟨hsub, hcount⟩ := ValueAllocator.count_use hmem h.range hwraps
    refine h.pidMan (fun v hv => h.range v (hsub v hv)) (ValueAllocator.highest_use _ _)
      fun ms us hl => ?_
    have hwoken := hl.woken_eq
    refine ⟨by omega, fun hus => ?_⟩
    have hexact := hl.exact hus
    omega
  · -- an identifier that is in use is refused, and nothing changes
    have hfst : (l.wait.pidMan.use packetId).1 = false := by
      rw [← Bool.not_eq_true, ValueAllocator.use_fst]
      exact hmem
    have hsame : (l.wait.pidMan.use packetId).2 = l.wait.pidMan :=
      (ValueAllocator.use_false (Prod.ext hfst rfl)).1
    have hcount : ∀ ms us, l.Lined ms us → ms.length ≤ l.wait.pidMan.pool.count ∧
        (us ≠ [] → l.wait.pidMan.pool.count = ms.length) := fun _ _ hl => ⟨hl.enough, hl.exact⟩
    refine h.pidMan ?_ (ValueAllocator.highest_use _ _) ?_
    · exact hsame.symm ▸ h.range
    · exact hsame.symm ▸ hcount

/-! ### The application cancels an operation -/

/-- What comes before an element of a list that has become longer. -/
theorem split_append_singleton {α : Type} {xs before after : List α} {x y : α}
    (h : xs ++ [x] = before ++ y :: after) :
    (y = x ∧ before = xs) ∨ ∃ after', xs = before ++ y :: after' := by
  rcases List.eq_nil_or_concat after with rfl | ⟨after', z, rfl⟩
  · obtain ⟨rfl, heq⟩ := List.append_inj' h rfl
    exact .inl ⟨(List.singleton_inj.mp heq).symm, rfl⟩
  · rw [List.concat_eq_append, ← List.cons_append, ← List.append_assoc] at h
    obtain ⟨rfl, -⟩ := List.append_inj' h rfl
    exact .inr ⟨after', rfl⟩

/-- More operations may have been cancelled than were. -/
theorem Inv.cancelled (h : l.Inv) (ops : List Nat) :
    ({ l with cancelled := l.cancelled ++ ops } : AcquireLog pb).Inv := by
  have hold : ∀ op, op ∉ l.cancelled ++ ops → op ∉ l.cancelled := fun op hop hmem =>
    hop (List.mem_append_left ops hmem)
  obtain ⟨ms, us, hl⟩ := h.lined
  exact ⟨⟨ms, us, hl.queue, hl.marked, hl.unmarked, hl.released, hl.enough, hl.exact, hl.posted⟩,
    h.range, h.highest, h.ops, h.timers, h.opsBelow, h.timersBelow, h.begun, h.timersPerm,
    fun before tim after heq hop => h.order before tim after heq (hold _ hop),
    fun e he hposted hop => h.woken e he hposted (hold _ hop),
    fun op hop => List.mem_append_left ops (h.dismissed op hop), h.inOrder⟩

/-- Cancelling a timer moves it to the posted handlers. -/
theorem perm_cancelTimer {w : AcquireWait pb} {tim : RetryTimer} (hmem : tim ∈ w.waiting) :
    (w.waiting.erase tim ++ (w.handlers ++ [tim])).Perm (w.waiting ++ w.handlers) := by
  rw [← List.append_assoc]
  refine (List.perm_append_singleton tim _).trans ?_
  exact (List.perm_cons_erase hmem).symm.append_right w.handlers

/-- The timer of an operation that the application cancels. -/
theorem Inv.cancelTimer (h : l.Inv) {tim : RetryTimer} (hmem : tim ∈ l.wait.waiting)
    (hop : tim.op ∈ l.cancelled) :
    ({ l with wait := l.wait.cancelTimer tim } : AcquireLog pb).Inv := by
  rw [AcquireWait.cancelTimer, if_pos hmem]
  obtain ⟨ms, us, hl⟩ := h.lined
  refine ⟨⟨ms, us, hl.queue, hl.marked, hl.unmarked, hl.released, hl.enough, hl.exact, ?_⟩,
    h.range, h.highest, h.ops, h.timers, h.opsBelow, h.timersBelow, h.begun,
    (perm_cancelTimer hmem).trans h.timersPerm, ?_, ?_, h.dismissed, h.inOrder⟩
  · exact fun e he => List.mem_append_left [tim] (hl.posted e he)
  · intro before tim' after heq hop'
    rcases split_append_singleton heq with ⟨rfl, -⟩ | ⟨after', heq⟩
    · exact absurd hop hop'
    · exact h.order before tim' after' heq hop'
  · intro e he hposted hop'
    rcases List.mem_append.mp hposted with hposted | htim
    · exact h.woken e he hposted hop'
    · exact absurd (List.mem_singleton.mp htim ▸ hop) hop'

/-! ### An operation is woken -/

/-- The timers that were marked are passed over. -/
theorem markOne_of_marked {ms us : List TimCancelled} (h : ∀ e ∈ ms, e.cancelled = true) :
    AcquireWait.markOne (ms ++ us) =
      ((AcquireWait.markOne us).1, ms ++ (AcquireWait.markOne us).2) := by
  induction ms with
  | nil => rfl
  | cons e ms ih =>
    obtain ⟨he, hms⟩ := List.forall_mem_cons.mp h
    rw [List.cons_append, AcquireWait.markOne, if_pos he, ih hms]
    rfl

/-- Timers of a queue that has the same timers. -/
theorem exists_tim {es es' : List TimCancelled} (h : es'.map (·.tim) = es.map (·.tim))
    {e : TimCancelled} (he : e ∈ es') : ∃ e' ∈ es, e'.tim = e.tim := by
  have hmem : e.tim ∈ es.map (·.tim) := h ▸ List.mem_map_of_mem he
  exact List.mem_map.mp hmem

/-- The first of those that have not been woken is woken; its handler is posted if the
    application has not cancelled it before. -/
theorem Inv.wake (h : l.Inv) {ms us : List TimCancelled} {u : TimCancelled}
    (hl : l.Lined ms (u :: us)) {m : PacketIdManager pb} (hrange : ∀ v ∈ m.pool, v < pb.limit)
    (hhighest : m.highest = l.wait.pidMan.highest)
    (hcount : m.pool.count = l.wait.pidMan.pool.count + 1) {waiting handlers : List RetryTimer}
    (hperm : (waiting ++ handlers).Perm (l.wait.waiting ++ l.wait.handlers))
    (hhandlers : handlers = l.wait.handlers ++ [u.tim] ∨
      handlers = l.wait.handlers ∧ u.tim ∈ l.wait.handlers) :
    ({ l with wait := { l.wait with
        pidMan := m, packetIdReleased := true, waiting, handlers
        timRetryAcqPidQueue := ms ++ { u with cancelled := true } :: us } } :
      AcquireLog pb).Inv := by
  -- the timers in the queue, and their order, stay the same
  have hsame : (ms ++ { u with cancelled := true } :: us).map (·.tim) =
      l.wait.timRetryAcqPidQueue.map (·.tim) := by
    rw [hl.queue]
    simp
  have hposted : ∀ tim ∈ l.wait.handlers, tim ∈ handlers := by
    intro tim htim
    rcases hhandlers with heq | ⟨heq, -⟩
    · rw [heq]
      exact List.mem_append_left _ htim
    · rw [heq]
      exact htim
  have hu : u.tim ∈ handlers := by
    rcases hhandlers with heq | ⟨heq, hmem⟩
    · rw [heq]
      exact List.mem_append_right _ List.mem_cons_self
    · rw [heq]
      exact hmem
  -- as one was not woken before, the free identifiers were exactly those of the woken ones
  have hexact := hl.exact (List.cons_ne_nil u us)
  refine ⟨⟨ms ++ [{ u with cancelled := true }], us, ?_, ?_, ?_, ?_, ?_, ?_, ?_⟩, hrange,
    hhighest ▸ h.highest, ?_, ?_, ?_, ?_, ?_, ?_, ?_, ?_, h.dismissed, h.inOrder⟩
  · exact (List.append_assoc ms [_] us).symm
  · intro e he
    rcases List.mem_append.mp he with he | he
    · exact hl.marked e he
    · rw [List.mem_singleton.mp he]
  · exact fun e he => hl.unmarked e (List.mem_cons_of_mem u he)
  · exact fun _ => rfl
  · rw [List.length_append, List.length_singleton]
    dsimp only
    omega
  · intro _
    rw [List.length_append, List.length_singleton]
    dsimp only
    omega
  · intro e he
    rcases List.mem_append.mp he with he | he
    · exact hposted _ (hl.posted e he)
    · rw [List.mem_singleton.mp he]
      exact hu
  -- the order of the queue and the bounds of its numbers are about the timers only
  · have hops := h.ops
    rw [show (·.tim.op) = RetryTimer.op ∘ TimCancelled.tim from rfl, ← List.map_map] at hops ⊢
    exact hsame ▸ hops
  · have htimers := h.timers
    rw [show (·.tim.number) = RetryTimer.number ∘ TimCancelled.tim from rfl, ← List.map_map]
      at htimers ⊢
    exact hsame ▸ htimers
  · intro e he
    obtain ⟨e', he', htim⟩ := exists_tim hsame he
    exact htim ▸ h.opsBelow e' he'
  · intro e he
    obtain ⟨e', he', htim⟩ := exists_tim hsame he
    exact htim ▸ h.timersBelow e' he'
  · intro op hop
    refine (h.begun op hop).imp_right ?_
    rintro ⟨e, he, rfl⟩
    obtain ⟨e', he', htim⟩ := exists_tim hsame.symm he
    exact ⟨e', he', by rw [htim]⟩
  · exact hsame ▸ hperm.trans h.timersPerm
  -- whoever was woken before it in the queue has been woken earlier
  · intro before tim after heq hop
    dsimp only at heq ⊢
    rw [hsame]
    rcases hhandlers with hnew | ⟨hold, -⟩
    · rcases split_append_singleton (hnew.symm.trans heq) with ⟨rfl, rfl⟩ | ⟨after', heq⟩
      · refine ⟨ms.map (·.tim), us.map (·.tim), by rw [hl.queue]; simp, fun t ht => ?_⟩
        obtain ⟨e, he, rfl⟩ := List.mem_map.mp ht
        exact hl.posted e he
      · exact h.order before tim after' heq hop
    · exact h.order before tim after (hold.symm.trans heq) hop
  -- a timer of the queue is there once, so another one that is posted was posted before
  · intro e he htim hop
    rcases List.mem_append.mp he with he | he
    · exact hl.marked e he
    · rcases List.mem_cons.mp he with rfl | he
      · rfl
      · have hne : e.tim ≠ u.tim := by
          have hnodup := h.nodup
          rw [hl.queue, List.map_append, List.map_cons] at hnodup
          have htail := (List.nodup_append.mp hnodup).2.1
          exact fun heq => (List.nodup_cons.mp htail).1 (heq ▸ List.mem_map_of_mem he)
        have hmem : e ∈ l.wait.timRetryAcqPidQueue := by
          rw [hl.queue]
          exact List.mem_append_right ms (List.mem_cons_of_mem u he)
        refine h.woken e hmem ?_ hop
        rcases hhandlers with heq | ⟨heq, -⟩
        · rw [heq] at htim
          exact (List.mem_append.mp htim).resolve_right fun hsingle =>
            hne (List.mem_singleton.mp hsingle)
        · exact heq ▸ htim

/-- The flag may be set at any time. -/
theorem Inv.setReleased (h : l.Inv) :
    ({ l with wait := { l.wait with packetIdReleased := true } } : AcquireLog pb).Inv := by
  obtain ⟨ms, us, hl⟩ := h.lined
  exact ⟨⟨ms, us, hl.queue, hl.marked, hl.unmarked, fun _ => rfl, hl.enough, hl.exact, hl.posted⟩,
    h.range, h.highest, h.ops, h.timers, h.opsBelow, h.timersBelow, h.begun, h.timersPerm, h.order,
    h.woken, h.dismissed, h.inOrder⟩

/-- A notice that comes when all have been woken wakes nobody. -/
theorem Inv.notifyReleasePid (h : l.Inv) (hall : l.wait.allWoken) :
    ({ l with wait := l.wait.notifyReleasePid } : AcquireLog pb).Inv := by
  obtain ⟨ms, us, hl⟩ := h.lined
  obtain rfl := hl.unmarked_nil hall
  have hmark : AcquireWait.markOne (ms ++ []) = (none, ms ++ []) := markOne_of_marked hl.marked
  rw [← hl.queue] at hmark
  simp only [AcquireWait.notifyReleasePid, AcquireWait.notifyRetryOne, hmark]
  exact h.setReleased

/-- An identifier that is released wakes one of those who wait. -/
theorem Inv.packetIdReleased (h : l.Inv) {packetId : Fin pb.limit}
    (hused : l.wait.pidMan.isUsedId packetId) :
    ({ l with wait := (l.wait.releaseId packetId).notifyReleasePid } : AcquireLog pb).Inv := by
  obtain ⟨ms, us, hl⟩ := h.lined
  have hrange := range_release h packetId
  have hcount := ValueAllocator.count_deallocate (ValueAllocator.isUsed_iff.mp hused)
  have hmark : AcquireWait.markOne (ms ++ us) =
      ((AcquireWait.markOne us).1, ms ++ (AcquireWait.markOne us).2) := markOne_of_marked hl.marked
  rw [← hl.queue] at hmark
  simp only [AcquireWait.notifyReleasePid, AcquireWait.notifyRetryOne, AcquireWait.releaseId, hmark]
  -- nobody is left to wake, or the first unmarked waiter is marked
  cases us with
  | nil =>
    have hqueue : ms ++ (AcquireWait.markOne []).2 = l.wait.timRetryAcqPidQueue := hl.queue.symm
    rw [hqueue]
    refine Inv.setReleased (h.releasePacketId hused ?_)
    rw [AcquireWait.allWoken, hl.queue, List.append_nil]
    exact List.all_eq_true.mpr hl.marked
  | cons u us =>
    have hu : u.cancelled = false := hl.unmarked u List.mem_cons_self
    have hcons : AcquireWait.markOne (u :: us) = (some u.tim, { u with cancelled := true } :: us) := by
      simp [AcquireWait.markOne, hu]
    rw [hcons]
    dsimp only
    rw [AcquireWait.cancelTimer]
    -- its timer may still be waiting, or its handler is queued already
    by_cases hmem : u.tim ∈ l.wait.waiting
    · rw [if_pos (by exact hmem)]
      exact h.wake hl hrange rfl hcount (perm_cancelTimer hmem) (.inl rfl)
    · rw [if_neg (by exact hmem)]
      refine h.wake hl hrange rfl hcount (List.Perm.refl _) (.inr ⟨rfl, ?_⟩)
      have hqueue : u.tim ∈ l.wait.timRetryAcqPidQueue.map (·.tim) := by
        rw [hl.queue]
        simp
      exact (List.mem_append.mp (h.timersPerm.mem_iff.mpr hqueue)).resolve_left hmem

/-! ### An operation begins -/

/-- An operation that begins lines up behind the others if there is no identifier for it. -/
theorem Inv.lineUp (h : l.Inv) {released : Bool}
    (hreleased : ∀ ms us, l.Lined ms us → ms ≠ [] → released = true)
    (hfree : ∀ ms us, l.Lined ms us → l.wait.pidMan.pool.count = ms.length) :
    ({ l with wait := ({ l.wait with ops := l.wait.ops + 1, packetIdReleased := released } :
      AcquireWait pb).addRetry l.wait.ops } : AcquireLog pb).Inv := by
  obtain ⟨ms, us, hl⟩ := h.lined
  have hcount := hfree ms us hl
  -- the new operation stands behind the others, and it has not been woken
  refine ⟨⟨ms, us ++ [⟨⟨l.wait.timers, l.wait.ops⟩, false⟩], ?_, hl.marked, ?_, hreleased ms us hl,
    hl.enough, fun _ => hcount, hl.posted⟩, h.range, h.highest, ?_, ?_, ?_, ?_, ?_, ?_, ?_, ?_,
    h.dismissed, h.inOrder⟩
  · exact (congrArg (· ++ _) hl.queue).trans (List.append_assoc ms us _)
  · intro e he
    rcases List.mem_append.mp he with he | he
    · exact hl.unmarked e he
    · rw [List.mem_singleton.mp he]
  -- its number is above all that are in the queue
  · rw [AcquireWait.addRetry, List.map_append]
    refine List.pairwise_append.mpr ⟨h.ops, List.pairwise_singleton _ _, ?_⟩
    rintro _ hold _ hnew
    obtain ⟨e, he, rfl⟩ := List.mem_map.mp hold
    rw [List.mem_singleton.mp hnew]
    exact h.opsBelow e he
  · rw [AcquireWait.addRetry, List.map_append]
    refine List.pairwise_append.mpr ⟨h.timers, List.pairwise_singleton _ _, ?_⟩
    rintro _ hold _ hnew
    obtain ⟨e, he, rfl⟩ := List.mem_map.mp hold
    rw [List.mem_singleton.mp hnew]
    exact h.timersBelow e he
  · intro e he
    rcases List.mem_append.mp he with he | he
    · exact Nat.lt_succ_of_lt (h.opsBelow e he)
    · rw [List.mem_singleton.mp he]
      exact Nat.lt_succ_self _
  · intro e he
    rcases List.mem_append.mp he with he | he
    · exact Nat.lt_succ_of_lt (h.timersBelow e he)
    · rw [List.mem_singleton.mp he]
      exact Nat.lt_succ_self _
  · intro op hop
    rcases Nat.lt_succ_iff_lt_or_eq.mp hop with hlt | rfl
    · refine (h.begun op hlt).imp_right ?_
      rintro ⟨e, he, rfl⟩
      exact ⟨e, List.mem_append_left _ he, rfl⟩
    · exact .inr ⟨_, List.mem_append_right _ List.mem_cons_self, rfl⟩
  · rw [AcquireWait.addRetry, List.map_append, List.append_assoc]
    refine (List.perm_append_comm.append_left l.wait.waiting).trans ?_
    rw [← List.append_assoc]
    exact h.timersPerm.append_right _
  -- what stands before an operation does not change when one is added at the end
  · intro before tim after heq hop
    obtain ⟨front, rest, hsplit, hfront⟩ := h.order before tim after heq hop
    refine ⟨front, rest ++ [⟨l.wait.timers, l.wait.ops⟩], ?_, hfront⟩
    rw [AcquireWait.addRetry, List.map_append, hsplit, List.append_assoc]
    rfl
  · intro e he hposted hop
    rcases List.mem_append.mp he with he | he
    · exact h.woken e he hposted hop
    · -- its timer is new
      obtain ⟨e', he', htim⟩ := h.mem_queue (List.mem_append_right l.wait.waiting hposted)
      have hlt := h.timersBelow e' he'
      rw [htim, List.mem_singleton.mp he] at hlt
      exact absurd hlt (Nat.lt_irrefl _)

/-- Nobody waits. -/
theorem inv_of_empty {w : AcquireWait pb} {cancelled : List Nat}
    {completed : List AcquireCompletion} (hqueue : w.timRetryAcqPidQueue = [])
    (hwaiting : w.waiting = []) (hhandlers : w.handlers = [])
    (hrange : ∀ v ∈ w.pidMan.pool, v < pb.limit) (hhighest : w.pidMan.highest < pb.limit)
    (hbegun : ∀ op < w.ops, ∃ r, ⟨op, r⟩ ∈ completed)
    (hdismissed : ∀ op, ⟨op, none⟩ ∈ completed → op ∈ cancelled)
    (hinOrder : ∀ op packetId, ⟨op, some packetId⟩ ∈ completed →
      ∀ op' < op, ∃ r, ⟨op', r⟩ ∈ completed) : (⟨w, cancelled, completed⟩ : AcquireLog pb).Inv := by
  refine ⟨⟨[], [], hqueue, nofun, nofun, fun h => absurd rfl h, Nat.zero_le _,
    fun h => absurd rfl h, nofun⟩, hrange, hhighest, ?_, ?_, ?_, ?_, fun op hop => .inl (hbegun op hop),
    ?_, ?_, ?_, hdismissed, hinOrder⟩
  all_goals simp only [hqueue, hwaiting, hhandlers]
  · exact List.Pairwise.nil
  · exact List.Pairwise.nil
  · exact nofun
  · exact nofun
  · exact List.Perm.nil
  · intro before tim after heq
    exact nomatch (List.append_eq_nil_iff.mp heq.symm).2
  · exact nofun

/-- If nobody waits, then no timer is left and all operations have completed. -/
theorem Inv.of_queue_nil (h : l.Inv) (hqueue : l.wait.timRetryAcqPidQueue = []) :
    l.wait.waiting = [] ∧ l.wait.handlers = [] ∧
      ∀ op < l.wait.ops, ∃ r, ⟨op, r⟩ ∈ l.completed := by
  have hperm := h.timersPerm
  rw [hqueue, List.map_nil] at hperm
  obtain ⟨hwaiting, hhandlers⟩ := List.append_eq_nil_iff.mp hperm.eq_nil
  refine ⟨hwaiting, hhandlers, fun op hop => (h.begun op hop).resolve_right ?_⟩
  rintro ⟨e, he, -⟩
  rw [hqueue] at he
  exact nomatch he

/-- An operation that begins gets an identifier if one is free and nobody waits. -/
theorem Inv.acquireUniquePacketIdWaitUntil (h : l.Inv) (hwraps : ¬ l.wait.pidMan.Wraps)
    (hle : l.wait.hasRetry → l.wait.pidMan.pool.count ≤ l.wait.woken) :
    ({ l with
        wait := l.wait.acquireUniquePacketIdWaitUntil.1
        completed := l.completed ++ l.wait.acquireUniquePacketIdWaitUntil.2 } :
      AcquireLog pb).Inv := by
  rw [AcquireWait.acquireUniquePacketIdWaitUntil]
  -- somebody waits, so it lines up behind them even if an identifier is free
  by_cases hretry : l.wait.hasRetry = true
  · simp only [hretry, if_true, List.append_nil]
    refine h.lineUp (fun ms us hl => hl.released) fun ms us hl => ?_
    have hcount := hle hretry
    rw [hl.woken_eq] at hcount
    exact Nat.le_antisymm hcount hl.enough
  have hqueue : l.wait.timRetryAcqPidQueue = [] := by
    simpa [AcquireWait.hasRetry] using hretry
  obtain ⟨hwaiting, hhandlers, hbegun⟩ := h.of_queue_nil hqueue
  -- nobody waits, so it asks for an identifier at once
  simp only [hretry, if_false, Bool.false_eq_true, AcquireWait.acqProc,
    PacketIdManager.acquireUniqueId]
  rcases hacq : l.wait.pidMan.allocate with ⟨packetId, m⟩
  have hhighest := ValueAllocator.highest_of_allocate hacq
  cases packetId with
  | none =>
    obtain rfl := ValueAllocator.allocate_none hacq
    have hzero : l.wait.pidMan.pool.count = 0 := by
      rw [← ValueAllocator.allocate_eq_none, hacq]
    have hnil : ∀ ms us, l.Lined ms us → ms = [] := fun ms us hl =>
      (List.append_eq_nil_iff.mp (hl.queue.symm.trans hqueue)).1
    rw [List.append_nil]
    refine h.lineUp (fun ms us hl hms => absurd (hnil ms us hl) hms) fun ms us hl => ?_
    rw [hnil ms us hl]
    exact hzero
  | some packetId =>
    obtain ⟨-, hsub⟩ := ValueAllocator.mem_allocate hacq h.range hwraps
    have hold : ∀ op < l.wait.ops, ∃ r, (⟨op, r⟩ : AcquireCompletion) ∈
        l.completed ++ [⟨l.wait.ops, some packetId⟩] := fun op hop => by
      obtain ⟨r, hr⟩ := hbegun op hop
      exact ⟨r, List.mem_append_left _ hr⟩
    refine inv_of_empty hqueue hwaiting hhandlers (fun v hv => h.range v (hsub v hv).1)
      (hhighest ▸ h.highest) ?_ ?_ ?_
    -- all operations before it have completed, because the queue is empty
    · intro op hop
      rcases Nat.lt_succ_iff_lt_or_eq.mp hop with hlt | rfl
      · exact hold op hlt
      · exact ⟨some packetId, List.mem_append_right _ List.mem_cons_self⟩
    · intro op hop
      rcases List.mem_append.mp hop with hop | hop
      · exact h.dismissed op hop
      · exact nomatch List.mem_singleton.mp hop
    · intro op packetId' hop op' hlt
      rcases List.mem_append.mp hop with hop | hop
      · obtain ⟨r, hr⟩ := h.inOrder op packetId' hop op' hlt
        exact ⟨r, List.mem_append_left _ hr⟩
      · obtain ⟨rfl, -⟩ := AcquireCompletion.mk.injEq .. ▸ List.mem_singleton.mp hop
        exact hold op' hlt

/-! ### A handler runs -/

/-- The operations that wait or have a handler differ. -/
theorem Inv.nodup_handlers (h : l.Inv) : (l.wait.waiting ++ l.wait.handlers).Nodup :=
  h.timersPerm.nodup_iff.mpr h.nodup

/-- The operation whose handler runs completes and leaves the queue. -/
theorem Inv.leave (h : l.Inv) {front back : List TimCancelled} {e : TimCancelled}
    {handlers : List RetryTimer} {r : Option Nat} {m : PacketIdManager pb}
    (hqueue : l.wait.timRetryAcqPidQueue = front ++ e :: back)
    (hhandlers : l.wait.handlers = e.tim :: handlers) (hrange : ∀ v ∈ m.pool, v < pb.limit)
    (hhighest : m.highest = l.wait.pidMan.highest)
    (hlined : ∃ ms us, ({ l with wait := { l.wait with
      pidMan := m, handlers, timRetryAcqPidQueue := front ++ back } } : AcquireLog pb).Lined ms us)
    (hdismissed : r = none → e.tim.op ∈ l.cancelled)
    (hinOrder : ∀ packetId, r = some packetId →
      ∀ op' < e.tim.op, ∃ r, ⟨op', r⟩ ∈ l.completed) :
    (⟨{ l.wait with pidMan := m, handlers, timRetryAcqPidQueue := front ++ back }, l.cancelled,
      l.completed ++ [⟨e.tim.op, r⟩]⟩ : AcquireLog pb).Inv := by
  -- the invariant for a queue from which one operation is left out
  have hsub : (front ++ back).Sublist l.wait.timRetryAcqPidQueue := by
    rw [hqueue]
    exact (List.sublist_cons_self e back).append_left front
  have hold : ∀ op, (∃ r, (⟨op, r⟩ : AcquireCompletion) ∈ l.completed) →
      ∃ r', (⟨op, r'⟩ : AcquireCompletion) ∈ l.completed ++ [⟨e.tim.op, r⟩] := fun op ⟨r', hr'⟩ =>
    ⟨r', List.mem_append_left _ hr'⟩
  -- a timer is posted once
  have hnodup := h.nodup_handlers
  rw [hhandlers] at hnodup
  obtain ⟨htim, -⟩ := List.nodup_cons.mp (List.nodup_append.mp hnodup).2.1
  obtain ⟨ms, us, hl⟩ := hlined
  refine ⟨⟨ms, us, hl.queue, hl.marked, hl.unmarked, hl.released, hl.enough, hl.exact, hl.posted⟩,
    hrange, hhighest ▸ h.highest, h.ops.sublist (hsub.map _), h.timers.sublist (hsub.map _),
    fun e' he' => h.opsBelow e' (hsub.subset he'), fun e' he' => h.timersBelow e' (hsub.subset he'),
    ?_, ?_, ?_, ?_, ?_, ?_⟩
  -- the operation itself has begun and now has completed
  · intro op hop
    rcases h.begun op hop with hdone | ⟨e', he', rfl⟩
    · exact .inl (hold op hdone)
    · rw [hqueue] at he'
      rcases List.mem_append.mp he' with he' | he'
      · exact .inr ⟨e', List.mem_append_left back he', rfl⟩
      · rcases List.mem_cons.mp he' with rfl | he'
        · exact .inl ⟨r, List.mem_append_right _ List.mem_cons_self⟩
        · exact .inr ⟨e', List.mem_append_right front he', rfl⟩
  · have hperm := h.timersPerm
    rw [hhandlers, hqueue, List.map_append, List.map_cons] at hperm
    have hcons := (List.perm_middle.symm.trans hperm).trans List.perm_middle
    rw [List.map_append]
    exact hcons.cons_inv
  -- what was before it in the queue is still posted before it
  · intro before tim after heq hop
    dsimp only at heq
    obtain ⟨front', rest, hsplit, hfront⟩ := h.order (e.tim :: before) tim after
      (by rw [hhandlers, heq]; rfl) hop
    -- leaving the operation out leaves the ones before `tim` before it
    have hne : e.tim ≠ tim := fun hsame => htim (by rw [heq, hsame]; simp)
    have herase : (front ++ back).map (·.tim) =
        (l.wait.timRetryAcqPidQueue.map (·.tim)).erase e.tim := by
      have hnodup := h.nodup
      rw [hqueue, List.map_append, List.map_cons] at hnodup
      have hnot : e.tim ∉ front.map (·.tim) := fun hmem =>
        (List.nodup_append.mp hnodup).2.2 _ hmem _ List.mem_cons_self rfl
      rw [hqueue, List.map_append, List.map_append, List.map_cons,
        List.erase_append_right _ hnot, List.erase_cons_head]
    have hnodup := h.nodup
    rw [hsplit] at hnodup
    refine ⟨front'.erase e.tim, if e.tim ∈ front' then rest else rest.erase e.tim, ?_, ?_⟩
    · rw [herase, hsplit]
      by_cases hmem : e.tim ∈ front'
      · rw [if_pos hmem, List.erase_append_left _ hmem]
      · rw [if_neg hmem, List.erase_append_right _ hmem, List.erase_of_not_mem hmem,
          List.erase_cons_tail (by simpa using hne.symm)]
    · intro t ht
      have ht' := ((List.nodup_append.mp hnodup).1.mem_erase_iff).mp ht
      exact (List.mem_cons.mp (hfront t ht'.2)).resolve_left ht'.1
  · intro e' he' hposted hop
    refine h.woken e' (hsub.subset he') ?_ hop
    rw [hhandlers]
    exact List.mem_cons_of_mem _ hposted
  · intro op hop
    rcases List.mem_append.mp hop with hop | hop
    · exact h.dismissed op hop
    · obtain ⟨rfl, hr⟩ := AcquireCompletion.mk.injEq .. ▸ List.mem_singleton.mp hop
      exact hdismissed hr.symm
  -- the operations before the completed one were complete already
  · intro op packetId hop op' hlt
    rcases List.mem_append.mp hop with hop | hop
    · exact hold op' (h.inOrder op packetId hop op' hlt)
    · obtain ⟨rfl, hr⟩ := AcquireCompletion.mk.injEq .. ▸ List.mem_singleton.mp hop
      exact hold op' (hinOrder packetId hr.symm op' hlt)

/-- The first of the posted handlers is the one of an operation that was woken, and stands at the
    front of the queue, or of one that the application has cancelled. -/
theorem Inv.head_woken (h : l.Inv) {tim : RetryTimer} {handlers : List RetryTimer}
    (hhandlers : l.wait.handlers = tim :: handlers) (hop : tim.op ∉ l.cancelled) :
    ∃ e es, l.wait.timRetryAcqPidQueue = e :: es ∧ e.tim = tim ∧ e.cancelled = true := by
  obtain ⟨front, rest, hsplit, hfront⟩ := h.order [] tim handlers hhandlers hop
  obtain rfl : front = [] := List.eq_nil_iff_forall_not_mem.mpr fun t ht => nomatch hfront t ht
  obtain ⟨e, es, hqueue, htim, -⟩ := List.map_eq_cons_iff.mp hsplit
  refine ⟨e, es, hqueue, htim, h.woken e ?_ ?_ (htim ▸ hop)⟩
  · rw [hqueue]
    exact List.mem_cons_self
  · rw [hhandlers, htim]
    exact List.mem_cons_self

/-- A timer that was cancelled on purpose. -/
theorem Inv.retryAborted (h : l.Inv) {tim : RetryTimer} {handlers : List RetryTimer}
    (hhandlers : l.wait.handlers = tim :: handlers) (hreleased : l.wait.packetIdReleased = false) :
    (⟨{ l.wait with
        handlers
        timRetryAcqPidQueue := l.wait.timRetryAcqPidQueue.eraseP (·.tim = tim) }, l.cancelled,
      l.completed ++ [⟨tim.op, none⟩]⟩ : AcquireLog pb).Inv := by
  obtain ⟨ms, us, hl⟩ := h.lined
  obtain rfl : ms = [] := by
    by_contra hms
    exact Bool.false_ne_true (hreleased.symm.trans (hl.released hms))
  -- the handler was not woken, so its operation was cancelled
  have hop : tim.op ∈ l.cancelled := by
    by_contra hop
    obtain ⟨e, es, hqueue, -, hmarked⟩ := h.head_woken hhandlers hop
    have hus : e ∈ us := by
      rw [show us = e :: es from hl.queue.symm.trans hqueue]
      exact List.mem_cons_self
    exact Bool.false_ne_true ((hl.unmarked e hus).symm.trans hmarked)
  obtain ⟨e₀, he₀, htim₀⟩ : ∃ e ∈ l.wait.timRetryAcqPidQueue, e.tim = tim := by
    apply h.mem_queue
    rw [hhandlers]
    simp
  -- it leaves the queue from wherever it stands
  obtain ⟨e, front, back, -, htim, hqueue, herase⟩ :=
    List.exists_of_eraseP he₀ (p := (·.tim = tim)) (by simpa using htim₀)
  obtain rfl : e.tim = tim := by simpa using htim
  rw [herase]
  refine h.leave hqueue hhandlers h.range rfl ⟨[], front ++ back, rfl, nofun, ?_, nofun, ?_, ?_,
    nofun⟩ (fun _ => hop) nofun
  · intro e' he'
    refine hl.unmarked e' ?_
    rw [show us = front ++ e :: back from hl.queue.symm.trans hqueue]
    exact ((List.sublist_cons_self e back).append_left front).subset he'
  · exact Nat.zero_le _
  · intro _
    refine hl.exact fun hus => ?_
    have hnil := hqueue.symm.trans (hl.queue.trans hus)
    simp at hnil

/-- A timer that was cancelled because an identifier was released. -/
theorem Inv.retryWoken (h : l.Inv) {e : TimCancelled} {es : List TimCancelled}
    {handlers : List RetryTimer} (hhandlers : l.wait.handlers = e.tim :: handlers)
    (hqueue : l.wait.timRetryAcqPidQueue = e :: es) (hmarked : e.cancelled = true)
    (hwraps : ¬ l.wait.pidMan.Wraps) :
    ∃ packetId m, l.wait.pidMan.acquireUniqueId = (some packetId, m) ∧
      (⟨{ l.wait with pidMan := m, handlers, timRetryAcqPidQueue := es }, l.cancelled,
        l.completed ++ [⟨e.tim.op, some packetId⟩]⟩ : AcquireLog pb).Inv := by
  -- the queue begins with a woken operation, so the woken part is not empty
  obtain ⟨ms, us, hl⟩ := h.lined
  obtain ⟨ms, rfl⟩ : ∃ ms', ms = e :: ms' := by
    cases ms with
    | nil =>
      have hus : e ∈ us := by
        rw [show us = e :: es from hl.queue.symm.trans hqueue]
        exact List.mem_cons_self
      exact absurd ((hl.unmarked e hus).symm.trans hmarked) Bool.false_ne_true
    | cons e' ms => exact ⟨ms, by rw [(List.cons_eq_cons.mp (hqueue.symm.trans hl.queue)).1]⟩
  have henough := hl.enough
  rw [List.length_cons] at henough
  rcases hacq : l.wait.pidMan.allocate with ⟨packetId, m⟩
  have hhighest := ValueAllocator.highest_of_allocate hacq
  -- each woken operation has an identifier that is free for it
  cases packetId with
  | none =>
    have hzero := (ValueAllocator.allocate_eq_none l.wait.pidMan).mp (by rw [hacq])
    omega
  | some packetId =>
    obtain ⟨-, hsub⟩ := ValueAllocator.mem_allocate hacq h.range hwraps
    have hcount := ValueAllocator.count_allocate hacq h.range hwraps
    refine ⟨packetId, m, hacq, ?_⟩
    have hes : es = ms ++ us := (List.cons_eq_cons.mp (hqueue.symm.trans hl.queue)).2
    have hqueue' : l.wait.timRetryAcqPidQueue = [] ++ e :: es := hqueue
    refine h.leave hqueue' hhandlers (fun v hv => h.range v (hsub v hv).1) hhighest
      ⟨ms, us, hes, fun e' he' => hl.marked e' (List.mem_cons_of_mem e he'), hl.unmarked, ?_, ?_, ?_,
        ?_⟩ nofun ?_
    · exact fun _ => hl.released (List.cons_ne_nil e ms)
    · dsimp only
      omega
    · intro hus
      have hexact := hl.exact hus
      rw [List.length_cons] at hexact
      dsimp only
      omega
    -- another woken operation has another timer, so it is still posted
    · intro e' he'
      have hposted := hl.posted e' (List.mem_cons_of_mem e he')
      rw [hhandlers] at hposted
      refine (List.mem_cons.mp hposted).resolve_left fun htim => ?_
      have hnodup := h.nodup
      rw [hqueue, hes, List.map_cons] at hnodup
      refine (List.nodup_cons.mp hnodup).1 (htim ▸ List.mem_map_of_mem ?_)
      exact List.mem_append_left us he'
    · -- those before it have completed, as it is the first in the queue
      intro _ _ op' hlt
      have hbelow := h.opsBelow e (by rw [hqueue]; exact List.mem_cons_self)
      refine (h.begun op' (Nat.lt_trans hlt hbelow)).resolve_right ?_
      rintro ⟨e', he', rfl⟩
      have hops := h.ops
      rw [hqueue, List.map_cons] at hops
      rw [hqueue] at he'
      rcases List.mem_cons.mp he' with rfl | he'
      · exact Nat.lt_irrefl _ hlt
      · have hgt := (List.pairwise_cons.mp hops).1 _ (List.mem_map_of_mem he')
        omega

/-- An operation that the application has cancelled and that nobody waits with begins anew. -/
theorem Inv.retryAlone (h : l.Inv) {e : TimCancelled} {handlers : List RetryTimer}
    (hhandlers : l.wait.handlers = e.tim :: handlers)
    (hqueue : l.wait.timRetryAcqPidQueue = [e]) (hunmarked : e.cancelled = false) :
    l.wait.pidMan.pool.count = 0 ∧
      ({ l with wait := ({ l.wait with
          handlers, packetIdReleased := false, timRetryAcqPidQueue := [] } :
        AcquireWait pb).addRetry e.tim.op } : AcquireLog pb).Inv := by
  obtain ⟨ms, us, hl⟩ := h.lined
  -- the only waiter is not a marked one
  obtain rfl : ms = [] := by
    refine List.eq_nil_iff_forall_not_mem.mpr fun e' he' => ?_
    have hmem : e' ∈ [e] := by
      rw [← hqueue, hl.queue]
      exact List.mem_append_left us he'
    have hmarked := hl.marked e' he'
    rw [List.mem_singleton.mp hmem, hunmarked] at hmarked
    exact nomatch hmarked
  have hus : us ≠ [] := fun hus => by
    have hnil := hqueue.symm.trans (hl.queue.trans hus)
    exact nomatch hnil
  have hzero := hl.exact hus
  -- no other timer is left
  have hperm := h.timersPerm
  rw [hhandlers, hqueue] at hperm
  obtain ⟨hwaiting, rfl⟩ : l.wait.waiting = [] ∧ handlers = [] := by
    have hnil := (List.perm_middle.symm.trans hperm).cons_inv.eq_nil
    exact List.append_eq_nil_iff.mp hnil
  have hop : e.tim.op < l.wait.ops := h.opsBelow e (by rw [hqueue]; exact List.mem_cons_self)
  -- the waiter is put back, and stands alone
  refine ⟨hzero, ⟨[], [⟨⟨l.wait.timers, e.tim.op⟩, false⟩], rfl, nofun, ?_, fun hne => absurd rfl hne,
    Nat.zero_le _, fun _ => hzero, nofun⟩, h.range, h.highest, List.pairwise_singleton _ _,
    List.pairwise_singleton _ _, ?_, ?_, ?_, ?_, ?_, ?_, h.dismissed, h.inOrder⟩
  · exact fun e' he' => by rw [List.mem_singleton.mp he']
  · exact fun e' he' => by rw [List.mem_singleton.mp he']; exact hop
  · exact fun e' he' => by rw [List.mem_singleton.mp he']; exact Nat.lt_succ_self _
  · intro op hop
    refine (h.begun op hop).imp_right ?_
    rintro ⟨e', he', rfl⟩
    rw [hqueue] at he'
    exact ⟨_, List.mem_cons_self, by rw [List.mem_singleton.mp he']⟩
  · simp only [AcquireWait.addRetry, hwaiting]
    exact List.Perm.refl _
  · intro before tim after heq
    exact nomatch (List.append_eq_nil_iff.mp heq.symm).2
  · exact nofun

/-- The first of the posted handlers runs. -/
theorem Inv.retry (h : l.Inv) {tim : RetryTimer} {handlers : List RetryTimer}
    (hhandlers : l.wait.handlers = tim :: handlers) (hwraps : ¬ l.wait.pidMan.Wraps)
    (hfront : tim.op ∈ l.cancelled → l.wait.packetIdReleased → l.wait.atFront tim) :
    (⟨(({ l.wait with handlers } : AcquireWait pb).retry tim).1, l.cancelled,
      l.completed ++ (({ l.wait with handlers } : AcquireWait pb).retry tim).2⟩ :
        AcquireLog pb).Inv := by
  rw [AcquireWait.retry, AcquireWait.retryCancelled]
  -- the handler was cancelled, or it was woken by a release
  cases hreleased : l.wait.packetIdReleased with
  | false =>
    simp only [hreleased, Bool.false_eq_true, if_false]
    have hinv := h.retryAborted hhandlers hreleased
    simpa only [hreleased] using hinv
  | true =>
    simp only [hreleased, if_true, AcquireWait.completeRetryOne, AcquireWait.acqProc]
    obtain ⟨e, es, hqueue, rfl, hmarked⟩ : ∃ e es, l.wait.timRetryAcqPidQueue = e :: es ∧
        e.tim = tim ∧ (e.cancelled = true ∨ es = []) := by
      by_cases hop : tim.op ∈ l.cancelled
      · have hat := hfront hop hreleased
        unfold AcquireWait.atFront at hat
        split at hat
        · exact nomatch hat
        · next e es hqueue => exact ⟨e, es, hqueue, by simpa using hat⟩
      · obtain ⟨e, es, hqueue, htim, hmarked⟩ := h.head_woken hhandlers hop
        exact ⟨e, es, hqueue, htim, .inl hmarked⟩
    simp only [hqueue, List.tail_cons]
    -- the woken one at the front finds a free id, the one alone may find none
    by_cases hcancelled : e.cancelled = true
    · obtain ⟨packetId, m, hacq, hinv⟩ := h.retryWoken hhandlers hqueue hcancelled hwraps
      rw [hacq]
      simpa only [hreleased] using hinv
    · obtain rfl := hmarked.resolve_left hcancelled
      obtain ⟨hzero, hinv⟩ := h.retryAlone hhandlers hqueue (by simpa using hcancelled)
      rcases hacq : l.wait.pidMan.allocate with ⟨packetId, m⟩
      have hnone := (ValueAllocator.allocate_eq_none l.wait.pidMan).mpr hzero
      rw [hacq] at hnone
      obtain rfl : packetId = none := hnone
      obtain rfl := ValueAllocator.allocate_none hacq
      rw [PacketIdManager.acquireUniqueId, hacq, List.append_nil]
      exact hinv

/-! ### Runs -/

/-- An input that cancels nothing -/
theorem step_of_not_cancel {i : AcquireWait.Input pb} (hi : AcquireWait.cancels i = []) :
    l.step i = ⟨(l.wait.call i).1, l.cancelled, l.completed ++ (l.wait.call i).2⟩ := by
  rw [step, hi, List.append_nil]

/-- Every input in order keeps the invariant. -/
theorem Inv.step (h : l.Inv) {i : AcquireWait.Input pb} (hi : l.Orderly i) : (l.step i).Inv := by
  cases i with
  | acquireUniquePacketIdWaitUntil =>
    rw [step_of_not_cancel rfl]
    exact h.acquireUniquePacketIdWaitUntil hi.1 hi.2
  | cancel op =>
    have hcancelled := h.cancelled [op]
    rw [AcquireLog.step, AcquireWait.cancels, AcquireWait.call]
    split
    · rw [List.append_nil]
      exact hcancelled
    · next tim hfind =>
      rw [List.append_nil]
      have hop : tim.op = op := by simpa using List.find?_some hfind
      exact hcancelled.cancelTimer (List.mem_of_find?_eq_some hfind)
        (List.mem_append_right _ (by rw [hop]; exact List.mem_cons_self))
  | packetIdReleased packetId =>
    rw [step_of_not_cancel rfl, AcquireWait.call]
    split
    · next hused =>
      rw [List.append_nil]
      exact h.packetIdReleased hused
    · rw [List.append_nil]
      exact h
  | releasePacketId packetId =>
    rw [step_of_not_cancel rfl, AcquireWait.call]
    split
    · next hused =>
      rw [List.append_nil]
      exact h.releasePacketId hused (hi hused)
    · rw [List.append_nil]
      exact h
  | notifyReleasePid =>
    rw [step_of_not_cancel rfl, AcquireWait.call, List.append_nil]
    exact h.notifyReleasePid hi
  | acquireUniquePacketId =>
    rw [step_of_not_cancel rfl, AcquireWait.call, List.append_nil]
    exact h.acquire hi.1 hi.2
  | registerPacketId packetId =>
    rw [step_of_not_cancel rfl, AcquireWait.call, List.append_nil]
    exact h.registerPacketId hi
  | clear =>
    rw [step_of_not_cancel rfl, AcquireWait.call, List.append_nil]
    exact h.clear hi.1 hi.2
  | handler =>
    rw [step_of_not_cancel rfl, AcquireWait.call]
    split
    · rw [List.append_nil]
      exact h
    · next tim handlers hhandlers =>
      exact h.retry hhandlers hi.1 (hi.2 tim (by rw [hhandlers]; rfl))

/-- In an orderly run those who wait are served. -/
theorem waiters_served (pb : PacketIdBytes) (is : List (AcquireWait.Input pb))
    (his : Run.All step Orderly (make pb) is) : (Run.final step (make pb) is).Served :=
  (Run.final_invariant (Q := Inv) (fun _ _ hi h => h.step hi) (inv_make pb) his).served

end

/-! ### An endpoint without free identifiers -/

/-- A new endpoint that has handed out all but the last `k` identifiers. -/
def remaining (k : Nat) (h : k ≤ 65535) : AcquireLog .two :=
  { make .two with wait := { AcquireWait.make .two with pidMan :=
      { PacketIdManager.make .two with pool :=
          if hk : 0 < k then .singleton (65536 - k) 65535 (by omega) else .empty } } }

/-- One identifier less remains. -/
theorem step_remaining {k : Nat} (h : k + 1 ≤ 65535) :
    (remaining (k + 1) h).step .acquireUniquePacketId = remaining k (Nat.le_of_succ_le h) := by
  have hplus : plusOne .two (65536 - (k + 1)) = 65536 - k := by
    rw [plusOne]
    omega
  have hfirst : ∀ hle, (IntervalPool.singleton (65536 - (k + 1)) 65535 hle).first =
      some (65536 - (k + 1), 65535) := fun _ => rfl
  rw [step_of_not_cancel rfl]
  simp only [remaining, AcquireWait.call, PacketIdManager.acquireUniqueId, ValueAllocator.allocate,
    Nat.zero_lt_succ, dif_pos, hfirst, hplus]
  cases k with
  | zero => rfl
  | succ k =>
    have hle : 65536 - (k + 1) ≤ 65535 := by omega
    have hreplace : ∀ hle', (IntervalPool.singleton (65536 - (k + 1 + 1)) 65535 hle').replace
        (65536 - (k + 1 + 1), 65535) (65536 - (k + 1)) 65535 =
          .singleton (65536 - (k + 1)) 65535 hle := by
      intro hle'
      simp [IntervalPool.replace, IntervalPool.erase, IntervalPool.singleton, IntervalPool.emplace,
        IntervalPool.emplaceList]
    rw [if_pos hle, hreplace, dif_pos (Nat.succ_pos k)]
    rfl

/-- All identifiers are handed out. -/
theorem final_acquire : ∀ k (h : k ≤ 65535),
    Run.final step (remaining k h) (List.replicate k .acquireUniquePacketId) =
      remaining 0 (Nat.zero_le _)
  | 0, _ => rfl
  | k + 1, h => by
    rw [List.replicate_succ, Run.final, List.foldl_cons, step_remaining]
    exact final_acquire k (Nat.le_of_succ_le h)

/-- Acquiring them one by one leads to none. -/
theorem all_acquire {is : List (AcquireWait.Input .two)}
    (his : Run.All step Orderly (remaining 0 (Nat.zero_le _)) is) : ∀ k (h : k ≤ 65535),
    Run.All step Orderly (remaining k h) (List.replicate k .acquireUniquePacketId ++ is)
  | 0, _ => his
  | k + 1, h => by
    rw [List.replicate_succ, List.cons_append, Run.all_cons, step_remaining]
    refine ⟨⟨fun hwraps => absurd hwraps.1 nofun, .inr ?_⟩, all_acquire his k _⟩
    simp [remaining, AcquireWait.woken, AcquireWait.make, IntervalPool.count,
      IntervalPool.singleton]
    omega

/-- Two operations wait, and the first one gets the identifier that is released. -/
theorem waiters_served_two :
    (Run.final step (make .two) (List.replicate 65535 .acquireUniquePacketId ++
      [.acquireUniquePacketIdWaitUntil, .acquireUniquePacketIdWaitUntil,
        .packetIdReleased ⟨7, by decide⟩, .handler])).Served := by
  apply waiters_served
  apply all_acquire _ 65535 (Nat.le_refl _)
  simp only [Run.all_cons]
  refine ⟨?_, ?_, ?_, ?_, Run.all_nil⟩
  all_goals decide

/-- What comes after all identifiers were handed out. -/
theorem final_acquire_append (is : List (AcquireWait.Input .two)) :
    Run.final step (make .two) (List.replicate 65535 .acquireUniquePacketId ++ is) =
      Run.final step (remaining 0 (Nat.zero_le _)) is := by
  rw [Run.final, List.foldl_append]
  exact congrArg (fun l => Run.final step l is) (final_acquire 65535 (Nat.le_refl _))

/-- Two identifiers are released while one operation waits. Another one that begins before the
    handler has run waits behind it, although the second identifier is free, and goes on to
    wait when the handler has run. -/
theorem waiter_forgotten :
    ¬ (Run.final step (make .two) (List.replicate 65535 .acquireUniquePacketId ++
      [.acquireUniquePacketIdWaitUntil, .packetIdReleased ⟨7, by decide⟩,
        .packetIdReleased ⟨8, by decide⟩, .acquireUniquePacketIdWaitUntil, .handler])).Served := by
  rw [final_acquire_append]
  intro h
  exact h.woken (by decide) (by decide) 8 (by decide)

/-- An identifier is given back by `release_packet_id` while an operation waits for one. -/
theorem waiter_not_notified :
    ¬ (Run.final step (make .two) (List.replicate 65535 .acquireUniquePacketId ++
      [.acquireUniquePacketIdWaitUntil, .releasePacketId ⟨7, by decide⟩])).Served := by
  rw [final_acquire_append]
  intro h
  exact h.woken (by decide) (by decide) 7 (by decide)

/-- The second operation leaves the queue for the third one, which the application has
    cancelled. The identifier that is released then wakes nobody. -/
theorem waiter_displaced :
    ¬ (Run.final step (make .two) (List.replicate 65535 .acquireUniquePacketId ++
      [.acquireUniquePacketIdWaitUntil, .acquireUniquePacketIdWaitUntil,
        .packetIdReleased ⟨7, by decide⟩, .handler, .acquireUniquePacketIdWaitUntil, .cancel 2,
        .handler, .packetIdReleased ⟨7, by decide⟩])).Served := by
  rw [final_acquire_append]
  intro h
  exact h.woken (by decide) (by decide) 7 (by decide)

end AcquireLog

end AsyncMqtt
