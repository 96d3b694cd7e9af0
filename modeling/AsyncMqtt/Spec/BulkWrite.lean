import AsyncMqtt.ForStd.Run
import AsyncMqtt.Native.Stream
import Mathlib.Data.List.Sublists

/-!
# Bulk writing is transparent

With `bulk_write_` an operation that has to wait leaves its buffers in `storing_cbs_`, and the
operation whose turn comes first writes them for all. The next layer still gets the packets in
the order of the calls, and an operation only succeeds with its packet written, as long as no
bulk write fails and every bulk operation that waits has only bulk operations behind it.

An operation that finds `storing_cbs_` empty takes that for a success. So after a bulk write that
failed the operations whose buffers were part of it report that they were written.

## Key results

- `StreamLog.bulk_write_transparent`: bulk writing is transparent in runs without the two
- `StreamLog.failed_bulk_write`: an operation that succeeds although its packet was not written
- `StreamLog.toggled_bulk_write`: two packets that change places
-/

namespace AsyncMqtt

/-- A stream with what has been done with it: the operations in the order of the calls, the
    buffers that were handed to the next layer, the writes that succeeded, and the operations
    that have completed. -/
structure StreamLog (pb : PacketIdBytes) where
  strm : Stream pb
  calls : List (StreamWritePacketOp pb)
  wire : List ConstBuffer
  written : List (List ConstBuffer)
  completed : List (StreamWritePacketOp pb × Option Errc)
  deriving DecidableEq

namespace StreamEvent

variable {pb : PacketIdBytes}

/-- The buffers that are handed to the next layer. -/
def handed : StreamEvent pb → List ConstBuffer
  | asyncWrite cbs => cbs
  | complete .. => []

/-- The operation that completes. -/
def completion? : StreamEvent pb → Option (StreamWritePacketOp pb × Option Errc)
  | asyncWrite _ => none
  | complete op ec _ => some (op, ec)

end StreamEvent

namespace Stream

variable {pb : PacketIdBytes}

/-- The write that succeeds with this input. -/
def succeeds (strm : Stream pb) : Input pb → List (List ConstBuffer)
  | .written none _ => (strm.writing.map Prod.snd).toList
  | _ => []

/-- The operation that starts with this input. -/
def starts (strm : Stream pb) : Input pb → List (StreamWritePacketOp pb)
  | .asyncWritePacket packet => [strm.newOp packet]
  | _ => []

end Stream

namespace StreamLog

variable {pb : PacketIdBytes}

/-- A stream that nothing was written to. -/
def make : StreamLog pb := ⟨.make, [], [], [], []⟩

/-- Writes down what an input does. -/
def record (l : StreamLog pb) (r : Stream pb × List (StreamEvent pb)) : StreamLog pb :=
  { l with
    strm := r.1
    wire := l.wire ++ r.2.flatMap StreamEvent.handed
    completed := l.completed ++ r.2.filterMap StreamEvent.completion? }

/-- The effect of an input. -/
def step (l : StreamLog pb) (i : Stream.Input pb) : StreamLog pb :=
  { l with
    calls := l.calls ++ l.strm.starts i
    written := l.written ++ l.strm.succeeds i }.record (l.strm.call i)

/-- The next layer gets the packets in the order of the calls, each at most once and in one
    piece. An operation succeeds only if all of its packet was part of a write that succeeded.
    The stored buffers belong to operations that have not completed. -/
structure Transparent (l : StreamLog pb) : Prop where
  inOrder : ∃ ops : List (StreamWritePacketOp pb), ops.Sublist l.calls ∧
    l.wire = ops.flatMap StreamWritePacketOp.cbs
  success : ∀ op, (op, none) ∈ l.completed → ∃ cbs ∈ l.written, op.cbs <:+: cbs
  owned : ∀ b ∈ l.strm.storingCbs ++ l.strm.sendingCbs, ∀ e ∈ l.completed, e.1.number ≠ b.op

end StreamLog

namespace Stream

variable {pb : PacketIdBytes}

/-- The operations that wait, from the first bulk operation on, are bulk operations. -/
def bulkLast (strm : Stream pb) : Bool :=
  (strm.writeQueue.handlers.dropWhile (·.state = .write)).all (·.state = .bulkWrite)

/-- The next operation is a bulk operation. -/
def bulkNext (strm : Stream pb) : Bool :=
  (strm.writeQueue.handlers.head?.map (·.state)) = some .bulkWrite

/-- The operation whose write is under way is a bulk operation. -/
def bulkUnderWay (strm : Stream pb) : Bool :=
  (strm.writing.map (·.1.state)) = some .bulkWrite

/-- Buffers are stored only behind bulk operations, no bulk write fails, and while buffers are
    stored the stream is not closed and no bulk operation finds it closed. -/
def Orderly (strm : Stream pb) : Input pb → Prop
  | .asyncWritePacket packet => (strm.newOp packet).state = .bulkWrite → strm.bulkLast
  | .written (some _) _ => ¬ strm.bulkUnderWay
  | .poll => 0 < strm.posted → strm.bulkNext → strm.isOpen ∨ strm.storingCbs = []
  | .closed => strm.storingCbs = []
  | _ => True

instance (strm : Stream pb) : (i : Input pb) → Decidable (strm.Orderly i)
  | .asyncWritePacket _ => inferInstanceAs (Decidable (_ → _))
  | .written (some _) _ => inferInstanceAs (Decidable (¬ _))
  | .poll => inferInstanceAs (Decidable (_ → _ → _ ∨ _))
  | .closed => inferInstanceAs (Decidable (_ = _))
  | .setBulkWrite _ | .setOpen _ | .written none _ => inferInstanceAs (Decidable True)

end Stream

/-! ### The invariant -/

namespace StreamLog

variable {pb : PacketIdBytes}

/-- The operations that wait, in the order in which they wait: operations that write for
    themselves, bulk operations whose buffers have been handed on already, bulk operations whose
    buffers are stored, and operations that write for themselves. `sent` are the ones whose
    packets were handed to the next layer. -/
structure Waiting (l : StreamLog pb) (sent ws stale fresh tail : List (StreamWritePacketOp pb)) :
    Prop where
  handlers : l.strm.writeQueue.handlers = ws ++ (stale ++ (fresh ++ tail))
  write : ∀ op ∈ ws ++ tail, op.state = .write
  bulk : ∀ op ∈ stale ++ fresh, op.state = .bulkWrite
  split : stale = [] ∨ ws = []
  order : (sent ++ (ws ++ (fresh ++ tail))).Sublist l.calls
  wire : l.wire = sent.flatMap StreamWritePacketOp.cbs
  storing : l.strm.storingCbs = fresh.flatMap StreamWritePacketOp.cbs
  handed : ∀ op ∈ stale, (∃ cbs ∈ l.written, op.cbs <:+: cbs) ∨
    ∃ op' cbs, l.strm.writing = some (op', cbs) ∧ op'.state = .bulkWrite ∧ op.cbs <:+: cbs

/-- What holds of an orderly run. -/
structure Inv (l : StreamLog pb) : Prop where
  calls : l.calls = l.completed.map Prod.fst ++
    ((l.strm.writing.map Prod.fst).toList ++ l.strm.writeQueue.handlers)
  numbers : l.calls.map (·.number) = List.range l.strm.started
  success : ∀ op, (op, none) ∈ l.completed → ∃ cbs ∈ l.written, op.cbs <:+: cbs
  writing : ∀ op cbs, l.strm.writing = some (op, cbs) →
    (∃ cbs ∈ l.written, op.cbs <:+: cbs) ∨ op.cbs <:+: cbs
  sending : ∀ b ∈ l.strm.sendingCbs, ∃ op cbs, l.strm.writing = some (op, cbs) ∧
    op.state = .bulkWrite ∧ ∃ op' ∈ op :: l.strm.writeQueue.handlers, op'.number = b.op
  waiting : ∃ sent ws stale fresh tail, l.Waiting sent ws stale fresh tail

theorem inv_make : (make : StreamLog pb).Inv := by
  refine ⟨rfl, rfl, nofun, nofun, nofun, [], [], [], [], [], ?_⟩
  exact ⟨rfl, nofun, nofun, .inl rfl, List.Sublist.refl _, rfl, rfl, nofun⟩

/-- An operation that has completed is none of those that have not. -/
theorem Inv.number_ne {l : StreamLog pb} (h : l.Inv) {e : StreamWritePacketOp pb × Option Errc}
    (he : e ∈ l.completed) {op : StreamWritePacketOp pb}
    (hop : op ∈ (l.strm.writing.map Prod.fst).toList ++ l.strm.writeQueue.handlers) :
    e.1.number ≠ op.number := by
  have hnodup : (l.calls.map (·.number)).Nodup := h.numbers ▸ List.nodup_range
  rw [h.calls, List.map_append] at hnodup
  exact (List.nodup_append.mp hnodup).2.2 _
    (List.mem_map_of_mem (List.mem_map_of_mem he)) _ (List.mem_map_of_mem hop)

theorem mem_flatMap_cbs {ops : List (StreamWritePacketOp pb)} {b : ConstBuffer}
    (h : b ∈ ops.flatMap StreamWritePacketOp.cbs) : ∃ op ∈ ops, op.number = b.op := by
  obtain ⟨op, hop, hb⟩ := List.mem_flatMap.mp h
  obtain ⟨_, -, rfl⟩ := List.mem_map.mp hb
  exact ⟨op, hop, rfl⟩

/-- What the invariant says about the packets. -/
theorem Inv.transparent {l : StreamLog pb} (h : l.Inv) : l.Transparent := by
  obtain ⟨sent, ws, stale, fresh, tail, hw⟩ := h.waiting
  refine ⟨⟨sent, (List.sublist_append_left _ _).trans hw.order, hw.wire⟩, h.success, ?_⟩
  intro b hb e he
  rcases List.mem_append.mp hb with hb | hb
  · rw [hw.storing] at hb
    obtain ⟨op, hop, hnumber⟩ := mem_flatMap_cbs hb
    rw [← hnumber]
    apply h.number_ne he
    rw [hw.handlers]
    simp [hop]
  · obtain ⟨op, cbs, hwriting, -, op', hop', hnumber⟩ := h.sending b hb
    rw [← hnumber]
    apply h.number_ne he
    rw [hwriting]
    exact hop'

/-! ### An operation begins -/

theorem cbs_infix {ops : List (StreamWritePacketOp pb)} {op : StreamWritePacketOp pb}
    (h : op ∈ ops) : op.cbs <:+: ops.flatMap StreamWritePacketOp.cbs := by
  obtain ⟨before, after, rfl⟩ := List.append_of_mem h
  refine ⟨before.flatMap StreamWritePacketOp.cbs, after.flatMap StreamWritePacketOp.cbs, ?_⟩
  rw [List.flatMap_append, List.flatMap_cons, List.append_assoc]

/-- Every packet has a buffer. -/
theorem cbs_ne_nil (op : StreamWritePacketOp pb) : op.cbs ≠ [] := by
  have hseq : ∀ p : PacketVariant pb, p.constBufferSequence ≠ [] := by
    intro p
    cases p <;> exact List.cons_ne_nil _ _
  exact fun hnil => hseq _ (List.map_eq_nil_iff.mp hnil)

variable {l : StreamLog pb} {sent ws stale fresh tail rest : List (StreamWritePacketOp pb)}
  {op : StreamWritePacketOp pb}

/-- If the next operation writes for itself, it is one of the first. -/
theorem Waiting.next_write (h : l.Waiting sent ws stale fresh tail)
    (hnext : l.strm.writeQueue.handlers = op :: rest) (hop : op.state = .write) :
    ∃ ws stale fresh tail, l.Waiting sent (op :: ws) stale fresh tail := by
  have hbulk : ∀ op' ∈ stale ++ fresh, op ≠ op' := by
    rintro op' hop' rfl
    exact nomatch hop.symm.trans (h.bulk _ hop')
  have hhandlers := hnext.symm.trans h.handlers
  cases ws with
  | cons op' ws =>
    obtain ⟨rfl, -⟩ := List.cons_eq_cons.mp hhandlers
    exact ⟨ws, stale, fresh, tail, h⟩
  | nil =>
    cases stale with
    | cons op' stale => exact absurd (List.cons_eq_cons.mp hhandlers).1 (hbulk op' (by simp))
    | nil =>
      cases fresh with
      | cons op' fresh => exact absurd (List.cons_eq_cons.mp hhandlers).1 (hbulk op' (by simp))
      | nil =>
        obtain rfl : op :: rest = tail := hhandlers
        refine ⟨rest, [], [], [], ?_⟩
        obtain ⟨-, hwrite, -, -, horder, hwire, hstoring, -⟩ := h
        refine ⟨by simpa using hnext, by simpa using hwrite, nofun, .inl rfl, ?_, hwire, hstoring,
          nofun⟩
        simpa using horder

/-- If the next operation is a bulk operation, its buffers have been handed on or are stored. -/
theorem Waiting.next_bulk (h : l.Waiting sent ws stale fresh tail)
    (hnext : l.strm.writeQueue.handlers = op :: rest) (hop : op.state = .bulkWrite) :
    (∃ stale', stale = op :: stale' ∧ ws = []) ∨
      ∃ fresh', fresh = op :: fresh' ∧ ws = [] ∧ stale = [] := by
  have hwrite : ∀ op' ∈ ws ++ tail, op ≠ op' := by
    rintro op' hop' rfl
    exact nomatch hop.symm.trans (h.write _ hop')
  have hhandlers := hnext.symm.trans h.handlers
  cases ws with
  | cons op' ws => exact absurd (List.cons_eq_cons.mp hhandlers).1 (hwrite op' (by simp))
  | nil =>
    cases stale with
    | cons op' stale =>
      obtain ⟨rfl, -⟩ := List.cons_eq_cons.mp hhandlers
      exact .inl ⟨stale, rfl, rfl⟩
    | nil =>
      cases fresh with
      | cons op' fresh =>
        obtain ⟨rfl, -⟩ := List.cons_eq_cons.mp hhandlers
        exact .inr ⟨fresh, rfl, rfl, rfl⟩
      | nil =>
        cases tail with
        | nil => exact nomatch hhandlers
        | cons op' tail =>
          exact absurd (List.cons_eq_cons.mp hhandlers).1 (hwrite op' (by simp))

/-- The invariant looks at the buffers and at the operations that have not completed. -/
theorem Inv.congr {strm : Stream pb} (h : l.Inv) (hwriting : strm.writing = l.strm.writing)
    (hhandlers : strm.writeQueue.handlers = l.strm.writeQueue.handlers)
    (hstarted : strm.started = l.strm.started) (hstoring : strm.storingCbs = l.strm.storingCbs)
    (hsending : ∀ b ∈ strm.sendingCbs, b ∈ l.strm.sendingCbs) : ({ l with strm } : StreamLog pb).Inv := by
  obtain ⟨sent, ws, stale, fresh, tail, hw⟩ := h.waiting
  obtain ⟨hq, hwrite, hbulk, hsplit, horder, hwire, hstore, hhanded⟩ := hw
  refine ⟨?_, ?_, h.success, ?_, ?_, sent, ws, stale, fresh, tail, ?_⟩
  · rw [hwriting, hhandlers]
    exact h.calls
  · rw [hstarted]
    exact h.numbers
  · rw [hwriting]
    exact h.writing
  · intro b hb
    rw [hwriting, hhandlers]
    exact h.sending b (hsending b hb)
  · refine ⟨hhandlers.trans hq, hwrite, hbulk, hsplit, horder, hwire, hstoring.trans hstore, ?_⟩
    rw [hwriting]
    exact hhanded

/-- The next operation completes at once. A bulk operation does so only when nothing is stored. -/
theorem Inv.next_completes (h : l.Inv) (hwriting : l.strm.writing = none)
    (hnext : l.strm.writeQueue.handlers = op :: rest)
    (hstored : op.state = .bulkWrite → l.strm.storingCbs = []) {ec : Option Errc}
    (hok : ec = none → ∃ cbs ∈ l.written, op.cbs <:+: cbs) {strm : Stream pb}
    (hwriting' : strm.writing = none) (hrest : strm.writeQueue.handlers = rest)
    (hstarted : strm.started = l.strm.started) (hstoring : strm.storingCbs = l.strm.storingCbs)
    (hsending : ∀ b ∈ strm.sendingCbs, b ∈ l.strm.sendingCbs) :
    ({ l with strm, completed := l.completed ++ [(op, ec)] } : StreamLog pb).Inv := by
  obtain ⟨sent, ws, stale, fresh, tail, hw⟩ := h.waiting
  have hcalls := h.calls
  rw [hwriting, hnext] at hcalls
  refine ⟨?_, ?_, ?_, ?_, ?_, ?_⟩
  · rw [hwriting', hrest]
    simpa using hcalls
  · rw [hstarted]
    exact h.numbers
  · intro op' hop'
    rcases List.mem_append.mp hop' with hop' | hop'
    · exact h.success op' hop'
    · obtain ⟨rfl, rfl⟩ := Prod.mk.injEq .. ▸ List.mem_singleton.mp hop'
      exact hok rfl
  · intro op' cbs hsome
    exact nomatch hwriting'.symm.trans hsome
  · intro b hb
    obtain ⟨op', cbs, hsome, -⟩ := h.sending b (hsending b hb)
    exact nomatch hwriting.symm.trans hsome
  -- what waits is what waited without the first operation
  · cases hstate : op.state with
    | write =>
      obtain ⟨ws, stale, fresh, tail, hw⟩ := hw.next_write hnext hstate
      refine ⟨sent, ws, stale, fresh, tail, ?_, ?_, hw.bulk, ?_, ?_, hw.wire,
        hstoring.trans hw.storing, ?_⟩
      · exact hrest.trans (List.cons_eq_cons.mp (hnext.symm.trans hw.handlers)).2
      · exact fun op' hop' => hw.write op' (List.mem_cons_of_mem _ hop')
      · exact hw.split.imp_right fun hnil => nomatch hnil
      · refine List.Sublist.trans ?_ hw.order
        exact (List.sublist_cons_self op _).append_left sent
      · intro op' hop'
        rw [hwriting']
        simpa [hwriting] using hw.handed op' hop'
    | bulkWrite =>
      rcases hw.next_bulk hnext hstate with ⟨stale, rfl, rfl⟩ | ⟨fresh, rfl, -, -⟩
      · refine ⟨sent, [], stale, fresh, tail, ?_, hw.write, ?_, .inr rfl, hw.order, hw.wire,
          hstoring.trans hw.storing, ?_⟩
        · exact hrest.trans (List.cons_eq_cons.mp (hnext.symm.trans hw.handlers)).2
        · exact fun op' hop' => hw.bulk op' (List.mem_cons_of_mem _ hop')
        · intro op' hop'
          rw [hwriting']
          simpa [hwriting] using hw.handed op' (List.mem_cons_of_mem _ hop')
      · have hnil := hw.storing.symm.trans (hstored hstate)
        exact absurd (List.append_eq_nil_iff.mp hnil).1 (cbs_ne_nil op)

/-- The next operation writes its own packet. -/
theorem Inv.next_writes (h : l.Inv) (hwriting : l.strm.writing = none)
    (hnext : l.strm.writeQueue.handlers = op :: rest) (hop : op.state = .write)
    {strm : Stream pb} (hwriting' : strm.writing = some (op, op.cbs))
    (hrest : strm.writeQueue.handlers = rest) (hstarted : strm.started = l.strm.started)
    (hstoring : strm.storingCbs = l.strm.storingCbs)
    (hsending : ∀ b ∈ strm.sendingCbs, b ∈ l.strm.sendingCbs) :
    ({ l with strm, wire := l.wire ++ op.cbs } : StreamLog pb).Inv := by
  obtain ⟨sent, ws, stale, fresh, tail, hw⟩ := h.waiting
  obtain ⟨ws, stale, fresh, tail, hw⟩ := hw.next_write hnext hop
  have hcalls := h.calls
  rw [hwriting, hnext] at hcalls
  refine ⟨?_, ?_, h.success, ?_, ?_, sent ++ [op], ws, stale, fresh, tail, ?_⟩
  · rw [hwriting', hrest]
    exact hcalls
  · rw [hstarted]
    exact h.numbers
  -- its buffers are its own
  · intro op' cbs hsome
    obtain ⟨rfl, rfl⟩ := Prod.mk.injEq .. ▸ Option.some.inj (hwriting'.symm.trans hsome)
    exact .inr (List.infix_refl _)
  -- no stored buffer is being written, since nothing was
  · intro b hb
    obtain ⟨op', cbs, hsome, -⟩ := h.sending b (hsending b hb)
    exact nomatch hwriting.symm.trans hsome
  -- the operations behind the first one are in the queue as before
  · refine ⟨?_, ?_, hw.bulk, ?_, ?_, ?_, hstoring.trans hw.storing, ?_⟩
    · exact hrest.trans (List.cons_eq_cons.mp (hnext.symm.trans hw.handlers)).2
    · exact fun op' hop' => hw.write op' (List.mem_cons_of_mem _ hop')
    · exact hw.split.imp_right fun hnil => nomatch hnil
    · rw [List.append_assoc]
      exact hw.order
    -- the buffers of the operation come behind those that are on the wire
    · rw [hw.wire, List.flatMap_append, List.flatMap_singleton]
    · intro op' hop'
      rcases hw.handed op' hop' with hdone | ⟨_, _, hsome, -⟩
      · exact .inl hdone
      · exact nomatch hwriting.symm.trans hsome

/-- The next operation writes the buffers that are stored. -/
theorem Inv.next_writes_stored (h : l.Inv) (hwriting : l.strm.writing = none)
    (hnext : l.strm.writeQueue.handlers = op :: rest) (hop : op.state = .bulkWrite)
    {strm : Stream pb} (hwriting' : strm.writing = some (op, l.strm.storingCbs))
    (hrest : strm.writeQueue.handlers = rest) (hstarted : strm.started = l.strm.started)
    (hstoring : strm.storingCbs = []) (hsending : strm.sendingCbs = l.strm.storingCbs) :
    ({ l with strm, wire := l.wire ++ l.strm.storingCbs } : StreamLog pb).Inv := by
  obtain ⟨sent, ws, stale, fresh, tail, hw⟩ := h.waiting
  have hcalls := h.calls
  rw [hwriting, hnext] at hcalls
  have hdone : ∀ op' ∈ stale, ∃ cbs ∈ l.written, op'.cbs <:+: cbs := by
    intro op' hop'
    rcases hw.handed op' hop' with hdone | ⟨_, _, hsome, -⟩
    · exact hdone
    · exact nomatch hwriting.symm.trans hsome
  have hfresh : ∀ op' ∈ fresh, op'.cbs <:+: l.strm.storingCbs := fun op' hop' =>
    hw.storing ▸ cbs_infix hop'
  have hhandlers := hw.handlers
  have hstates := hw.bulk
  have horder := hw.order
  -- the buffers are those of `fresh`, and the first operation is one of `fresh` or is left over
  have hfirst : ws = [] ∧ op ∈ stale ++ fresh ∧ rest = (stale ++ fresh).tail ++ tail := by
    rcases hw.next_bulk hnext hop with ⟨stale', rfl, rfl⟩ | ⟨fresh', rfl, rfl, rfl⟩
    · have hrest := (List.cons_eq_cons.mp (hnext.symm.trans hhandlers)).2
      exact ⟨rfl, by simp, by simpa using hrest⟩
    · have hrest := (List.cons_eq_cons.mp (hnext.symm.trans hhandlers)).2
      exact ⟨rfl, by simp, by simpa using hrest⟩
  obtain ⟨rfl, hmem, hrest'⟩ := hfirst
  refine ⟨?_, ?_, h.success, ?_, ?_, sent ++ fresh, [], (stale ++ fresh).tail, [], tail, ?_⟩
  · rw [hwriting', hrest]
    exact hcalls
  · rw [hstarted]
    exact h.numbers
  · intro op' cbs hsome
    obtain ⟨rfl, rfl⟩ := Prod.mk.injEq .. ▸ Option.some.inj (hwriting'.symm.trans hsome)
    exact (List.mem_append.mp hmem).imp (hdone op) (hfresh op)
  · intro b hb
    refine ⟨op, _, hwriting', hop, ?_⟩
    rw [hsending, hw.storing] at hb
    obtain ⟨op', hop', hnumber⟩ := mem_flatMap_cbs hb
    refine ⟨op', ?_, hnumber⟩
    rw [hrest, ← hnext, hhandlers]
    simp [hop']
  · refine ⟨?_, ?_, ?_, .inr rfl, ?_, ?_, hstoring, ?_⟩
    · simpa [hrest] using hrest'
    · exact hw.write
    · rw [List.append_nil]
      exact fun op' hop' => hstates op' (List.mem_of_mem_tail hop')
    · simpa using horder
    · rw [hw.wire, List.flatMap_append, hw.storing]
    · intro op' hop'
      rcases List.mem_append.mp (List.mem_of_mem_tail hop') with hop' | hop'
      · exact .inl (hdone op' hop')
      · exact .inr ⟨op, _, hwriting', hop, hfresh op' hop'⟩

/-- A bulk operation that finds nothing stored has been written with another one. -/
theorem Inv.next_handed (h : l.Inv) (hwriting : l.strm.writing = none)
    (hnext : l.strm.writeQueue.handlers = op :: rest) (hop : op.state = .bulkWrite)
    (hstored : l.strm.storingCbs = []) : ∃ cbs ∈ l.written, op.cbs <:+: cbs := by
  obtain ⟨sent, ws, stale, fresh, tail, hw⟩ := h.waiting
  rcases hw.next_bulk hnext hop with ⟨stale, rfl, -⟩ | ⟨fresh, rfl, -, -⟩
  · rcases hw.handed op List.mem_cons_self with hdone | ⟨_, _, hsome, -⟩
    · exact hdone
    · exact nomatch hwriting.symm.trans hsome
  · have hnil := hw.storing.symm.trans hstored
    exact absurd (List.append_eq_nil_iff.mp hnil).1 (cbs_ne_nil op)

theorem record_nil (strm : Stream pb) : l.record (strm, []) = { l with strm } := by
  simp [record]

theorem record_asyncWrite (strm : Stream pb) (cbs : List ConstBuffer) :
    l.record (strm, [.asyncWrite cbs]) = { l with strm, wire := l.wire ++ cbs } := by
  simp [record, StreamEvent.handed, StreamEvent.completion?]

theorem record_complete (strm : Stream pb) (ec : Option Errc) (size : Nat) :
    l.record (strm, [.complete op ec size]) =
      { l with strm, completed := l.completed ++ [(op, ec)] } := by
  simp [record, StreamEvent.handed, StreamEvent.completion?]

/-- Going on with the queue when no write is under way. -/
theorem Inv.resume (h : l.Inv) (hwriting : l.strm.writing = none)
    (hopen : l.strm.bulkNext → l.strm.isOpen ∨ l.strm.storingCbs = []) :
    (l.record (l.strm.resume l.strm.writeQueue.pollOne)).Inv := by
  cases hnext : l.strm.writeQueue.handlers with
  | nil =>
    simp only [IocQueue.pollOne, hnext, Stream.resume]
    rw [record_nil]
    exact h.congr rfl hnext.symm rfl rfl fun _ hb => hb
  -- the first operation of the queue goes on
  | cons op rest =>
    have hbulk : op.state = .bulkWrite → l.strm.isOpen ∨ l.strm.storingCbs = [] := by
      intro hop
      apply hopen
      simp [Stream.bulkNext, hnext, hop]
    simp only [IocQueue.pollOne, hnext, Stream.resume, Stream.execute]
    by_cases hisOpen : l.strm.isOpen = true
    -- the stream is closed, and the operation completes with an error
    case neg =>
      have hstored : op.state = .bulkWrite → l.strm.storingCbs = [] := fun hop =>
        (hbulk hop).resolve_left hisOpen
      rw [if_neg hisOpen, Stream.complete, record_complete]
      refine h.next_completes hwriting hnext hstored ?_ ?_ ?_ ?_ ?_ ?_
      · exact fun hec => nomatch hec
      · exact hwriting
      · rfl
      · rfl
      · rfl
      · exact fun _ hb => hb
    rw [if_pos hisOpen]
    cases hstate : op.state with
    | write =>
      rw [record_asyncWrite]
      exact h.next_writes hwriting hnext hstate rfl rfl rfl rfl fun _ hb => hb
    | bulkWrite =>
      -- its buffers may have been written already, together with those of an earlier one
      by_cases hstored : l.strm.storingCbs = []
      · rw [if_pos hstored, Stream.complete, record_complete]
        refine h.next_completes hwriting hnext (fun _ => hstored) ?_ ?_ ?_ ?_ ?_ ?_
        · exact fun _ => h.next_handed hwriting hnext hstate hstored
        · exact hwriting
        · rfl
        · rfl
        · rfl
        · exact fun _ hb => nomatch hb
      · rw [if_neg hstored, record_asyncWrite]
        exact h.next_writes_stored hwriting hnext hstate rfl rfl rfl rfl rfl

/-! ### The inputs -/

/-- If only bulk operations wait behind a bulk operation, none that writes for itself is last. -/
theorem Waiting.no_tail (h : l.Waiting sent ws stale fresh tail) (hlast : l.strm.bulkLast) :
    ∃ ws stale fresh, l.Waiting sent ws stale fresh [] := by
  obtain ⟨hhandlers, hwrite, hbulk, hsplit, horder, hwire, hstoring, hhanded⟩ := h
  by_cases hnone : stale ++ fresh = []
  · obtain ⟨rfl, rfl⟩ := List.append_eq_nil_iff.mp hnone
    exact ⟨ws ++ tail, [], [], by simpa using hhandlers, by simpa using hwrite, nofun, .inl rfl,
      by simpa using horder, hwire, hstoring, nofun⟩
  · obtain ⟨op, ops, hcons⟩ := List.exists_cons_of_ne_nil hnone
    have hdrop : l.strm.writeQueue.handlers.dropWhile (·.state = .write) =
        (stale ++ fresh) ++ tail := by
      rw [hhandlers, List.dropWhile_append_of_pos fun op hop => by
        simpa using hwrite op (List.mem_append_left tail hop)]
      rw [← List.append_assoc, hcons, List.cons_append, List.dropWhile_cons_of_neg]
      have hop : op.state = .bulkWrite := hbulk op (by rw [hcons]; exact List.mem_cons_self)
      simp [hop]
    have htail : tail = [] := by
      refine List.eq_nil_iff_forall_not_mem.mpr fun op hop => ?_
      rw [Stream.bulkLast, hdrop, List.all_append, Bool.and_eq_true_iff, List.all_eq_true] at hlast
      have hop' := List.all_eq_true.mp hlast.2 op hop
      rw [decide_eq_true_iff, hwrite op (List.mem_append_right ws hop)] at hop'
      exact nomatch hop'
    subst htail
    exact ⟨ws, stale, fresh, hhandlers, hwrite, hbulk, hsplit, horder, hwire, hstoring, hhanded⟩

/-- Another operation joins those that wait. -/
theorem Inv.post (h : l.Inv) {packet : PacketVariant pb} {strm : Stream pb}
    (hlast : (l.strm.newOp packet).state = .bulkWrite → l.strm.bulkLast)
    (hwriting : strm.writing = l.strm.writing)
    (hhandlers : strm.writeQueue.handlers =
      l.strm.writeQueue.handlers ++ [l.strm.newOp packet])
    (hstarted : strm.started = l.strm.started + 1)
    (hstoring : strm.storingCbs = match (l.strm.newOp packet).state with
      | .write => l.strm.storingCbs
      | .bulkWrite => l.strm.storingCbs ++ (l.strm.newOp packet).cbs)
    (hsending : strm.sendingCbs = l.strm.sendingCbs) :
    ({ l with strm, calls := l.calls ++ [l.strm.newOp packet] } : StreamLog pb).Inv := by
  obtain ⟨sent, ws, stale, fresh, tail, hw⟩ := h.waiting
  refine ⟨?_, ?_, h.success, ?_, ?_, ?_⟩
  · rw [hwriting, hhandlers, h.calls]
    -- the new operation is the last of those that have been called
    simp
  · rw [hstarted, List.range_succ, List.map_append, h.numbers]
    rfl
  · rw [hwriting]
    exact h.writing
  · intro b hb
    obtain ⟨op, cbs, hsome, hop, op', hop', hnumber⟩ := h.sending b (hsending ▸ hb)
    refine ⟨op, cbs, hwriting.trans hsome, hop, op', ?_, hnumber⟩
    rw [hhandlers]
    exact List.mem_append_left [l.strm.newOp packet] hop'
  · have horder : (sent ++ (ws ++ (fresh ++ (tail ++ [l.strm.newOp packet])))).Sublist
        (l.calls ++ [l.strm.newOp packet]) := by
      simpa using hw.order.append_right [l.strm.newOp packet]
    -- a single write waits at the end, a bulk write is put into the next batch
    cases hstate : (l.strm.newOp packet).state with
    | write =>
      rw [hstate] at hstoring
      refine ⟨sent, ws, stale, fresh, tail ++ [l.strm.newOp packet], ?_, ?_, hw.bulk, hw.split,
        horder, hw.wire, hstoring.trans hw.storing, ?_⟩
      · rw [hhandlers, hw.handlers]
        simp
      · intro op hop
        rw [← List.append_assoc] at hop
        rcases List.mem_append.mp hop with hop | hop
        · exact hw.write op hop
        · exact List.mem_singleton.mp hop ▸ hstate
      · rw [hwriting]
        exact hw.handed
    | bulkWrite =>
      rw [hstate] at hstoring
      obtain ⟨ws, stale, fresh, hw⟩ := hw.no_tail (hlast hstate)
      refine ⟨sent, ws, stale, fresh ++ [l.strm.newOp packet], [], ?_, hw.write, ?_, hw.split,
        ?_, hw.wire, ?_, ?_⟩
      · rw [hhandlers, hw.handlers]
        simp
      · intro op hop
        rw [← List.append_assoc] at hop
        rcases List.mem_append.mp hop with hop | hop
        · exact hw.bulk op hop
        · exact List.mem_singleton.mp hop ▸ hstate
      · simpa using hw.order.append_right [l.strm.newOp packet]
      · rw [hstoring, hw.storing, List.flatMap_append, List.flatMap_singleton]
      · rw [hwriting]
        exact hw.handed

/-- The write that is under way comes to its end. -/
theorem Inv.written (h : l.Inv) {cbs : List ConstBuffer} (hwriting : l.strm.writing = some (op, cbs))
    {ec : Option Errc} (hec : ec = none ∨ op.state = .write) {strm : Stream pb}
    {done : List (List ConstBuffer)} (hdone : ec = none → done = [cbs])
    (hwriting' : strm.writing = none)
    (hhandlers : strm.writeQueue.handlers = l.strm.writeQueue.handlers)
    (hstarted : strm.started = l.strm.started) (hstoring : strm.storingCbs = l.strm.storingCbs)
    (hsending : ec ≠ none → strm.sendingCbs = l.strm.sendingCbs)
    (hcleared : ec = none → strm.sendingCbs = []) :
    ({ l with
        strm, written := l.written ++ done
        completed := l.completed ++ [(op, ec)] } : StreamLog pb).Inv := by
  obtain ⟨sent, ws, stale, fresh, tail, hw⟩ := h.waiting
  have hold : ∀ op' : StreamWritePacketOp pb, (∃ cbs ∈ l.written, op'.cbs <:+: cbs) →
      ∃ cbs ∈ l.written ++ done, op'.cbs <:+: cbs := fun op' ⟨cbs, hcbs, hop'⟩ =>
    ⟨cbs, List.mem_append_left _ hcbs, hop'⟩
  have hnew : ec = none → ∀ op' : StreamWritePacketOp pb, op'.cbs <:+: cbs →
      ∃ cbs ∈ l.written ++ done, op'.cbs <:+: cbs := by
    intro hnone op' hop'
    rw [hdone hnone]
    exact ⟨cbs, List.mem_append_right _ List.mem_cons_self, hop'⟩
  refine ⟨?_, ?_, ?_, ?_, ?_, sent, ws, stale, fresh, tail, ?_⟩
  · rw [hwriting', hhandlers, h.calls, hwriting]
    simp
  · rw [hstarted]
    exact h.numbers
  · intro op' hop'
    rcases List.mem_append.mp hop' with hop' | hop'
    · exact hold op' (h.success op' hop')
    · obtain ⟨rfl, rfl⟩ := Prod.mk.injEq .. ▸ List.mem_singleton.mp hop'
      exact (h.writing op' cbs hwriting).elim (hold op') (hnew rfl op')
  · intro op' cbs hsome
    exact nomatch hwriting'.symm.trans hsome
  -- a write that fails was one of a single packet, and nothing was being sent in bulk
  · intro b hb
    cases hcase : ec with
    | none =>
      rw [hcleared hcase] at hb
      exact nomatch hb
    | some ec' =>
      rw [hsending (hcase ▸ nofun)] at hb
      obtain ⟨op', cbs', hsome, hbulk, -⟩ := h.sending b hb
      obtain ⟨rfl, rfl⟩ := Prod.mk.injEq .. ▸ Option.some.inj (hwriting.symm.trans hsome)
      have hwrite := hec.resolve_left (hcase ▸ nofun)
      exact nomatch hwrite.symm.trans hbulk
  · refine ⟨hhandlers.trans hw.handlers, hw.write, hw.bulk, hw.split, hw.order, hw.wire,
      hstoring.trans hw.storing, ?_⟩
    intro op' hop'
    rcases hw.handed op' hop' with hdone | ⟨op'', cbs', hsome, hbulk, hinfix⟩
    · exact .inl (hold op' hdone)
    · obtain ⟨rfl, rfl⟩ := Prod.mk.injEq .. ▸ Option.some.inj (hwriting.symm.trans hsome)
      refine .inl (hnew (hec.resolve_right fun hwrite => ?_) op' hinfix)
      exact nomatch hwrite.symm.trans hbulk

end StreamLog

namespace Stream

variable {pb : PacketIdBytes}

/-- At most one operation is at work: it is writing, or the handler that goes on with the queue
    is posted. Nothing waits if there is none. -/
structure OneAtATime (strm : Stream pb) : Prop where
  writing : strm.writing.isSome → strm.posted = 0 ∧ strm.writeQueue.working
  posted : strm.posted ≤ 1
  working : 0 < strm.posted → strm.writeQueue.working
  idle : strm.writeQueue.immediateExecutable → strm.writeQueue.handlers = []

theorem oneAtATime_make : (make : Stream pb).OneAtATime :=
  ⟨nofun, Nat.zero_le 1, nofun, fun _ => rfl⟩

theorem not_immediateExecutable {α : Type} {q : IocQueue α} (h : q.working) :
    ¬ q.immediateExecutable := by
  simp [IocQueue.immediateExecutable, h]

/-- An operation that ends posts the handler that goes on. -/
theorem OneAtATime.complete {strm : Stream pb} (hwriting : strm.writing = none)
    (hposted : strm.posted = 0) (hworking : strm.writeQueue.working)
    (op : StreamWritePacketOp pb) (ec : Option Errc) (bytesTransferred : Nat) :
    (strm.complete op ec bytesTransferred).1.OneAtATime := by
  have hnot : ¬ strm.writing.isSome := by simp [hwriting]
  cases ec with
  | none | some ec =>
    refine ⟨fun h => absurd h hnot, ?_, fun _ => hworking, fun h => ?_⟩
    · simp [Stream.complete, hposted]
    · exact absurd h (not_immediateExecutable hworking)

/-- An operation that begins is the one at work. -/
theorem OneAtATime.execute {strm : Stream pb} (hwriting : strm.writing = none)
    (hposted : strm.posted = 0) (op : StreamWritePacketOp pb) :
    (strm.execute op).1.OneAtATime := by
  have hwrites : ∀ strm' : Stream pb, strm'.posted = strm.posted → strm'.writeQueue.working →
      strm'.OneAtATime := by
    intro strm' hposted' hworking
    exact ⟨fun _ => ⟨hposted'.trans hposted, hworking⟩, by omega, fun _ => hworking,
      fun h => absurd h (not_immediateExecutable hworking)⟩
  unfold Stream.execute
  dsimp only
  split
  · split
    · exact hwrites _ rfl rfl
    · split
      · apply OneAtATime.complete
        · exact hwriting
        · exact hposted
        · rfl
      · exact hwrites _ rfl rfl
  · apply OneAtATime.complete
    · exact hwriting
    · exact hposted
    · rfl

theorem OneAtATime.resume {strm : Stream pb} (hwriting : strm.writing = none)
    (hposted : strm.posted = 0) (q : IocQueue (StreamWritePacketOp pb)) :
    (strm.resume q.pollOne).1.OneAtATime := by
  unfold IocQueue.pollOne
  split
  · next hnil =>
    refine ⟨?_, ?_, ?_, fun _ => hnil⟩
    · simp [Stream.resume, hwriting]
    · simp [Stream.resume, hposted]
    · simp [Stream.resume, hposted]
  · apply OneAtATime.execute
    · exact hwriting
    · exact hposted

/-- If nobody is at work, then no write is under way and no handler is posted. -/
theorem OneAtATime.not_working {strm : Stream pb} (h : strm.OneAtATime)
    (himm : strm.writeQueue.immediateExecutable) : strm.writing = none ∧ strm.posted = 0 := by
  have hnot : ¬ strm.writeQueue.working := fun hworking => not_immediateExecutable hworking himm
  refine ⟨?_, ?_⟩
  · cases hwriting : strm.writing with
    | none => rfl
    | some w => exact absurd (h.writing (by rw [hwriting]; rfl)).2 hnot
  · by_contra hposted
    exact hnot (h.working (Nat.pos_of_ne_zero hposted))

/-- If a handler is posted, then no write is under way, and no other one is posted. -/
theorem OneAtATime.of_posted {strm : Stream pb} (h : strm.OneAtATime) {posted : Nat}
    (hposted : strm.posted = posted + 1) : strm.writing = none ∧ posted = 0 := by
  refine ⟨?_, ?_⟩
  · cases hwriting : strm.writing with
    | none => rfl
    | some w =>
      have hzero := (h.writing (by rw [hwriting]; rfl)).1
      omega
  · have hle := h.posted
    omega

theorem OneAtATime.call {strm : Stream pb} (h : strm.OneAtATime) (i : Input pb) :
    (strm.call i).1.OneAtATime := by
  cases i with
  | asyncWritePacket packet =>
    rw [Stream.call, asyncWritePacket, IocQueue.tryExecute]
    -- the operation starts at once if none is under way
    by_cases himm : strm.writeQueue.immediateExecutable = true
    · obtain ⟨hwriting, hposted⟩ := h.not_working himm
      rw [if_pos (by exact himm)]
      apply OneAtATime.resume
      · exact hwriting
      · exact hposted
    · rw [if_neg (by exact himm)]
      exact ⟨h.writing, h.posted, h.working, fun himm' => absurd himm' himm⟩
  | setBulkWrite val | setOpen val | closed => exact ⟨h.writing, h.posted, h.working, h.idle⟩
  | written ec bytesTransferred =>
    rw [Stream.call]
    split
    · exact h
    · next op cbs hwriting =>
      obtain ⟨hposted, hworking⟩ := h.writing (by rw [hwriting]; rfl)
      apply OneAtATime.complete
      · rfl
      · exact hposted
      · exact hworking
  -- the operation that was posted goes on
  | poll =>
    rw [Stream.call]
    split
    · exact h
    · next posted hposted =>
      obtain ⟨hwriting, hzero⟩ := h.of_posted hposted
      apply OneAtATime.resume
      · exact hwriting
      · exact hzero

end Stream

namespace StreamLog

variable {pb : PacketIdBytes} {l : StreamLog pb}

/-- An operation begins: it joins the others, and goes on at once if there are none. -/
theorem Inv.asyncWritePacket (h : l.Inv) (hone : l.strm.OneAtATime) {packet : PacketVariant pb}
    (hlast : (l.strm.newOp packet).state = .bulkWrite → l.strm.bulkLast) :
    ({ l with calls := l.calls ++ [l.strm.newOp packet] } : StreamLog pb).record
      (l.strm.asyncWritePacket packet) |>.Inv := by
  let strm : Stream pb := { l.strm with
    started := l.strm.started + 1
    storingCbs := match (l.strm.newOp packet).state with
      | .write => l.strm.storingCbs
      | .bulkWrite => l.strm.storingCbs ++ (l.strm.newOp packet).cbs
    writeQueue := l.strm.writeQueue.post (l.strm.newOp packet) }
  have hpost : ({ l with strm, calls := l.calls ++ [l.strm.newOp packet] } : StreamLog pb).Inv :=
    h.post hlast rfl rfl rfl rfl rfl
  rw [Stream.asyncWritePacket, IocQueue.tryExecute]
  by_cases himm : l.strm.writeQueue.immediateExecutable = true
  · rw [if_pos (by exact himm)]
    have hhandlers : strm.writeQueue.handlers = [l.strm.newOp packet] := by
      change l.strm.writeQueue.handlers ++ _ = _
      rw [hone.idle himm, List.nil_append]
    have hnext : ¬ strm.bulkNext := by
      simp [Stream.bulkNext, hhandlers, Stream.newOp, himm]
    exact hpost.resume (hone.not_working himm).1 fun hbulk => absurd hbulk hnext
  · rw [if_neg (by exact himm), Stream.resume, record_nil]
    exact hpost

theorem step_of_silent {i : Stream.Input pb} (hstarts : l.strm.starts i = [])
    (hsucceeds : l.strm.succeeds i = []) : l.step i = l.record (l.strm.call i) := by
  rw [step, hstarts, hsucceeds, List.append_nil, List.append_nil]

/-- An orderly input keeps the invariant. -/
theorem Inv.step (h : l.Inv) (hone : l.strm.OneAtATime) {i : Stream.Input pb}
    (hi : l.strm.Orderly i) : (l.step i).Inv := by
  cases i with
  -- a call is recorded, and it starts an operation
  | asyncWritePacket packet =>
    have hstep : l.step (.asyncWritePacket packet) =
        ({ l with calls := l.calls ++ [l.strm.newOp packet] } : StreamLog pb).record
          (l.strm.asyncWritePacket packet) := by
      simp [StreamLog.step, Stream.starts, Stream.succeeds, Stream.call]
    rw [hstep]
    exact h.asyncWritePacket hone hi
  | setBulkWrite val | setOpen val =>
    rw [step_of_silent rfl rfl, Stream.call, record_nil]
    exact h.congr rfl rfl rfl rfl fun _ hb => hb
  | closed =>
    rw [step_of_silent rfl rfl, Stream.call, record_nil]
    exact h.congr rfl rfl rfl hi.symm nofun
  | written ec bytesTransferred =>
    cases hwriting : l.strm.writing with
    -- nothing is being written, so that nothing completes
    | none =>
      have hsucceeds : l.strm.succeeds (.written ec bytesTransferred) = [] := by
        cases ec <;> simp [Stream.succeeds, hwriting]
      rw [step_of_silent rfl hsucceeds, Stream.call, hwriting, record_nil]
      exact h
    | some w =>
      obtain ⟨op, cbs⟩ := w
      have hstep : l.step (.written ec bytesTransferred) =
          ({ l with
              written := l.written ++ l.strm.succeeds (.written ec bytesTransferred) } :
            StreamLog pb).record
          (({ l.strm with writing := none } : Stream pb).complete op ec bytesTransferred) := by
        simp [StreamLog.step, Stream.starts, Stream.call, hwriting]
      rw [hstep]
      cases ec with
      | none =>
        rw [Stream.complete, record_complete]
        exact h.written hwriting (.inl rfl) (fun _ => by simp [Stream.succeeds, hwriting]) rfl rfl
          rfl rfl (fun hne => absurd rfl hne) fun _ => rfl
      | some ec =>
        -- an error in a bulk write is not orderly
        have hop : op.state = .write := by
          cases hstate : op.state with
          | write => rfl
          | bulkWrite => exact absurd (by simp [Stream.bulkUnderWay, hwriting, hstate]) hi
        rw [Stream.complete, record_complete]
        exact h.written hwriting (.inr hop) nofun rfl rfl rfl rfl (fun _ => rfl) nofun
  | poll =>
    rw [step_of_silent rfl rfl, Stream.call]
    split
    · rw [record_nil]
      exact h
    · next posted hposted =>
      obtain ⟨hwriting, hzero⟩ := hone.of_posted hposted
      have hsame : ({ l with strm := { l.strm with posted } } : StreamLog pb).Inv :=
        h.congr rfl rfl rfl rfl fun _ hb => hb
      exact hsame.resume hwriting (hi (by omega))

/-- What every orderly run keeps. -/
theorem final_inv {is : List (Stream.Input pb)}
    (his : Run.All step (fun l i => l.strm.Orderly i) make is) :
    (Run.final step make is).Inv ∧ (Run.final step make is).strm.OneAtATime := by
  refine Run.final_invariant (Q := fun l => l.Inv ∧ l.strm.OneAtATime) (fun l i hi h => ?_)
    ⟨inv_make, Stream.oneAtATime_make⟩ his
  exact ⟨h.1.step h.2 hi, h.2.call i⟩

/-- In an orderly run bulk writing is transparent. -/
theorem bulk_write_transparent (is : List (Stream.Input pb))
    (his : Run.All step (fun l i => l.strm.Orderly i) make is) :
    (Run.final step make is).Transparent :=
  (final_inv his).1.transparent

/-- Three packets, of which the last two are written in bulk. -/
theorem bulk_write_three :
    let p : PacketVariant .two := .v311Pingreq (.make .pingreq)
    (Run.final step make [.setOpen true, .setBulkWrite true, .asyncWritePacket p,
      .asyncWritePacket p, .asyncWritePacket p, .written none 2, .poll, .written none 4,
      .poll]).Transparent := by
  intro p
  apply bulk_write_transparent
  simp only [Run.all_cons]
  refine ⟨trivial, trivial, ?_, ?_, ?_, trivial, ?_, trivial, ?_, Run.all_nil⟩
  all_goals decide

/-- The write of two packets in bulk fails. The operation of the first one reports it, and the
    one of the second, which finds nothing stored, reports that it succeeded. -/
theorem failed_bulk_write :
    let p : PacketVariant .two := .v311Pingreq (.make .pingreq)
    ¬ (Run.final step make [.setOpen true, .setBulkWrite true, .asyncWritePacket p,
      .asyncWritePacket p, .asyncWritePacket p, .written none 2, .poll,
      .written (some .connectionReset) 0, .poll]).Transparent := by
  intro p h
  exact absurd (h.success ⟨2, p, .bulkWrite⟩ (by decide)) (by decide)

/-- Of four packets that wait the first and the last are written in bulk: the last one overtakes
    the third, which is not. -/
theorem toggled_bulk_write :
    let p : PacketVariant .two := .v311Pingreq (.make .pingreq)
    ¬ (Run.final step make [.setOpen true, .setBulkWrite true, .asyncWritePacket p,
      .asyncWritePacket p, .setBulkWrite false, .asyncWritePacket p, .setBulkWrite true,
      .asyncWritePacket p, .written none 2, .poll, .written none 4, .poll]).Transparent := by
  intro p h
  obtain ⟨ops, hops, hwire⟩ := h.inOrder
  let all : List (StreamWritePacketOp .two) :=
    [⟨0, p, .write⟩, ⟨1, p, .bulkWrite⟩, ⟨2, p, .write⟩, ⟨3, p, .bulkWrite⟩]
  have hall : ops ∈ all.sublists := List.mem_sublists.mpr hops
  have hnone : ∀ ops ∈ all.sublists,
      [0, 1, 3, 2].map (ConstBuffer.mk · [0xC0, 0]) ≠ ops.flatMap StreamWritePacketOp.cbs := by
    decide
  -- what is on the wire, in the order of the writes
  have hfour : (Run.final step make [.setOpen true, .setBulkWrite true, .asyncWritePacket p,
      .asyncWritePacket p, .setBulkWrite false, .asyncWritePacket p, .setBulkWrite true,
      .asyncWritePacket p, .written none 2, .poll, .written none 4, .poll]).wire =
      [0, 1, 3, 2].map (ConstBuffer.mk · [0xC0, 0]) := by
    decide +kernel
  exact hnone ops hall (hfour.symm.trans hwire)

end StreamLog

end AsyncMqtt
