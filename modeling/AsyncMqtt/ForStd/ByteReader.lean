import Mathlib.Data.List.Basic

/-!
# Bounds-checked byte readers

A reader peels values off the front of a byte buffer. It ends in a value and
the bytes it left, in an error of its own, or in an access outside the buffer.
The last outcome is kept apart from the errors, so that "this reader never
looks outside its buffer" is a statement about the reader's result.

## Key results

- `ByteReader.Safe`: the run of a reader on a buffer stays inside the buffer
- `ByteReader.safe_bind`: safety of a sequence of two readers
- `ByteReader.run_bind_ok`: a sequence that succeeds is two readers that do
- `ByteReader.FailsWith`: which errors a reader can report
-/

/-- Why a reader stopped without a value. -/
inductive Stop (ε : Type) where
  /-- the reader reported an error -/
  | error (e : ε)
  /-- the reader accessed a position outside the buffer -/
  | outOfBounds
  deriving DecidableEq, Repr

/-- A reader of values of type `α` with errors of type `ε`. -/
def ByteReader (ε α : Type) : Type :=
  List UInt8 → Except (Stop ε) (α × List UInt8)

namespace ByteReader

variable {ε α β : Type}

/-- Run a reader on a buffer. -/
def run (r : ByteReader ε α) (buf : List UInt8) : Except (Stop ε) (α × List UInt8) :=
  r buf

/-- Readers in sequence: each goes on where the one before has stopped. -/
instance : Monad (ByteReader ε) where
  pure a := fun buf => .ok (a, buf)
  bind r f := fun buf =>
    match r buf with
    | .ok (a, rest) => f a rest
    | .error e => .error e

/-! ### Primitive readers -/

/-- Stop with an error. -/
def fail (e : ε) : ByteReader ε α :=
  fun _ => .error (.error e)

/-- The whole buffer, which is not consumed. -/
def remaining : ByteReader ε (List UInt8) :=
  fun buf => .ok (buf, buf)

/-- The first byte, which is not consumed; there must be one. -/
def front : ByteReader ε UInt8 :=
  fun buf => match buf with
    | [] => .error .outOfBounds
    | b :: rest => .ok (b, b :: rest)

/-- The byte at position `i`, which must exist. -/
def getAt (i : Nat) : ByteReader ε UInt8 :=
  fun buf => match buf[i]? with
    | none => .error .outOfBounds
    | some b => .ok (b, buf)

/-- Drop `n` bytes, which must be there. -/
def removePrefix (n : Nat) : ByteReader ε Unit :=
  fun buf => if n ≤ buf.length then .ok ((), buf.drop n) else .error .outOfBounds

/-- The `count` bytes (or as many as there are) from position `pos`, which must
    lie in the buffer or at its end. Nothing is consumed. -/
def substr (pos count : Nat) : ByteReader ε (List UInt8) :=
  fun buf => if pos ≤ buf.length then .ok ((buf.drop pos).take count, buf)
    else .error .outOfBounds

/-- Run a reader on a buffer of its own; the current buffer is not consumed. -/
def onBuffer (bs : List UInt8) (r : ByteReader ε α) : ByteReader ε α :=
  fun buf => match r bs with
    | .ok (a, _) => .ok (a, buf)
    | .error e => .error e

/-- The loop of `many`. The fuel is a bound on the number of rounds. -/
def many.go (r : ByteReader ε α) : Nat → ByteReader ε (List α)
  | 0 => pure []
  | fuel + 1 => do
    let buf ← remaining
    if buf = [] then pure []
    else
      let a ← r
      let as ← many.go r fuel
      pure (a :: as)

/-- Read values until the buffer is empty. Every round is to consume a byte, so
    the length of the buffer bounds the rounds. -/
def many (r : ByteReader ε α) : ByteReader ε (List α) := do
  let buf ← remaining
  many.go r buf.length

/-! ### Runs of the primitive readers -/

/-- Nothing is read. -/
@[simp] theorem run_pure (a : α) (buf : List UInt8) :
    (pure a : ByteReader ε α).run buf = .ok (a, buf) := rfl

/-- The reader fails with its error. -/
@[simp] theorem run_fail (e : ε) (buf : List UInt8) :
    (fail e : ByteReader ε α).run buf = .error (.error e) := rfl

/-- The rest is looked at, not taken. -/
@[simp] theorem run_remaining (buf : List UInt8) :
    (remaining : ByteReader ε _).run buf = .ok (buf, buf) := rfl

/-- The first byte is looked at, not taken. -/
@[simp] theorem run_front_cons (b : UInt8) (rest : List UInt8) :
    (front : ByteReader ε _).run (b :: rest) = .ok (b, b :: rest) := rfl

/-- There is no first byte. -/
@[simp] theorem run_front_nil : (front : ByteReader ε _).run [] = .error .outOfBounds := rfl

/-- So many bytes are skipped if they are there. -/
theorem run_removePrefix {n : Nat} {buf : List UInt8} (h : n ≤ buf.length) :
    (removePrefix n : ByteReader ε _).run buf = .ok ((), buf.drop n) := by
  simp [run, removePrefix, h]

/-- What is left after bytes were skipped -/
theorem run_removePrefix_ok {n : Nat} {buf rest : List UInt8} {u : Unit}
    (h : (removePrefix n : ByteReader ε Unit).run buf = .ok (u, rest)) : rest = buf.drop n := by
  unfold run removePrefix at h
  split at h
  · cases h
    rfl
  · exact nomatch h

/-- Looking at the first byte takes nothing. -/
theorem run_front_ok {b : UInt8} {buf rest : List UInt8}
    (h : (front : ByteReader ε UInt8).run buf = .ok (b, rest)) : rest = buf := by
  cases buf with
  | nil => exact nomatch h
  | cons b' tail =>
    cases h
    rfl

/-- Looking at a byte takes nothing, and the byte is there. -/
theorem run_getAt_ok {i : Nat} {b : UInt8} {buf rest : List UInt8}
    (h : (getAt i : ByteReader ε UInt8).run buf = .ok (b, rest)) :
    buf[i]? = some b ∧ rest = buf := by
  unfold run getAt at h
  split at h
  · exact nomatch h
  · next hget =>
    cases h
    exact ⟨hget, rfl⟩

/-- One byte is skipped. -/
@[simp] theorem run_removePrefix_one_cons (b : UInt8) (rest : List UInt8) :
    (removePrefix 1 : ByteReader ε _).run (b :: rest) = .ok ((), rest) := by
  simp [run, removePrefix]

/-- Dropping exactly the bytes in front leaves what follows them. -/
theorem run_removePrefix_append {n : Nat} {bs rest : List UInt8} (h : bs.length = n) :
    (removePrefix n : ByteReader ε _).run (bs ++ rest) = .ok ((), rest) := by
  subst h
  simp [run, removePrefix]

/-- A part of the buffer is looked at, from a position inside it. -/
theorem run_substr {pos count : Nat} {buf : List UInt8} (h : pos ≤ buf.length) :
    (substr pos count : ByteReader ε _).run buf = .ok ((buf.drop pos).take count, buf) := by
  simp [run, substr, h]

/-- Looking at exactly the bytes in front gives them. -/
theorem run_substr_append {n : Nat} {bs rest : List UInt8} (h : bs.length = n) :
    (substr 0 n : ByteReader ε _).run (bs ++ rest) = .ok (bs, bs ++ rest) := by
  subst h
  simp [run, substr]

/-! ### Sequences -/

/-- The second reader runs on what the first one has left. -/
theorem run_bind (r : ByteReader ε α) (f : α → ByteReader ε β) (buf : List UInt8) :
    (r >>= f).run buf =
      match r.run buf with
      | .ok (a, rest) => (f a).run rest
      | .error e => .error e := rfl

/-- After a reader that succeeds, the run continues with what it left. -/
theorem run_bind_of_ok {r : ByteReader ε α} {f : α → ByteReader ε β} {buf rest : List UInt8}
    {a : α} (h : r.run buf = .ok (a, rest)) : (r >>= f).run buf = (f a).run rest := by
  rw [run_bind, h]

/-- A reader that stops ends the sequence. -/
theorem run_bind_of_error {r : ByteReader ε α} {f : α → ByteReader ε β} {buf : List UInt8}
    {e : Stop ε} (h : r.run buf = .error e) : (r >>= f).run buf = .error e := by
  rw [run_bind, h]

/-- A sequence that succeeds is two readers that do. -/
theorem run_bind_ok {r : ByteReader ε α} {f : α → ByteReader ε β} {buf rest : List UInt8}
    {b : β} (h : (r >>= f).run buf = .ok (b, rest)) :
    ∃ a mid, r.run buf = .ok (a, mid) ∧ (f a).run mid = .ok (b, rest) := by
  rw [run_bind] at h
  split at h
  · exact ⟨_, _, ‹_›, h⟩
  · exact nomatch h

/-- The condition decides which reader runs. -/
theorem run_ite (c : Prop) [Decidable c] (r s : ByteReader ε α) (buf : List UInt8) :
    (if c then r else s).run buf = if c then r.run buf else s.run buf := by
  split <;> rfl

/-- What was read is mapped. -/
@[simp] theorem run_map (g : α → β) (r : ByteReader ε α) (buf : List UInt8) :
    (g <$> r).run buf =
      match r.run buf with
      | .ok (a, rest) => .ok (g a, rest)
      | .error e => .error e := rfl

/-- What was read is mapped, if it was read. -/
theorem run_map_of_ok {g : α → β} {r : ByteReader ε α} {buf rest : List UInt8} {a : α}
    (h : r.run buf = .ok (a, rest)) : (g <$> r).run buf = .ok (g a, rest) := by
  rw [run_map, h]

/-- What was mapped had been read. -/
theorem run_map_ok {g : α → β} {r : ByteReader ε α} {buf rest : List UInt8} {b : β}
    (h : (g <$> r).run buf = .ok (b, rest)) : ∃ a, r.run buf = .ok (a, rest) ∧ g a = b := by
  rw [run_map] at h
  split at h
  · cases h
    exact ⟨_, ‹_›, rfl⟩
  · exact nomatch h

/-- The other buffer is read, and this one is left. -/
theorem run_onBuffer_of_ok {r : ByteReader ε α} {bs buf rest : List UInt8} {a : α}
    (h : r.run bs = .ok (a, rest)) : (onBuffer bs r).run buf = .ok (a, buf) := by
  unfold run at h ⊢
  simp only [onBuffer, h]

/-- The other buffer was read, and this one is left. -/
theorem run_onBuffer_ok {r : ByteReader ε α} {bs buf rest : List UInt8} {a : α}
    (h : (onBuffer bs r).run buf = .ok (a, rest)) : rest = buf ∧ ∃ mid, r.run bs = .ok (a, mid) := by
  unfold run onBuffer at h
  split at h
  · rename_i a' mid heq
    cases h
    exact ⟨rfl, mid, heq⟩
  · exact nomatch h

/-! ### Repetition -/

/-- Every successful run of the reader consumes at least one byte. -/
def Consumes (r : ByteReader ε α) : Prop :=
  ∀ buf a rest, r.run buf = .ok (a, rest) → rest.length < buf.length

/-- At the end of the buffer nothing more is read. -/
theorem run_many_go_nil (r : ByteReader ε α) (fuel : Nat) :
    (many.go r fuel).run [] = .ok ([], []) := by
  cases fuel <;> rfl

/-- An empty buffer holds no entries. -/
@[simp] theorem run_many_nil (r : ByteReader ε α) : (many r).run [] = .ok ([], []) := rfl

/-- Every item of a list is read back, when each of them is read back in front of any rest. -/
theorem run_many_go_flatMap {r : ByteReader ε α} {enc : α → List UInt8} {as : List α}
    (hne : ∀ a ∈ as, enc a ≠ []) (hr : ∀ a ∈ as, ∀ rest, r.run (enc a ++ rest) = .ok (a, rest))
    {fuel : Nat} (hfuel : as.length ≤ fuel) :
    (many.go r fuel).run (as.flatMap enc) = .ok (as, []) := by
  induction as generalizing fuel with
  | nil => exact run_many_go_nil r fuel
  | cons a as ih =>
    obtain ⟨fuel, rfl⟩ : ∃ n, fuel = n + 1 := ⟨fuel - 1, by simp at hfuel; omega⟩
    have hbuf : enc a ++ as.flatMap enc ≠ [] := by simp [hne a (by simp)]
    have htail : (many.go r fuel).run (as.flatMap enc) = .ok (as, []) :=
      ih (fun b hb => hne b (by simp [hb])) (fun b hb => hr b (by simp [hb])) (by simpa using hfuel)
    simp only [List.flatMap_cons, many.go]
    rw [run_bind_of_ok (run_remaining _), if_neg hbuf,
      run_bind_of_ok (hr a (by simp) _), run_bind_of_ok htail, run_pure]

/-- Entries written one after another are read back. -/
theorem run_many_flatMap {r : ByteReader ε α} {enc : α → List UInt8} {as : List α}
    (hne : ∀ a ∈ as, enc a ≠ []) (hr : ∀ a ∈ as, ∀ rest, r.run (enc a ++ rest) = .ok (a, rest)) :
    (many r).run (as.flatMap enc) = .ok (as, []) := by
  have hlen : as.length ≤ (as.flatMap enc).length := by
    clear hr
    induction as with
    | nil => simp
    | cons a as ih =>
      have hpos : 0 < (enc a).length := List.length_pos_iff.mpr (hne a (by simp))
      have := ih (fun b hb => hne b (by simp [hb]))
      simp only [List.flatMap_cons, List.length_append, List.length_cons]
      omega
  rw [many, run_bind_of_ok (run_remaining _)]
  exact run_many_go_flatMap hne hr hlen

/-- What holds of every value the reader gives holds of every value of a repetition. -/
theorem run_many_go_forall {r : ByteReader ε α} {P : α → Prop}
    (hP : ∀ buf a rest, r.run buf = .ok (a, rest) → P a) {fuel : Nat} {buf rest : List UInt8}
    {as : List α} (h : (many.go r fuel).run buf = .ok (as, rest)) : ∀ a ∈ as, P a := by
  induction fuel generalizing buf rest as with
  | zero =>
    simp only [many.go, run_pure, Except.ok.injEq, Prod.mk.injEq] at h
    simp [← h.1]
  | succ fuel ih =>
    simp only [many.go] at h
    rw [run_bind_of_ok (run_remaining _), run_ite] at h
    split at h
    · simp only [run_pure, Except.ok.injEq, Prod.mk.injEq] at h
      simp [← h.1]
    · obtain ⟨a, mid, ha, h⟩ := run_bind_ok h
      obtain ⟨as', mid', has, h⟩ := run_bind_ok h
      simp only [run_pure, Except.ok.injEq, Prod.mk.injEq] at h
      rw [← h.1]
      intro b hb
      rcases List.mem_cons.mp hb with rfl | hb
      · exact hP _ _ _ ha
      · exact ih has b hb

/-- What holds of every entry that can be read holds of all that were. -/
theorem run_many_forall {r : ByteReader ε α} {P : α → Prop}
    (hP : ∀ buf a rest, r.run buf = .ok (a, rest) → P a) {buf rest : List UInt8}
    {as : List α} (h : (many r).run buf = .ok (as, rest)) : ∀ a ∈ as, P a := by
  rw [many, run_bind_of_ok (run_remaining _)] at h
  exact run_many_go_forall hP h

/-! ### Safety -/

/-- The run of the reader on the buffer stays inside the buffer. -/
def Safe (r : ByteReader ε α) (buf : List UInt8) : Prop :=
  r.run buf ≠ .error .outOfBounds

/-- Nothing is read. -/
theorem safe_pure (a : α) (buf : List UInt8) : Safe (pure a : ByteReader ε α) buf := by
  simp [Safe]

/-- An error of the reader is not a read past the end. -/
theorem safe_fail (e : ε) (buf : List UInt8) : Safe (fail e : ByteReader ε α) buf := by
  simp [Safe]

/-- Looking at the rest does not go past the end. -/
theorem safe_remaining (buf : List UInt8) : Safe (remaining : ByteReader ε _) buf := by
  simp [Safe]

/-- Skipping bytes that are there does not go past the end. -/
theorem safe_removePrefix {n : Nat} {buf : List UInt8} (h : n ≤ buf.length) :
    Safe (removePrefix n : ByteReader ε _) buf := by
  simp [Safe, run_removePrefix h]

/-- A position inside the buffer is not past the end. -/
theorem safe_substr {pos count : Nat} {buf : List UInt8} (h : pos ≤ buf.length) :
    Safe (substr pos count : ByteReader ε _) buf := by
  simp [Safe, run_substr h]

/-- A sequence is safe when its first part is and, wherever that ends, so is the rest. -/
theorem safe_bind {r : ByteReader ε α} {f : α → ByteReader ε β} {buf : List UInt8}
    (hr : Safe r buf)
    (hf : ∀ a rest, r.run buf = .ok (a, rest) → Safe (f a) rest) : Safe (r >>= f) buf := by
  intro h
  rw [run_bind] at h
  split at h
  · exact hf _ _ ‹_› h
  · rename_i e he
    obtain rfl : e = .outOfBounds := by simpa using h
    exact hr he

/-- The reader that runs does not go past the end. -/
theorem safe_ite {c : Prop} [Decidable c] {r s : ByteReader ε α} {buf : List UInt8}
    (hr : c → Safe r buf) (hs : ¬ c → Safe s buf) : Safe (if c then r else s) buf := by
  split
  · exact hr ‹_›
  · exact hs ‹_›

/-- Only the other buffer matters. -/
theorem safe_onBuffer {r : ByteReader ε α} {bs buf : List UInt8} (hr : Safe r bs) :
    Safe (onBuffer bs r) buf := by
  intro h
  unfold run onBuffer at h
  split at h
  · exact nomatch h
  · rename_i e he
    obtain rfl : e = .outOfBounds := by simpa using h
    exact hr he

/-- A reader that is safe on every buffer. -/
def AlwaysSafe (r : ByteReader ε α) : Prop := ∀ buf, Safe r buf

/-- Two readers in sequence -/
theorem AlwaysSafe.bind {r : ByteReader ε α} {f : α → ByteReader ε β} (hr : AlwaysSafe r)
    (hf : ∀ a, AlwaysSafe (f a)) : AlwaysSafe (r >>= f) :=
  fun buf => safe_bind (hr buf) fun a rest _ => hf a rest

/-- Mapping what was read -/
theorem AlwaysSafe.map {r : ByteReader ε α} (g : α → β) (hr : AlwaysSafe r) :
    AlwaysSafe (g <$> r) :=
  .bind hr fun _ => safe_pure _

/-- Either of two readers -/
theorem AlwaysSafe.ite {c : Prop} [Decidable c] {r s : ByteReader ε α} (hr : AlwaysSafe r)
    (hs : AlwaysSafe s) : AlwaysSafe (if c then r else s) :=
  fun buf => safe_ite (fun _ => hr buf) (fun _ => hs buf)

/-- Reading nothing -/
theorem AlwaysSafe.pure (a : α) : AlwaysSafe (Pure.pure a : ByteReader ε α) := safe_pure a

/-- Failing with an error -/
theorem AlwaysSafe.fail (e : ε) : AlwaysSafe (ByteReader.fail e : ByteReader ε α) := safe_fail e

/-- Looking at the rest -/
theorem AlwaysSafe.remaining : AlwaysSafe (ByteReader.remaining : ByteReader ε _) := safe_remaining

/-- Reading another buffer -/
theorem AlwaysSafe.onBuffer {r : ByteReader ε α} (hr : AlwaysSafe r) (bs : List UInt8) :
    AlwaysSafe (ByteReader.onBuffer bs r) :=
  fun _ => safe_onBuffer (hr bs)

/-- Reading entries, whatever the fuel is -/
theorem AlwaysSafe.many_go {r : ByteReader ε α} (hr : AlwaysSafe r) (fuel : Nat) :
    AlwaysSafe (many.go r fuel) := by
  induction fuel with
  | zero => exact .pure _
  | succ fuel ih =>
    exact .bind .remaining fun _ => .ite (.pure _) (.bind hr fun _ => .bind ih fun _ => .pure _)

/-- Reading entries to the end of the buffer -/
theorem AlwaysSafe.many {r : ByteReader ε α} (hr : AlwaysSafe r) :
    AlwaysSafe (ByteReader.many r) :=
  .bind .remaining fun _ => .many_go hr _

/-! ### Errors -/

/-- Every error that the reader reports satisfies `P`. -/
def FailsWith (P : ε → Prop) (r : ByteReader ε α) : Prop :=
  ∀ buf e, r.run buf = .error (.error e) → P e

variable {P : ε → Prop}

/-- A sequence reports the errors of its parts. -/
theorem FailsWith.bind {r : ByteReader ε α} {f : α → ByteReader ε β} (hr : FailsWith P r)
    (hf : ∀ a, FailsWith P (f a)) : FailsWith P (r >>= f) := by
  intro buf e h
  rw [run_bind] at h
  split at h
  · exact hf _ _ e h
  · next stop hstop =>
    obtain rfl : stop = .error e := by simpa using h
    exact hr buf e hstop

/-- Mapping what was read -/
theorem FailsWith.map {r : ByteReader ε α} (g : α → β) (hr : FailsWith P r) :
    FailsWith P (g <$> r) := by
  intro buf e h
  rw [run_map] at h
  split at h
  · exact nomatch h
  · next stop hstop =>
    obtain rfl : stop = .error e := by simpa using h
    exact hr buf e hstop

/-- Either of two readers -/
theorem FailsWith.ite {c : Prop} [Decidable c] {r s : ByteReader ε α} (hr : FailsWith P r)
    (hs : FailsWith P s) : FailsWith P (if c then r else s) := by
  split
  · exact hr
  · exact hs

/-- Reading nothing -/
theorem FailsWith.pure (a : α) : FailsWith P (Pure.pure a : ByteReader ε α) := by
  intro buf e h
  exact nomatch h

/-- Failing with such an error -/
theorem FailsWith.fail {e : ε} (he : P e) : FailsWith P (ByteReader.fail e : ByteReader ε α) := by
  intro buf e' h
  obtain rfl : e = e' := by simpa using h
  exact he

/-- Looking at the rest -/
theorem FailsWith.remaining : FailsWith P (ByteReader.remaining : ByteReader ε _) := by
  intro buf e h
  exact nomatch h

/-- Looking at the first byte -/
theorem FailsWith.front : FailsWith P (ByteReader.front : ByteReader ε _) := by
  intro buf e h
  cases buf <;> exact nomatch h

/-- Looking at a byte -/
theorem FailsWith.getAt (i : Nat) : FailsWith P (ByteReader.getAt i : ByteReader ε _) := by
  intro buf e h
  unfold run ByteReader.getAt at h
  split at h <;> exact nomatch h

/-- Skipping bytes -/
theorem FailsWith.removePrefix (n : Nat) :
    FailsWith P (ByteReader.removePrefix n : ByteReader ε _) := by
  intro buf e h
  unfold run ByteReader.removePrefix at h
  split at h <;> exact nomatch h

/-- Looking at a part of the buffer -/
theorem FailsWith.substr (pos count : Nat) :
    FailsWith P (ByteReader.substr pos count : ByteReader ε _) := by
  intro buf e h
  unfold run ByteReader.substr at h
  split at h <;> exact nomatch h

/-- Reading another buffer -/
theorem FailsWith.onBuffer {r : ByteReader ε α} (hr : FailsWith P r) (bs : List UInt8) :
    FailsWith P (ByteReader.onBuffer bs r) := by
  intro buf e h
  unfold run ByteReader.onBuffer at h
  split at h
  · exact nomatch h
  · next stop hstop =>
    obtain rfl : stop = .error e := by simpa using h
    exact hr bs e hstop

/-- A repetition reports the errors of one round. -/
theorem FailsWith.many {r : ByteReader ε α} (hr : FailsWith P r) :
    FailsWith P (ByteReader.many r) := by
  have hgo : ∀ fuel, FailsWith P (many.go r fuel) := by
    intro fuel
    induction fuel with
    | zero => exact .pure _
    | succ fuel ih =>
      exact .bind .remaining fun _ => .ite (.pure _) (.bind hr fun _ => .bind ih fun _ => .pure _)
  exact .bind .remaining fun _ => hgo _

end ByteReader
