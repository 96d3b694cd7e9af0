/-!
# Processing a stream in chunks

A consumer that processes one element at a time does not care how its input is
cut into chunks. Here this is carried over to a consumer that takes as much of a
chunk as it likes at each call, as long as every call does what processing its
share one by one would do.

## Key results

- `Chunked.feed_append`: processing one by one does not depend on the cutting
- `Chunked.drainChunks_eq_feed`: neither does calling the consumer until each chunk
  is used up
-/

namespace Chunked

variable {σ β γ : Type}

/-- Process the elements one by one. -/
def feed (one : σ → β → σ × List γ) : σ → List β → σ × List γ
  | s, [] => (s, [])
  | s, b :: bs => ((feed one (one s b).1 bs).1, (one s b).2 ++ (feed one (one s b).1 bs).2)

theorem feed_append (one : σ → β → σ × List γ) (s : σ) (bs cs : List β) :
    feed one s (bs ++ cs) =
      ((feed one (feed one s bs).1 cs).1,
        (feed one s bs).2 ++ (feed one (feed one s bs).1 cs).2) := by
  induction bs generalizing s with
  | nil => rfl
  | cons b bs ih => simp only [List.cons_append, feed, ih, List.append_assoc]

/-- An invariant of one element is an invariant of a run. -/
theorem feed_invariant {one : σ → β → σ × List γ} {P : σ → Prop}
    (h : ∀ s b, P s → P (one s b).1) {s : σ} (hs : P s) (bs : List β) : P (feed one s bs).1 := by
  induction bs generalizing s with
  | nil => exact hs
  | cons b bs ih => exact ih (h s b hs)

/-- Call the consumer at most `fuel` times, until the chunk is used up. -/
def drain (many : σ → List β → (σ × List γ) × List β) :
    Nat → σ → List β → (σ × List γ) × List β
  | _, s, [] => ((s, []), [])
  | 0, s, bs => ((s, []), bs)
  | fuel + 1, s, bs =>
    let r := many s bs
    let t := drain many fuel r.1.1 r.2
    ((t.1.1, r.1.2 ++ t.1.2), t.2)

/-- Every chunk is used up in turn; a chunk needs at most one call for each element. -/
def drainChunks (many : σ → List β → (σ × List γ) × List β) : σ → List (List β) → σ × List γ
  | s, [] => (s, [])
  | s, chunk :: chunks =>
    let t := drain many chunk.length s chunk
    let u := drainChunks many t.1.1 chunks
    (u.1, t.1.2 ++ u.2)

/-- A call takes at least one element and does what processing its share would do. -/
def Consumes (one : σ → β → σ × List γ) (many : σ → List β → (σ × List γ) × List β) (s : σ)
    (bs : List β) : Prop :=
  ∃ used rest, bs = used ++ rest ∧ used ≠ [] ∧ many s bs = (feed one s used, rest)

section

variable {one : σ → β → σ × List γ} {many : σ → List β → (σ × List γ) × List β} {P : σ → Prop}

theorem drain_eq_feed (hone : ∀ s b, P s → P (one s b).1)
    (hmany : ∀ s bs, P s → bs ≠ [] → Consumes one many s bs) {fuel : Nat} {s : σ} {bs : List β}
    (hs : P s) (hfuel : bs.length ≤ fuel) : drain many fuel s bs = (feed one s bs, []) := by
  induction fuel generalizing s bs with
  | zero =>
    obtain rfl : bs = [] := List.length_eq_zero_iff.mp (Nat.le_zero.mp hfuel)
    rfl
  | succ fuel ih =>
    cases bs with
    | nil => rfl
    | cons b bs =>
      obtain ⟨used, rest, heq, hused, hcall⟩ := hmany s (b :: bs) hs (List.cons_ne_nil _ _)
      have hlen : rest.length ≤ fuel := by
        have hpos := List.length_pos_iff.mpr hused
        have := congrArg List.length heq
        rw [List.length_append] at this
        omega
      rw [drain, hcall, ih (feed_invariant hone hs used) hlen, heq, feed_append]
      exact List.cons_ne_nil _ _

/-- The result does not depend on how the stream was cut. -/
theorem drainChunks_eq_feed (hone : ∀ s b, P s → P (one s b).1)
    (hmany : ∀ s bs, P s → bs ≠ [] → Consumes one many s bs) {s : σ} (hs : P s)
    (chunks : List (List β)) : drainChunks many s chunks = feed one s chunks.flatten := by
  induction chunks generalizing s with
  | nil => rfl
  | cons chunk chunks ih =>
    have hdrain := drain_eq_feed hone hmany hs (Nat.le_refl chunk.length)
    rw [drainChunks, hdrain, List.flatten_cons, feed_append, ih (feed_invariant hone hs chunk)]

end

end Chunked
