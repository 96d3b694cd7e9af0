import Mathlib.Data.List.Induction

/-!
# Runs of a step function

A run is a sequence of inputs to a step function. `Run.All` says that every step of a
run meets a condition in the state in which it is made. `Run.Since` says that some step
of a run had a property and that another property has held of every state from then on:
the past operator "since" of temporal logic.

## Key results

- `Run.final_invariant`: what the steps keep holds at the end
- `Run.invariant_between`: the same from one point of a run to another
- `Run.since_of_step`: if a property can only begin with such a step, then whenever it
  holds it has held since one
- `Run.trace_accepted`: an automaton that follows every step follows the whole run
- `Run.all_iff`: a condition on the steps of one machine told from those of another
- `Run.finalM_invariant`: the first of these for steps that can be impossible
-/

namespace Run

variable {σ α : Type} (step : σ → α → σ)

/-- The state after a sequence of inputs. -/
def final (s : σ) (as : List α) : σ := as.foldl step s

theorem final_append (s : σ) (as : List α) (a : α) :
    final step s (as ++ [a]) = step (final step s as) a := by
  rw [final, List.foldl_append]
  rfl

/-- One more step of a run. -/
theorem final_take_succ {s : σ} {as : List α} {a : α} {j : Nat} (h : as[j]? = some a) :
    final step s (as.take (j + 1)) = step (final step s (as.take j)) a := by
  rw [List.take_add_one, h]
  exact final_append step s (as.take j) a

/-- Every step of the run satisfies `ok`. -/
def All (ok : σ → α → Prop) (s : σ) (as : List α) : Prop :=
  ∀ j a, as[j]? = some a → ok (final step s (as.take j)) a

/-- Some step of the run satisfied `P`, and `Q` has held of all states after it. -/
def Since (P : σ → α → Prop) (Q : σ → Prop) (s : σ) (as : List α) : Prop :=
  ∃ j a, as[j]? = some a ∧ P (final step s (as.take j)) a ∧
    ∀ i, j < i → i ≤ as.length → Q (final step s (as.take i))

variable {step} {ok P : σ → α → Prop} {Q : σ → Prop} {s : σ} {as : List α} {a : α}

theorem all_nil : All step ok s [] := fun _ _ h => nomatch h

theorem all_cons : All step ok s (a :: as) ↔ ok s a ∧ All step ok (step s a) as := by
  constructor
  · exact fun h => ⟨h 0 a rfl, fun j b hj => h (j + 1) b hj⟩
  · rintro ⟨ha, has⟩ j b hj
    cases j with
    | zero => exact Option.some.inj hj ▸ ha
    | succ j => exact has j b hj

theorem all_append :
    All step ok s (as ++ [a]) ↔ All step ok s as ∧ ok (final step s as) a := by
  constructor
  · intro h
    refine ⟨fun j b hj => ?_, ?_⟩
    · have hlt : j < as.length := (List.getElem?_eq_some_iff.mp hj).1
      have hb := h j b (by rw [List.getElem?_append_left hlt]; exact hj)
      rwa [List.take_append_of_le_length (Nat.le_of_lt hlt)] at hb
    · have ha := h as.length a (by simp)
      rwa [List.take_left] at ha
  · rintro ⟨h, ha⟩ j b hj
    rcases Nat.lt_trichotomy j as.length with hlt | rfl | hgt
    · rw [List.getElem?_append_left hlt] at hj
      rw [List.take_append_of_le_length (Nat.le_of_lt hlt)]
      exact h j b hj
    · obtain rfl : a = b := by simpa using hj
      rwa [List.take_left]
    · rw [List.getElem?_eq_none (by simp; omega)] at hj
      cases hj

/-- If each step of a run can be told from the step of another machine that follows it, so can
    the whole run. The two have to stay together only as long as the steps meet the condition. -/
theorem all_iff {τ : Type} {step' : τ → α → τ} {ok' : τ → α → Prop} {R : σ → τ → Prop}
    (hok : ∀ s t a, R s t → (ok s a ↔ ok' t a))
    (hstep : ∀ s t a, R s t → ok' t a → R (step s a) (step' t a)) {t : τ} (hs : R s t) :
    All step ok s as ↔ All step' ok' t as := by
  induction as generalizing s t with
  | nil => exact ⟨fun _ => all_nil, fun _ => all_nil⟩
  | cons a as ih =>
    rw [all_cons, all_cons]
    constructor
    · intro h
      have ha := (hok s t a hs).mp h.1
      exact ⟨ha, (ih (hstep s t a hs ha)).mp h.2⟩
    · intro h
      exact ⟨(hok s t a hs).mpr h.1, (ih (hstep s t a hs h.1)).mpr h.2⟩

theorem All.take (h : All step ok s as) (k : Nat) : All step ok s (as.take k) := by
  intro j a hj
  rw [List.getElem?_take] at hj
  split at hj
  · next hlt =>
    rw [List.take_take, Nat.min_eq_left (Nat.le_of_lt hlt)]
    exact h j a hj
  · exact nomatch hj

theorem Since.append (h : Since step P Q s as) (hQ : Q (step (final step s as) a)) :
    Since step P Q s (as ++ [a]) := by
  obtain ⟨j, b, hj, hP, hQs⟩ := h
  have hlt : j < as.length := (List.getElem?_eq_some_iff.mp hj).1
  refine ⟨j, b, by rw [List.getElem?_append_left hlt]; exact hj, ?_, fun i hi hle => ?_⟩
  · rwa [List.take_append_of_le_length (Nat.le_of_lt hlt)]
  · rcases Nat.lt_or_ge as.length i with hgt | hge
    · rw [List.take_of_length_le (by rw [List.length_append]; exact hgt), final_append]
      exact hQ
    · rw [List.take_append_of_le_length hge]
      exact hQs i hi hge

theorem since_last (hP : P (final step s as) a) (hQ : Q (step (final step s as) a)) :
    Since step P Q s (as ++ [a]) := by
  refine ⟨as.length, a, by simp, by rwa [List.take_left], fun i hi hle => ?_⟩
  rw [List.take_of_length_le (by rw [List.length_append]; exact hi), final_append]
  exact hQ

/-- A property that does not hold at the beginning and that a step brings about only if
    it satisfies `P` has held since such a step. -/
theorem since_of_step (hstep : ∀ s a, ok s a → Q (step s a) → P s a ∨ Q s) (hs : ¬ Q s)
    (hok : All step ok s as) (hQ : Q (final step s as)) : Since step P Q s as := by
  induction as using List.reverseRecOn with
  | nil => exact absurd hQ hs
  | append_singleton as a ih =>
    obtain ⟨hall, ha⟩ := all_append.mp hok
    rw [final_append] at hQ
    rcases hstep _ a ha hQ with hP | hQ'
    · exact since_last hP hQ
    · exact (ih hall hQ').append hQ

/-- What holds at one point of a run and is kept by the steps up to another holds there. -/
theorem invariant_between {j k : Nat} (hjk : j ≤ k) (hk : k ≤ as.length)
    (hstep : ∀ i a, j ≤ i → i < k → as[i]? = some a → Q (final step s (as.take i)) →
      Q (step (final step s (as.take i)) a))
    (hj : Q (final step s (as.take j))) : Q (final step s (as.take k)) := by
  induction k with
  | zero =>
    obtain rfl : j = 0 := by omega
    exact hj
  | succ k ih =>
    rcases Nat.lt_or_ge k j with hlt | hge
    · obtain rfl : j = k + 1 := by omega
      exact hj
    · have hget : as[k]? = some as[k] := List.getElem?_eq_getElem (by omega)
      have hQ := ih hge (by omega) fun i a hi hik => hstep i a hi (by omega)
      rw [final_take_succ step hget]
      exact hstep k _ hge (by omega) hget hQ

/-- What the steps keep holds at the end. -/
theorem final_invariant (hstep : ∀ s a, ok s a → Q s → Q (step s a)) (hs : Q s)
    (hok : All step ok s as) : Q (final step s as) := by
  induction as using List.reverseRecOn with
  | nil => exact hs
  | append_singleton as a ih =>
    obtain ⟨hall, ha⟩ := all_append.mp hok
    rw [final_append]
    exact hstep _ a ha (ih hall)

/-! ### What a run puts out -/

variable {β τ : Type}

/-- What the steps of a run put out, one after another. -/
def trace (step : σ → α → σ) (out : σ → α → List β) : σ → List α → List β
  | _, [] => []
  | s, a :: as => out s a ++ trace step out (step s a) as

/-- If the automaton `δ` can read what each step puts out, from a state that belongs to the
    one before the step to one that belongs to the one after it, then it can read what the
    run puts out. -/
theorem trace_accepted {δ : τ → β → Option τ} {out : σ → α → List β} {R : σ → τ → Prop}
    (hstep : ∀ s t a, ok s a → R s t → ∃ t', (out s a).foldlM δ t = some t' ∧ R (step s a) t')
    {t : τ} (hs : R s t) (hok : All step ok s as) :
    ∃ t', (trace step out s as).foldlM δ t = some t' ∧ R (final step s as) t' := by
  induction as generalizing s t with
  | nil => exact ⟨t, rfl, hs⟩
  | cons a as ih =>
    obtain ⟨ha, has⟩ := all_cons.mp hok
    obtain ⟨t₁, hread, hs₁⟩ := hstep s t a ha hs
    obtain ⟨t', hread', hs'⟩ := ih hs₁ has
    refine ⟨t', ?_, hs'⟩
    rw [trace, List.foldlM_append, hread]
    exact hread'

/-! ### Steps that can be impossible -/

section

variable {stepM : σ → α → Option σ} {s' : σ}

/-- The state after a sequence of inputs, if each of them is possible. -/
def finalM (stepM : σ → α → Option σ) (s : σ) (as : List α) : Option σ := as.foldlM stepM s

theorem finalM_cons (s : σ) (a : α) (as : List α) :
    finalM stepM s (a :: as) = (stepM s a).bind (finalM stepM · as) :=
  List.foldlM_cons

theorem finalM_append (s : σ) (as as' : List α) :
    finalM stepM s (as ++ as') = (finalM stepM s as).bind (finalM stepM · as') :=
  List.foldlM_append

/-- What the steps keep holds at the end. -/
theorem finalM_invariant (hstep : ∀ s a s', Q s → stepM s a = some s' → Q s') (hs : Q s)
    (hfinal : finalM stepM s as = some s') : Q s' := by
  induction as generalizing s with
  | nil =>
    obtain rfl := Option.some.inj hfinal
    exact hs
  | cons a as ih =>
    rw [finalM_cons] at hfinal
    obtain ⟨s₁, hfirst, hrest⟩ := Option.bind_eq_some_iff.mp hfinal
    exact ih (hstep s a s₁ hs hfirst) hrest

end

end Run
