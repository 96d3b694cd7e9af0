import AsyncMqtt.ForStd.Run

/-!
# Latches

A latch is a flag that some inputs set, some reset and the others leave alone. After a
sequence of inputs it is set exactly if the last input that concerns it has set it. A flag
of a state machine that moves with a latch at every step does so over every run.

## Key results

- `Latch.readAll_iff`, `Latch.readAll_iff_not_reset`: when a latch is set
- `Latch.exists_resets`: a latch that is no longer set was reset
- `Latch.flag_final`: a flag that follows a latch in every step follows it in every run
-/

/-- A flag that is set by some inputs and reset by others. -/
structure Latch (α : Type) where
  sets : α → Bool
  resets : α → Bool

namespace Latch

variable {α : Type} (l : Latch α)

/-- The flag after an input. -/
def read (b : Bool) (a : α) : Bool :=
  if l.sets a then true else if l.resets a then false else b

/-- The flag after a sequence of inputs. -/
def readAll (b : Bool) (as : List α) : Bool := as.foldl l.read b

/-- The input concerns the latch. -/
def Concerns (a : α) : Prop := l.sets a ∨ l.resets a

variable {l} {b : Bool} {a : α} {as as' : List α}

@[simp] theorem readAll_nil : l.readAll b [] = b := rfl

theorem readAll_cons : l.readAll b (a :: as) = l.readAll (l.read b a) as := rfl

theorem readAll_append : l.readAll b (as ++ as') = l.readAll (l.readAll b as) as' :=
  List.foldl_append

theorem read_of_not_concerns (h : ¬ l.Concerns a) : l.read b a = b := by
  rw [read, if_neg fun hs => h (.inl hs), if_neg fun hr => h (.inr hr)]

/-- Inputs that do not concern the latch leave it as it is. -/
theorem readAll_of_not_concerns (h : ∀ a ∈ as, ¬ l.Concerns a) : l.readAll b as = b := by
  induction as with
  | nil => rfl
  | cons a as ih =>
    rw [readAll_cons, read_of_not_concerns (h a List.mem_cons_self)]
    exact ih fun a' ha' => h a' (List.mem_cons_of_mem a ha')

/-- The latch is set exactly if the last input that concerns it sets it. -/
theorem readAll_iff : l.readAll false as = true ↔ ∃ before a after,
    as = before ++ a :: after ∧ l.sets a ∧ ∀ a' ∈ after, ¬ l.Concerns a' := by
  constructor
  · intro h
    induction as using List.reverseRecOn with
    | nil => exact nomatch h
    | append_singleton as a ih =>
      rw [readAll_append, readAll_cons, readAll_nil, read] at h
      by_cases hs : l.sets a
      · exact ⟨as, a, [], rfl, hs, fun a' ha' => nomatch ha'⟩
      · rw [if_neg hs] at h
        by_cases hr : l.resets a
        · rw [if_pos hr] at h
          exact nomatch h
        · rw [if_neg hr] at h
          obtain ⟨before, a₀, after, rfl, ha₀, hafter⟩ := ih h
          refine ⟨before, a₀, after ++ [a], by simp, ha₀, fun a' ha' => ?_⟩
          rcases List.mem_append.mp ha' with hmem | hmem
          · exact hafter a' hmem
          · obtain rfl := List.mem_singleton.mp hmem
            rintro (h' | h')
            · exact hs h'
            · exact hr h'
  · rintro ⟨before, a, after, rfl, ha, hafter⟩
    rw [readAll_append, readAll_cons, readAll_of_not_concerns hafter, read, if_pos ha]

/-- A latch that was set and is no longer set was reset in between. -/
theorem exists_resets (h : l.readAll true as = false) : ∃ a ∈ as, l.resets a := by
  by_contra hnone
  have hset : l.readAll true as = true := by
    clear h
    induction as with
    | nil => rfl
    | cons a as ih =>
      have hr : ¬ l.resets a := fun hr => hnone ⟨a, List.mem_cons_self, hr⟩
      have hread : l.read true a = true := by
        rw [read, if_neg hr]
        exact ite_self true
      rw [readAll_cons, hread]
      exact ih fun ⟨a', ha', hr'⟩ => hnone ⟨a', List.mem_cons_of_mem a ha', hr'⟩
  rw [hset] at h
  exact nomatch h

/-- The latch is set exactly if some input has set it and none has reset it since. -/
theorem readAll_iff_not_reset : l.readAll false as = true ↔ ∃ before a after,
    as = before ++ a :: after ∧ l.sets a ∧ ∀ a' ∈ after, ¬ l.resets a' := by
  constructor
  · intro h
    obtain ⟨before, a, after, has, ha, hafter⟩ := readAll_iff.mp h
    exact ⟨before, a, after, has, ha, fun a' ha' hr => hafter a' ha' (.inr hr)⟩
  · rintro ⟨before, a, after, rfl, ha, hafter⟩
    rw [readAll_append, readAll_cons, read, if_pos ha]
    by_contra hunset
    obtain ⟨a', ha', hr⟩ := exists_resets (Bool.eq_false_iff.mpr hunset)
    exact hafter a' ha' hr

/-- A flag that follows the latch in every step follows it in every run. -/
theorem flag_final {σ β : Type} {step : σ → β → σ} {out : σ → β → List α} {ok : σ → β → Prop}
    (flag : σ → Bool) (hstep : ∀ s x, ok s x → flag (step s x) = l.readAll (flag s) (out s x))
    {s : σ} {xs : List β} (hok : Run.All step ok s xs) :
    flag (Run.final step s xs) = l.readAll (flag s) (Run.trace step out s xs) := by
  induction xs generalizing s with
  | nil => rfl
  | cons x xs ih =>
    obtain ⟨hx, hxs⟩ := Run.all_cons.mp hok
    rw [Run.trace, readAll_append, ← hstep s x hx]
    exact ih hxs

end Latch
