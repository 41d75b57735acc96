import Mathlib.Data.List.Induction

/-!
# Runs of a system

A system has a state and moves from one state to the next by steps. A run is a list of steps from a
starting state. What has passed in a run is said by the step with which it passed and by the states
right before and right after it.
-/

namespace LanguageClient.Run

variable {σ α : Type} (next : σ → α → σ) (start : σ)

/-- The state to which a run leads. -/
def final (steps : List α) : σ :=
  steps.foldl next start

theorem final_concat (steps : List α) (step : α) :
    final next start (steps ++ [step]) = next (final next start steps) step := by
  simp only [final, List.foldl_append, List.foldl_cons, List.foldl_nil]

/-- What holds at the start and is kept by every step holds at the end of every run. -/
theorem final_induction {invariant : σ → Prop} (hstart : invariant start)
    (hnext : ∀ state step, invariant state → invariant (next state step)) (steps : List α) :
    invariant (final next start steps) := by
  induction steps using List.reverseRecOn with
  | nil => exact hstart
  | append_singleton steps step ih =>
    rw [final_concat]
    exact hnext _ step ih

/-- What holds at one point of a run and is kept by every step holds from then on. -/
theorem final_append_induction (property : σ → Prop) (steps more : List α)
    (hnow : property (final next start steps))
    (hnext : ∀ before step, property (final next start before) →
      property (final next start (before ++ [step]))) :
    property (final next start (steps ++ more)) := by
  induction more using List.reverseRecOn with
  | nil => rwa [List.append_nil]
  | append_singleton more step ih =>
    rw [← List.append_assoc]
    exact hnext _ step ih

/-- Something has happened in a run: there was a step with this property, which also speaks about
the states right before and right after the step. -/
def Passed (steps : List α) (event : σ → α → σ → Prop) : Prop :=
  ∃ before step after, steps = before ++ step :: after ∧
    event (final next start before) step (final next start (before ++ [step]))

variable {next : σ → α → σ} {start : σ} {steps : List α} {event weaker : σ → α → σ → Prop}

/-- What has happened in a run has happened before its last step or with it. -/
theorem passed_concat {step : α} :
    Passed next start (steps ++ [step]) event ↔ Passed next start steps event ∨
      event (final next start steps) step (final next start (steps ++ [step])) := by
  constructor
  · rintro ⟨before, other, after, hsplit, hevent⟩
    rcases List.eq_nil_or_concat after with rfl | ⟨rest, last, rfl⟩
    · obtain ⟨rfl, hlast⟩ := List.append_inj' hsplit rfl
      obtain rfl := List.singleton_inj.mp hlast
      exact Or.inr hevent
    · have hsplit' : steps ++ [step] = (before ++ other :: rest) ++ [last] := by
        rw [hsplit, List.concat_eq_append, List.append_assoc, List.cons_append]
      obtain ⟨rfl, -⟩ := List.append_inj' hsplit' rfl
      exact Or.inl ⟨before, other, rest, rfl, hevent⟩
  · rintro (⟨before, other, after, rfl, hevent⟩ | hevent)
    · exact ⟨before, other, after ++ [step], by simp, hevent⟩
    · exact ⟨steps, step, [], rfl, hevent⟩

/-- What has happened with a property has happened with any weaker one. -/
theorem Passed.imp (hpassed : Passed next start steps event)
    (himp : ∀ before step after, event before step after → weaker before step after) :
    Passed next start steps weaker := by
  obtain ⟨before, step, after, hsplit, hevent⟩ := hpassed
  exact ⟨before, step, after, hsplit, himp _ _ _ hevent⟩

/-- What an event says about the state before or after it still holds at the end of the run, if
every step keeps it. -/
theorem Passed.lasting {property : σ → Prop} (hpassed : Passed next start steps event)
    (hevent : ∀ before step after, event before step after → property before ∨ property after)
    (hnext : ∀ before step, property (final next start before) →
      property (final next start (before ++ [step]))) :
    property (final next start steps) := by
  obtain ⟨before, step, after, rfl, h⟩ := hpassed
  rcases hevent _ _ _ h with hbefore | hafter
  · exact final_append_induction next start property before _ hbefore hnext
  · rw [List.append_cons]
    exact final_append_induction next start property _ after hafter hnext

end LanguageClient.Run
