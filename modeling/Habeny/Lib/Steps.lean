import Mathlib.Data.List.Infix

/-!
# Steps in transactions of their own

Steps are run one after the other until one raises.  A step either commits and gives a new
state, or raises and leaves the state; so what a run leaves is the result of the steps of a
prefix, each one committed.
-/

namespace Habeny.Lib

variable {I S E : Type} (step : I → S → Except E S)

/-- Run the steps until one raises. -/
def runSteps : List I → S → Except E Unit × S
  | [], s => (.ok (), s)
  | i :: steps, s =>
    match step i s with
    | .error e => (.error e, s)
    | .ok s' => runSteps steps s'

/-- The steps were committed in this order, and nothing else. -/
inductive Commits : List I → S → S → Prop
  | nil (s : S) : Commits [] s s
  | cons {i : I} {steps : List I} {s s' s'' : S} (h : step i s = .ok s')
      (hrest : Commits steps s' s'') : Commits (i :: steps) s s''

variable {step}

lemma runSteps_of_error {i : I} {steps : List I} {s : S} {e : E} (h : step i s = .error e) :
    runSteps step (i :: steps) s = (.error e, s) := by
  rw [runSteps, h]

lemma runSteps_of_ok {i : I} {steps : List I} {s s' : S} (h : step i s = .ok s') :
    runSteps step (i :: steps) s = runSteps step steps s' := by
  rw [runSteps, h]

lemma Commits.eq_of_nil {s s' : S} (h : Commits step [] s s') : s' = s := by
  cases h
  rfl

/-- **What a run leaves is the result of a prefix of its steps**, of all of them unless one
raises. -/
theorem runSteps_commits (step : I → S → Except E S) (steps : List I) (s : S) :
    ∃ done, done <+: steps ∧ Commits step done s (runSteps step steps s).2 ∧
      ((runSteps step steps s).1 = .ok () → done = steps) := by
  induction steps generalizing s with
  | nil => exact ⟨[], List.prefix_refl [], .nil s, fun _ => rfl⟩
  | cons i steps ih =>
    cases hstep : step i s with
    | error e =>
      rw [runSteps_of_error hstep]
      exact ⟨[], List.nil_prefix, .nil s, fun h => absurd h (by simp)⟩
    | ok s' =>
      rw [runSteps_of_ok hstep]
      obtain ⟨done, hpre, hdone, hall⟩ := ih s'
      refine ⟨i :: done, ?_, .cons hstep hdone, fun h => by rw [hall h]⟩
      exact (List.prefix_cons_inj i).mpr hpre

end Habeny.Lib
