import Mathlib.Data.Option.Basic
import Mathlib.Data.List.Basic
import Mathlib.Order.WellFounded
import Mathlib.Order.Monotone.Basic

/-!
# Runs of a partial transition function

A system is a partial function `step : σ → α → Option σ`: in a state, an action either
leads to one next state or cannot be taken.  `Run step guard s as s'` is a run through the
actions `as` from `s` to `s'` all of whose steps are taken in a state that meets `guard`;
with the guard that is always true these are all the runs of the system.

The one proof rule is `Run.invariant`: what every guarded step preserves holds at the end of
every guarded run.  `exec` computes the end of a run, so that a concrete run is checked by
evaluation (`run_of_exec`).  For termination, a measure that no step raises is constant from
some point on along an endless execution (`Endless.settles`).
-/

namespace Habeny.Lib

variable {σ α : Type*}

/-- The runs of `step` whose steps all meet `guard`. -/
inductive Run (step : σ → α → Option σ) (guard : σ → α → Prop) : σ → List α → σ → Prop
  | nil (s : σ) : Run step guard s [] s
  | cons {s s₁ s' : σ} {a : α} {as : List α} (hguard : guard s a) (hstep : step s a = some s₁)
      (hrest : Run step guard s₁ as s') : Run step guard s (a :: as) s'

/-- The guard that every step meets. -/
def anyStep (_ : σ) (_ : α) : Prop := True

/-- The state that a list of actions leads to. -/
def exec (step : σ → α → Option σ) : σ → List α → Option σ
  | s, [] => some s
  | s, a :: as => (step s a).bind fun s₁ => exec step s₁ as

/-- Whether all steps of an execution meet a guard. -/
def execMeets (step : σ → α → Option σ) (guard : σ → α → Bool) : σ → List α → Bool
  | _, [] => true
  | s, a :: as => guard s a && (step s a).all fun s₁ => execMeets step guard s₁ as

namespace Run

variable {step : σ → α → Option σ} {guard guard' : σ → α → Prop} {s s' s'' : σ}
  {as bs : List α}

/-- **The invariant rule.**  A property that every guarded step preserves holds at the end of
every guarded run that starts in it. -/
theorem invariant {P : σ → Prop}
    (hstep : ∀ {s s' : σ} {a : α}, P s → guard s a → step s a = some s' → P s')
    (hrun : Run step guard s as s') (hs : P s) : P s' := by
  induction hrun with
  | nil => exact hs
  | cons hg ha _ ih => exact ih (hstep hs hg ha)

lemma trans (h₁ : Run step guard s as s') (h₂ : Run step guard s' bs s'') :
    Run step guard s (as ++ bs) s'' := by
  induction h₁ with
  | nil => exact h₂
  | cons hg ha _ ih => exact cons hg ha (ih h₂)

/-- A run may be extended by a step at its end. -/
lemma snoc {a : α} (h : Run step guard s as s') (hg : guard s' a) (ha : step s' a = some s'') :
    Run step guard s (as ++ [a]) s'' :=
  h.trans (cons hg ha (nil s''))

/-- A weaker guard has more runs. -/
lemma mono (hle : ∀ s a, guard s a → guard' s a) (h : Run step guard s as s') :
    Run step guard' s as s' := by
  induction h with
  | nil => exact nil _
  | cons hg ha _ ih => exact cons (hle _ _ hg) ha ih

/-- The steps of a run that meets two guards meet both of them. -/
lemma both (h : Run step guard s as s') (h' : Run step guard' s as s') :
    Run step (fun s a => guard s a ∧ guard' s a) s as s' := by
  induction h with
  | nil s => exact .nil s
  | @cons s s₁ s' a as hg ha _ ih =>
    cases h' with
    | cons hg' ha' hrest' =>
      rw [ha, Option.some.injEq] at ha'
      exact .cons ⟨hg, hg'⟩ ha (ih (ha' ▸ hrest'))

end Run

lemma run_of_exec {step : σ → α → Option σ} {s s' : σ} {as : List α}
    (h : exec step s as = some s') : Run step anyStep s as s' := by
  induction as generalizing s with
  | nil =>
    rw [exec, Option.some.injEq] at h
    subst h
    exact .nil s
  | cons a as ih =>
    obtain ⟨s₁, ha, hrest⟩ := Option.bind_eq_some_iff.mp h
    exact .cons trivial ha (ih hrest)

/-- A computed execution whose steps all meet a decidable guard is a guarded run. -/
lemma run_of_execMeets {step : σ → α → Option σ} {guard : σ → α → Prop}
    {g : σ → α → Bool} (hg : ∀ s a, g s a = true → guard s a) {s s' : σ} {as : List α}
    (h : exec step s as = some s') (hm : execMeets step g s as = true) :
    Run step guard s as s' := by
  induction as generalizing s with
  | nil =>
    rw [exec, Option.some.injEq] at h
    subst h
    exact .nil s
  | cons a as ih =>
    obtain ⟨s₁, ha, hrest⟩ := Option.bind_eq_some_iff.mp h
    rw [execMeets, ha, Bool.and_eq_true] at hm
    exact .cons (hg s a hm.1) ha (ih hrest hm.2)

/-- An endless execution: the states one after another, and the actions between them. -/
structure Endless (step : σ → α → Option σ) (s : σ) where
  state : ℕ → σ
  action : ℕ → α
  start : state 0 = s
  step_eq : ∀ k, step (state k) (action k) = some (state (k + 1))

namespace Endless

variable {step : σ → α → Option σ} {s : σ}

/-- Every state of an endless execution ends a run. -/
lemma run (e : Endless step s) (k : ℕ) :
    ∃ as, Run step anyStep s as (e.state k) := by
  induction k with
  | zero => exact ⟨[], by rw [e.start]; exact .nil s⟩
  | succ k ih =>
    obtain ⟨as, h⟩ := ih
    exact ⟨as ++ [e.action k], h.snoc trivial (e.step_eq k)⟩

/-- A measure that no step raises stops changing. -/
theorem settles (e : Endless step s) (μ : σ → ℕ)
    (hμ : ∀ k, μ (e.state (k + 1)) ≤ μ (e.state k)) :
    ∃ k₀, ∀ k, k₀ ≤ k → μ (e.state k) = μ (e.state k₀) := by
  have hanti : Antitone fun k => μ (e.state k) := antitone_nat_of_succ_le hμ
  have hmin := Function.argmin_le (fun k => μ (e.state k))
  refine ⟨Function.argmin fun k => μ (e.state k), fun k hk => le_antisymm (hanti hk) (hmin k)⟩

end Endless

end Habeny.Lib
