import Mathlib.Data.Option.Basic
import Mathlib.Logic.Basic

/-!
# Filling in what a request leaves out

A setting has a value that a client gives or leaves out, a default, and a value from elsewhere that
should be used where the client gives none.  A program that no longer sees what was left out looks
at the value, and takes some values for ones that were left out.

`fill_eq_intended_iff` says which three kinds of values it then gets wrong.
-/

namespace Habeny.Lib.FillIn

variable {V : Type*} (empty : V → Bool)

/-- A value, if there is one that is not empty. -/
def present (v : Option V) : Option V := v.filter fun x => !empty x

/-- Use the other value where this one is missing, or is taken for missing. -/
def fill (unset : V → Bool) (value other : Option V) : Option V :=
  match other, value with
  | none, value => value
  | some p, none => some p
  | some p, some v => if unset v then some p else some v

/-- The value that is meant: the client's, else the other one, else the default. -/
def intended (given : Option (Option V)) (default other : Option V) : Option V :=
  ((given.bind (present empty)).or (present empty other)).or (present empty default)

/-- How a value is got wrong: a given value is taken for one that was left out, the default of a
value that was left out is taken for a given one, or an empty value replaces the default. -/
inductive Wrong (unset : V → Bool) (refill : Bool) (given : Option (Option V))
    (default other : Option V) : Prop
  | overwritten (v p : V) : given = some (some v) → empty v = false → unset v = true →
      present empty other = some p → p ≠ v → Wrong unset refill given default other
  | ignored (d p : V) : given = none → present empty default = some d → unset d = false →
      present empty other = some p → p ≠ d → Wrong unset refill given default other
  | emptied (e : Option V) (d : V) : given = some e → present empty e = none →
      present empty other = none → present empty default = some d → refill = false →
      Wrong unset refill given default other

variable {empty} {unset : V → Bool} {refill : Bool}

@[simp] lemma present_none : present empty none = none := rfl

@[simp] lemma present_present (v : Option V) : present empty (present empty v) = present empty v := by
  simp [present, Option.filter_filter]

lemma present_some_iff {v : Option V} {x : V} :
    present empty v = some x ↔ v = some x ∧ empty x = false := by
  simp [present, Option.filter_eq_some_iff]

lemma present_some_of_empty {x : V} (h : empty x = true) : present empty (some x) = none := by
  simp [present, h]

lemma present_some_of_not_empty {x : V} (h : empty x = false) :
    present empty (some x) = some x := present_some_iff.mpr ⟨rfl, h⟩

/-- A value that was left out is wrong if its default is taken for given. -/
lemma leftOut_iff (default other : Option V) :
    (fill unset (present empty default) (present empty other)).or
        (if refill then present empty default else none) = intended empty none default other ↔
      ¬Wrong empty unset refill none default other := by
  have hwrong : Wrong empty unset refill none default other ↔ ∃ d p, present empty default = some d ∧
      unset d = false ∧ present empty other = some p ∧ p ≠ d := by
    constructor
    · rintro (⟨_, _, h, _⟩ | ⟨d, p, _, hd, hunset, hp, hne⟩ | ⟨_, _, h, _⟩)
      · cases h
      · exact ⟨d, p, hd, hunset, hp, hne⟩
      · cases h
    · rintro ⟨d, p, hd, hunset, hp, hne⟩
      exact .ignored d p rfl hd hunset hp hne
  rw [hwrong]
  cases hp : present empty other with
  | none => cases hd : present empty default <;> simp [fill, intended, hp, hd]
  | some p =>
    cases hd : present empty default with
    | none => simp [fill, intended, hp]
    | some d =>
      cases hunset : unset d with
      | true => simp [fill, intended, hp, hunset]
      | false =>
        simp only [fill, intended, hp, hunset]
        simp [hunset, eq_comm (a := d)]

/-- An empty value is wrong if it stays in the place of the default. -/
lemma empty_iff {e : Option V} (he : present empty e = none) (default other : Option V) :
    (fill unset (present empty e) (present empty other)).or
        (if refill then present empty default else none) =
          intended empty (some e) default other ↔
      ¬Wrong empty unset refill (some e) default other := by
  have hwrong : Wrong empty unset refill (some e) default other ↔
      present empty other = none ∧ (∃ d, present empty default = some d) ∧ refill = false := by
    constructor
    · rintro (⟨v, _, h, hv, _⟩ | ⟨_, _, h, _⟩ | ⟨_, d, _, _, hp, hd, hrefill⟩)
      · cases h
        exact absurd (present_some_iff.mpr ⟨rfl, hv⟩) (by simp [he])
      · cases h
      · exact ⟨hp, ⟨d, hd⟩, hrefill⟩
    · rintro ⟨hp, ⟨d, hd⟩, hrefill⟩
      exact .emptied e d rfl he hp hd hrefill
  rw [hwrong]
  cases hp : present empty other with
  | none =>
    cases hd : present empty default <;> cases refill <;> simp [fill, intended, he, hp, hd]
  | some p => simp [fill, intended, he, hp]

/-- A given value is wrong if it is taken for one that was left out. -/
lemma given_iff {e : Option V} {v : V} (he : present empty e = some v)
    (default other : Option V) :
    (fill unset (present empty e) (present empty other)).or
        (if refill then present empty default else none) =
          intended empty (some e) default other ↔
      ¬Wrong empty unset refill (some e) default other := by
  obtain ⟨rfl, hv⟩ := present_some_iff.mp he
  have hwrong : Wrong empty unset refill (some (some v)) default other ↔
      unset v = true ∧ ∃ p, present empty other = some p ∧ p ≠ v := by
    constructor
    · rintro (⟨w, p, h, _, hunset, hp, hne⟩ | ⟨_, _, h, _⟩ | ⟨_, _, h, hnone, _⟩)
      · cases h
        exact ⟨hunset, p, hp, hne⟩
      · cases h
      · cases h
        simp [he] at hnone
    · rintro ⟨hunset, p, hp, hne⟩
      exact .overwritten v p rfl hv hunset hp hne
  rw [hwrong]
  cases hp : present empty other with
  | none => simp [fill, intended, he]
  | some p => cases hunset : unset v <;> simp [fill, intended, he, hunset]

/-- **The value is the one that is meant** except in three cases. -/
theorem fill_eq_intended_iff (given : Option (Option V)) (default other : Option V) :
    (fill unset (present empty (given.getD default)) (present empty other)).or
        (if refill then present empty default else none) = intended empty given default other ↔
      ¬Wrong empty unset refill given default other := by
  cases given with
  | none => exact leftOut_iff default other
  | some e =>
    cases he : present empty e with
    | none => rw [Option.getD_some, empty_iff he]
    | some v => rw [Option.getD_some, given_iff he]

end Habeny.Lib.FillIn
