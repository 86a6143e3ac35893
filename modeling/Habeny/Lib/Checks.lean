import Mathlib.Data.List.Basic

/-!
# Checks one after the other

A check returns a value or raises.  Checks one after the other pass exactly when each passes on
what the ones before it returned; the check of every item of a list passes when it passes on each.
-/

namespace Habeny.Lib.Checks

variable {ε α β : Type}

lemma bind_eq_ok_iff {x : Except ε α} {f : α → Except ε β} {b : β} :
    (x >>= f) = .ok b ↔ ∃ a, x = .ok a ∧ f a = .ok b := by
  cases x with
  | error e =>
    constructor
    · intro h
      cases h
    · rintro ⟨a, ha, -⟩
      cases ha
  | ok a =>
    constructor
    · exact fun h => ⟨a, rfl, h⟩
    · rintro ⟨a', ha, hb⟩
      cases ha
      exact hb

lemma forM_eq_ok_iff {f : α → Except ε Unit} {items : List α} :
    items.forM f = .ok () ↔ ∀ a ∈ items, f a = .ok () := by
  induction items with
  | nil => exact ⟨fun _ a ha => absurd ha List.not_mem_nil, fun _ => rfl⟩
  | cons a items ih =>
    have hcons : (a :: items).forM f = (f a >>= fun _ => items.forM f) := rfl
    rw [hcons, bind_eq_ok_iff, List.forall_mem_cons]
    constructor
    · rintro ⟨⟨⟩, ha, hitems⟩
      exact ⟨ha, ih.mp hitems⟩
    · rintro ⟨ha, hitems⟩
      exact ⟨(), ha, ih.mpr hitems⟩

/-- Raise unless a condition holds. -/
def require (cond : Bool) (e : ε) : Except ε Unit := if cond then .ok () else .error e

@[simp] lemma require_eq_ok_iff {cond : Bool} {e : ε} {u : Unit} :
    require cond e = .ok u ↔ cond = true := by
  cases cond <;> simp [require]

end Habeny.Lib.Checks
