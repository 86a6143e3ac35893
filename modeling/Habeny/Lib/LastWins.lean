import Mathlib.Data.List.Perm.Basic
import Mathlib.Data.List.Induction
import Mathlib.Algebra.BigOperators.Group.List.Lemmas
import Mathlib.Algebra.GroupWithZero.Nat
import Mathlib.Algebra.Order.Group.Nat

/-!
# Assigning in a loop

A loop that assigns to a variable leaves what was assigned last.  If the items come in no particular
order, the variable ends with one value in all orders exactly if every item that assigns, assigns
that value.  In particular it ends with the sum of the items' numbers only if there is one item, or
all numbers are zero.
-/

namespace Habeny.Lib.LastWins

variable {α β : Type*}

/-- What is left in a variable to which some of the items assign. -/
def lastAssigned (f : α → Option β) (items : List α) (init : β) : β :=
  items.foldl (fun v a => (f a).getD v) init

variable {f : α → Option β}

@[simp] lemma lastAssigned_nil (init : β) : lastAssigned f [] init = init := rfl

lemma lastAssigned_concat (items : List α) (a : α) (init : β) :
    lastAssigned f (items ++ [a]) init = (f a).getD (lastAssigned f items init) := by
  simp [lastAssigned]

/-- If all that assign assign one value, that value is left. -/
lemma lastAssigned_eq {items : List α} {init v : β} (h : ∀ a ∈ items, ∀ x ∈ f a, x = v)
    (hnone : (∀ a ∈ items, f a = none) → init = v) : lastAssigned f items init = v := by
  induction items using List.reverseRecOn with
  | nil => exact hnone fun a ha => absurd ha List.not_mem_nil
  | append_singleton items a ih =>
    rw [lastAssigned_concat]
    cases ha : f a with
    | some x => exact h a (by simp) x ha
    | none =>
      refine ih (fun b hb => h b (by simp [hb])) fun hall => hnone fun b hb => ?_
      rcases List.mem_append.mp hb with hb | hb
      · exact hall b hb
      · rwa [List.mem_singleton.mp hb]

/-- **In all orders one value is left** exactly if nothing else is assigned. -/
theorem lastAssigned_perm_iff [DecidableEq α] (items : List α) (init v : β) :
    (∀ items', items'.Perm items → lastAssigned f items' init = v) ↔
      (∀ a ∈ items, ∀ x ∈ f a, x = v) ∧ ((∀ a ∈ items, f a = none) → init = v) := by
  constructor
  · intro h
    refine ⟨fun a ha x hx => ?_, fun hnone => ?_⟩
    · -- the item that assigns may come last
      have hlast := h (items.erase a ++ [a])
        ((List.perm_append_singleton a _).trans (List.perm_cons_erase ha).symm)
      rw [lastAssigned_concat, Option.mem_def.mp hx] at hlast
      exact hlast
    · have hkeep : lastAssigned f items init = init :=
        lastAssigned_eq (fun a ha x hx => by simp [hnone a ha] at hx) fun _ => rfl
      exact hkeep.symm.trans (h items (.refl items))
  · rintro ⟨hvalue, hnone⟩ items' hperm
    exact lastAssigned_eq (fun a ha => hvalue a (hperm.subset ha))
      fun hall => hnone fun a ha => hall a (hperm.symm.subset ha)

/-- The sum of the items' numbers is zero only if they all are. -/
lemma sum_eq_zero_iff (g : α → ℕ) (items : List α) :
    (items.map g).sum = 0 ↔ ∀ a ∈ items, g a = 0 := by
  induction items with
  | nil => simp
  | cons a items ih =>
    rw [List.map_cons, List.sum_cons, Nat.add_eq_zero_iff, ih]
    simp

/-- Every item's number is the sum of all numbers only if there is one item, or all are zero. -/
lemma forall_eq_sum_iff (g : α → ℕ) (items : List α) :
    (∀ a ∈ items, g a = (items.map g).sum) ↔ items.length ≤ 1 ∨ ∀ a ∈ items, g a = 0 := by
  constructor
  · intro h
    rcases items with _ | ⟨a, _ | ⟨b, rest⟩⟩
    · exact .inl (Nat.zero_le 1)
    · exact .inl le_rfl
    · right
      have ha := h a (by simp)
      have hb := h b (by simp)
      rw [List.map_cons, List.map_cons, List.sum_cons, List.sum_cons] at ha hb
      intro c hc
      rw [h c hc, List.map_cons, List.map_cons, List.sum_cons, List.sum_cons]
      omega
  · rintro (hlength | hzero) a ha
    · rcases items with _ | ⟨b, _ | ⟨c, rest⟩⟩
      · exact absurd ha List.not_mem_nil
      · rw [List.mem_singleton.mp ha]
        simp
      · simp at hlength
    · rw [hzero a ha, (sum_eq_zero_iff g items).mpr hzero]

/-- What holds of some of the items in all orders of them holds in all orders of all items. -/
lemma forall_filter_perm_iff (p : α → Bool) (items : List α) (P : List α → Prop) :
    (∀ items' : List α, items'.Perm items → P (items'.filter p)) ↔
      ∀ some' : List α, some'.Perm (items.filter p) → P some' := by
  constructor
  · intro h some' hperm
    have hall : (some' ++ items.filter fun a => !p a).Perm items :=
      (hperm.append_right _).trans (List.filter_append_perm p items)
    have hkeep : some'.filter p = some' := by
      rw [List.filter_eq_self]
      exact fun a ha => (List.mem_filter.mp (hperm.subset ha)).2
    have hrest : (items.filter fun a => !p a).filter p = [] := by
      rw [List.filter_eq_nil_iff]
      intro a ha
      simpa using (List.mem_filter.mp ha).2
    have := h _ hall
    rwa [List.filter_append, hkeep, hrest, List.append_nil] at this
  · exact fun h items' hperm => h _ (hperm.filter p)

end Habeny.Lib.LastWins
