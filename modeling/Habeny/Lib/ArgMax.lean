import Mathlib.Data.List.MinMax
import Mathlib.Order.Basic

/-!
# Looking for the best in a loop

A loop that keeps the best score so far, from a score to start with, and the item that has it.  It
ends with the first item of the highest score, if that is above the score it started with, and with
nothing otherwise.
-/

namespace Habeny.Lib.ArgMax

variable {α β : Type*} [LinearOrder β] {score : α → β} {start : β} {xs ys : List α}

/-- One turn: an item that is better than all before takes their place. -/
def keepBetter (score : α → β) (best : β × Option α) (x : α) : β × Option α :=
  if best.1 < score x then (score x, some x) else best

/-- What the loop ends with. -/
def bestAbove (score : α → β) (start : β) (xs : List α) : Option α :=
  (xs.foldl (keepBetter score) (start, none)).2

/-- The score that is kept is the one of the item, if there is one. -/
lemma foldl_keepBetter (xs : List α) :
    xs.foldl (keepBetter score) (start, none) =
      ((bestAbove score start xs).elim start score, bestAbove score start xs) := by
  refine Prod.ext ?_ rfl
  induction xs using List.reverseRecOn with
  | nil => rfl
  | append_singleton xs x ih =>
    rw [bestAbove, List.foldl_append, List.foldl_cons, List.foldl_nil, keepBetter]
    split_ifs
    · rfl
    · exact ih

lemma bestAbove_concat (xs : List α) (x : α) :
    bestAbove score start (xs ++ [x]) =
      if (bestAbove score start xs).elim start score < score x then some x
      else bestAbove score start xs := by
  rw [bestAbove, List.foldl_append, foldl_keepBetter, List.foldl_cons, List.foldl_nil, keepBetter]
  split_ifs <;> rfl

/-- **The loop finds the first item of the highest score**, if that is above the start. -/
theorem bestAbove_eq (xs : List α) :
    bestAbove score start xs = (xs.argmax score).filter fun x => decide (start < score x) := by
  induction xs using List.reverseRecOn with
  | nil => rfl
  | append_singleton xs x ih =>
    rw [bestAbove_concat, ih, List.argmax_concat]
    cases xs.argmax score with
    | none => by_cases hx : start < score x <;> simp [Option.filter, hx]
    | some a =>
      by_cases ha : start < score a
      · by_cases hx : score a < score x
        · simp [Option.filter, ha, hx, ha.trans hx]
        · simp [Option.filter, ha, hx]
      · by_cases hx : score a < score x
        · simp [Option.filter, ha, hx]
        · have hstart : ¬start < score x := fun h => ha (h.trans_le (not_lt.mp hx))
          simp [Option.filter, ha, hx, hstart]

lemma mem_of_bestAbove {w : α} (h : bestAbove score start xs = some w) : w ∈ xs := by
  rw [bestAbove_eq, Option.filter_eq_some_iff] at h
  exact List.argmax_mem h.1

lemma le_of_bestAbove {w x : α} (h : bestAbove score start xs = some w) (hx : x ∈ xs) :
    score x ≤ score w := by
  rw [bestAbove_eq, Option.filter_eq_some_iff] at h
  exact List.le_of_mem_argmax hx h.1

/-- Something is found exactly if something is above the start. -/
theorem exists_bestAbove_iff :
    (∃ w, bestAbove score start xs = some w) ↔ ∃ x ∈ xs, start < score x := by
  constructor
  · rintro ⟨w, hw⟩
    have habove := hw
    rw [bestAbove_eq, Option.filter_eq_some_iff] at habove
    exact ⟨w, mem_of_bestAbove hw, of_decide_eq_true habove.2⟩
  · rintro ⟨x, hx, habove⟩
    cases hargmax : xs.argmax score with
    | none =>
      rw [List.argmax_eq_none.mp hargmax] at hx
      exact absurd hx List.not_mem_nil
    | some w =>
      have hle : score x ≤ score w := List.le_of_mem_argmax hx hargmax
      refine ⟨w, ?_⟩
      rw [bestAbove_eq, hargmax, Option.filter_some, if_pos (decide_eq_true (habove.trans_le hle))]

/-- In another order something of the same score is found. -/
lemma score_of_perm (hperm : ys.Perm xs) {w : α} (hw : bestAbove score start xs = some w) :
    ∃ w', bestAbove score start ys = some w' ∧ score w' = score w := by
  obtain ⟨x, hx, habove⟩ := exists_bestAbove_iff.mp ⟨w, hw⟩
  obtain ⟨w', hw'⟩ := exists_bestAbove_iff.mpr ⟨x, hperm.mem_iff.mpr hx, habove⟩
  refine ⟨w', hw', le_antisymm ?_ ?_⟩
  · exact le_of_bestAbove hw (hperm.mem_iff.mp (mem_of_bestAbove hw'))
  · exact le_of_bestAbove hw' (hperm.mem_iff.mpr (mem_of_bestAbove hw))

end Habeny.Lib.ArgMax
