import Mathlib.Algebra.Order.Group.Defs
import Mathlib.Algebra.Order.Sub.Unbundled.Basic
import Mathlib.Data.List.Count
import Mathlib.Data.List.TakeWhile

/-!
# Events in a sliding window

A queue of times is meant to hold the events of the last `w` units of time: old times are
removed at its front and new ones are added at its end.  `Tracks w now log queue` says that the
queue has what is left of the whole log: the times it lacks are older than the window.

An event that is added while the queue is shorter than a bound keeps the bound for every window
of the log, wherever the window lies (`Limited.record`).  Emptying the queue keeps it as well if
nothing in it is from the last `w` units (`Tracks.clear`).
-/

namespace Habeny.Lib

variable {α : Type*} [LinearOrder α]

/-- Remove the times before a cutoff from the front. -/
def prune (cutoff : α) (queue : List α) : List α := queue.dropWhile fun t => decide (t < cutoff)

lemma prune_suffix (cutoff : α) (queue : List α) : prune cutoff queue <:+ queue :=
  List.dropWhile_suffix _

lemma length_prune_le (cutoff : α) (queue : List α) : (prune cutoff queue).length ≤ queue.length :=
  (prune_suffix cutoff queue).length_le

/-- What is removed is before the cutoff. -/
lemma exists_prune (cutoff : α) (queue : List α) :
    ∃ old, queue = old ++ prune cutoff queue ∧ ∀ t ∈ old, t < cutoff := by
  refine ⟨_, (List.takeWhile_append_dropWhile).symm, fun t ht => ?_⟩
  simpa using List.mem_takeWhile_imp ht

lemma prune_cons_of_lt {cutoff t : α} (h : t < cutoff) (queue : List α) :
    prune cutoff (t :: queue) = prune cutoff queue :=
  List.dropWhile_cons_of_pos (decide_eq_true h)

lemma prune_cons_of_le {cutoff t : α} (h : cutoff ≤ t) (queue : List α) :
    prune cutoff (t :: queue) = t :: queue :=
  List.dropWhile_cons_of_neg (by simpa using h)

/-- A later cutoff removes what an earlier one would have removed before it. -/
lemma prune_prune {cutoff later : α} (h : cutoff ≤ later) (queue : List α) :
    prune later (prune cutoff queue) = prune later queue := by
  induction queue with
  | nil => rfl
  | cons t queue ih =>
    by_cases ht : t < cutoff
    · rw [prune_cons_of_lt ht, prune_cons_of_lt (ht.trans_le h)]
      exact ih
    · rw [prune_cons_of_le (not_lt.mp ht)]

variable [AddCommGroup α]

/-- How many times lie in the closed window of width `w` that begins at `x`. -/
def inWindow (w x : α) (log : List α) : ℕ := log.countP fun t => decide (x ≤ t ∧ t ≤ x + w)

/-- No window of width `w` has more than `bound` of the times. -/
def Limited (bound : ℕ) (w : α) (log : List α) : Prop := ∀ x, inWindow w x log ≤ bound

/-- The queue is the end of the log, and what it lacks is older than the window. -/
def Tracks (w now : α) (log queue : List α) : Prop :=
  ∃ old, log = old ++ queue ∧ ∀ t ∈ old, t < now - w

lemma limited_nil (bound : ℕ) (w : α) : Limited bound w [] := fun _ => Nat.zero_le _

namespace Tracks

variable {w now now' : α} {log queue : List α}

lemma nil (w now : α) : Tracks w now [] [] := ⟨[], rfl, fun _ h => absurd h List.not_mem_nil⟩

lemma mono [IsOrderedAddMonoid α] (h : Tracks w now log queue) (hle : now ≤ now') : Tracks w now' log queue := by
  obtain ⟨old, hlog, hold⟩ := h
  exact ⟨old, hlog, fun t ht => (hold t ht).trans_le (sub_le_sub_right hle w)⟩

/-- Removing what is older than the window. -/
lemma prune (h : Tracks w now log queue) : Tracks w now log (prune (now - w) queue) := by
  obtain ⟨old, rfl, hold⟩ := h
  obtain ⟨gone, hqueue, hgone⟩ := exists_prune (now - w) queue
  refine ⟨old ++ gone, ?_, fun t ht => ?_⟩
  · rw [List.append_assoc, ← hqueue]
  · rcases List.mem_append.mp ht with ht | ht
    · exact hold t ht
    · exact hgone t ht

lemma record (h : Tracks w now log queue) : Tracks w now (log ++ [now]) (queue ++ [now]) := by
  obtain ⟨old, rfl, hold⟩ := h
  exact ⟨old, List.append_assoc old queue [now], hold⟩

/-- A queue whose times are all older than the window may be emptied. -/
lemma clear (h : Tracks w now log queue) (hold : Habeny.Lib.prune (now - w) queue = []) :
    Tracks w now log [] := by
  have hpruned := h.prune
  rwa [hold] at hpruned

end Tracks

/-- **The bound survives one more event** that is recorded while the queue is shorter than the
bound. -/
theorem Limited.record [IsOrderedAddMonoid α] {bound : ℕ} {w now : α} {log queue : List α} (h : Limited bound w log)
    (htracks : Tracks w now log queue) (hlen : queue.length < bound) :
    Limited bound w (log ++ [now]) := by
  intro x
  obtain ⟨old, rfl, hold⟩ := htracks
  by_cases hnow : x ≤ now ∧ now ≤ x + w
  · -- a window with the new event has none of the times that the queue lacks
    have hnone : inWindow w x old = 0 := by
      refine List.countP_eq_zero.mpr fun t ht hin => ?_
      have hlt : t < x := (hold t ht).trans_le (sub_le_iff_le_add.mpr hnow.2)
      exact absurd (of_decide_eq_true hin).1 (not_le.mpr hlt)
    have hqueue : inWindow w x queue ≤ queue.length := List.countP_le_length
    simp only [inWindow, List.countP_append, List.countP_singleton] at hnone hqueue ⊢
    split_ifs <;> omega
  · have hrest := h x
    simp only [inWindow, List.countP_append, List.countP_singleton, decide_eq_false hnow,
      Bool.false_eq_true, if_false] at hrest ⊢
    omega

end Habeny.Lib
