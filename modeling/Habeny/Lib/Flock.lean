import Mathlib.Data.Finset.Basic
import Mathlib.Data.Finset.Insert
import Mathlib.Logic.Function.Basic

/-!
# Locks on an open file

Advisory locks on one file, as `flock` gives them.  A lock belongs to an open description of the
file, which several processes may have: a process that is forked has those of its parent.  The
lock of a description is given up when the last of these processes has closed it.

A lock that is asked for without waiting is refused when another description has one that it does
not go with; only shared locks go with each other.
-/

namespace Habeny.Lib

inductive LockKind where
  | shared
  | exclusive
  deriving DecidableEq

/-- The open descriptions of a file: which processes have them, and their locks. -/
structure Locks where
  /-- the first description that was not opened yet -/
  next : ℕ
  holders : ℕ → Finset ℕ
  lock : ℕ → Option LockKind
  unopened : ∀ o, next ≤ o → holders o = ∅
  unlocked : ∀ o, holders o = ∅ → lock o = none
  compatible : ∀ o o', o ≠ o' → lock o = some .exclusive → lock o' = none

namespace Locks

/-- Nobody has the file open. -/
def empty : Locks where
  next := 0
  holders _ := ∅
  lock _ := none
  unopened _ _ := rfl
  unlocked _ _ := rfl
  compatible _ _ _ h := absurd h (by simp)

variable (l : Locks)

lemma lt_next_of_lock {l : Locks} {o : ℕ} {k : LockKind} (h : l.lock o = some k) : o < l.next := by
  by_contra hge
  rw [l.unlocked o (l.unopened o (not_lt.mp hge))] at h
  cases h

lemma lt_next_of_mem {l : Locks} {o p : ℕ} (h : p ∈ l.holders o) : o < l.next := by
  by_contra hge
  rw [l.unopened o (not_lt.mp hge)] at h
  exact absurd h (Finset.notMem_empty p)

/-- Open the file: a new description. -/
def openFor (p : ℕ) : Locks where
  next := l.next + 1
  holders := Function.update l.holders l.next {p}
  lock := l.lock
  unopened o ho := by
    rw [Function.update_of_ne (by omega)]
    exact l.unopened o (by omega)
  unlocked o ho := by
    by_cases h : o = l.next
    · exact l.unlocked o (l.unopened o h.ge)
    · rw [Function.update_of_ne h] at ho
      exact l.unlocked o ho
  compatible := l.compatible

/-- Whether another description has a lock that does not go with this one. -/
def blocked (o : ℕ) (k : LockKind) : Bool :=
  decide (∃ o' < l.next, o' ≠ o ∧ (l.lock o' = some .exclusive ∨
    k = .exclusive ∧ l.lock o' = some .shared))

lemma blocked_iff {o : ℕ} {k : LockKind} : l.blocked o k = true ↔ ∃ o', o' ≠ o ∧
    (l.lock o' = some .exclusive ∨ k = .exclusive ∧ l.lock o' = some .shared) := by
  rw [blocked, decide_eq_true_eq]
  constructor
  · rintro ⟨o', -, ho'⟩
    exact ⟨o', ho'⟩
  · rintro ⟨o', hne, hlock⟩
    refine ⟨o', ?_, hne, hlock⟩
    rcases hlock with hlock | ⟨-, hlock⟩
    · exact lt_next_of_lock hlock
    · exact lt_next_of_lock hlock

/-- Ask for a lock without waiting (`flock` with `LOCK_NB`). -/
def tryLock (o : ℕ) (k : LockKind) : Option Locks :=
  if h : (l.holders o).Nonempty ∧ l.blocked o k = false then
    some {
      next := l.next
      holders := l.holders
      lock := Function.update l.lock o (some k)
      unopened := l.unopened
      unlocked := fun o' ho' => by
        have hne : o' ≠ o := by
          rintro rfl
          rw [ho'] at h
          exact Finset.not_nonempty_empty h.1
        rw [Function.update_of_ne hne]
        exact l.unlocked o' ho'
      compatible := fun a b hab ha => by
        have hfree := h.2
        rw [← Bool.not_eq_true, blocked_iff] at hfree
        by_cases hao : a = o
        · -- the new lock is exclusive: no other description has one
          subst hao
          rw [Function.update_self, Option.some.injEq] at ha
          rw [Function.update_of_ne (Ne.symm hab)]
          cases hb : l.lock b with
          | none => rfl
          | some kb =>
            refine absurd ⟨b, Ne.symm hab, ?_⟩ hfree
            cases kb with
            | exclusive => exact .inl hb
            | shared => exact .inr ⟨ha, hb⟩
        · rw [Function.update_of_ne hao] at ha
          exact absurd ⟨a, hao, .inl ha⟩ hfree }
  else none

/-- Close a description in a process. -/
def close (p o : ℕ) : Locks where
  next := l.next
  holders := Function.update l.holders o ((l.holders o).erase p)
  lock o' := if o' = o ∧ (l.holders o).erase p = ∅ then none else l.lock o'
  unopened o' ho' := by
    by_cases h : o' = o
    · subst h
      rw [Function.update_self, l.unopened o' ho', Finset.erase_empty]
    · rw [Function.update_of_ne h]
      exact l.unopened o' ho'
  unlocked o' ho' := by
    by_cases h : o' = o
    · subst h
      rw [Function.update_self] at ho'
      exact if_pos ⟨rfl, ho'⟩
    · rw [Function.update_of_ne h] at ho'
      rw [if_neg fun hboth => h hboth.1]
      exact l.unlocked o' ho'
  compatible a b hab ha := by
    split at ha
    · cases ha
    · split
      · rfl
      · exact l.compatible a b hab ha

/-- A process ends: it has nothing open any more. -/
def closeAll (p : ℕ) : Locks where
  next := l.next
  holders o := (l.holders o).erase p
  lock o := if (l.holders o).erase p = ∅ then none else l.lock o
  unopened o ho := by rw [l.unopened o ho, Finset.erase_empty]
  unlocked o ho := if_pos ho
  compatible a b hab ha := by
    split at ha
    · cases ha
    · split
      · rfl
      · exact l.compatible a b hab ha

/-- A process is forked: it has open what its parent has. -/
def share (p child : ℕ) : Locks where
  next := l.next
  holders o := if p ∈ l.holders o then insert child (l.holders o) else l.holders o
  lock := l.lock
  unopened o ho := by
    rw [if_neg (by rw [l.unopened o ho]; exact Finset.notMem_empty p)]
    exact l.unopened o ho
  unlocked o ho := by
    split at ho
    · exact absurd ho (Finset.insert_ne_empty _ _)
    · exact l.unlocked o ho
  compatible := l.compatible

/-! ## What a change leaves to a process -/

/-- A process has the same descriptions open, with the same locks, and those that it alone has
are still its own. -/
structure Frame (l l' : Locks) (q : ℕ) : Prop where
  mem : ∀ o, q ∈ l'.holders o ↔ q ∈ l.holders o
  lock : ∀ o, q ∈ l.holders o → l'.lock o = l.lock o
  single : ∀ o, l.holders o = {q} → l'.holders o = {q}

variable {l} {l' : Locks} {p q o : ℕ} {k : LockKind}

lemma Frame.refl : Frame l l q := ⟨fun _ => Iff.rfl, fun _ _ => rfl, fun _ h => h⟩

lemma frame_openFor (hq : q ≠ p) : Frame l (l.openFor p) q := by
  have hnext : q ∉ l.holders l.next := by
    rw [l.unopened _ le_rfl]
    exact Finset.notMem_empty q
  refine ⟨fun o => ?_, fun _ _ => rfl, fun o ho => ?_⟩
  · show q ∈ Function.update l.holders l.next {p} o ↔ _
    by_cases h : o = l.next
    · rw [h, Function.update_self, Finset.mem_singleton]
      exact ⟨fun heq => absurd heq hq, fun hmem => absurd hmem hnext⟩
    · rw [Function.update_of_ne h]
  · show Function.update l.holders l.next {p} o = {q}
    rw [Function.update_of_ne]
    · exact ho
    · rintro rfl
      exact hnext (ho ▸ Finset.mem_singleton_self q)

lemma tryLock_eq_some (h : l.tryLock o k = some l') :
    l'.holders = l.holders ∧ l'.lock = Function.update l.lock o (some k) ∧
      l.blocked o k = false := by
  unfold tryLock at h
  split at h
  · next hfree =>
    obtain rfl := Option.some.inj h
    exact ⟨rfl, rfl, hfree.2⟩
  · cases h

lemma tryLock_isSome_iff :
    (l.tryLock o k).isSome = true ↔ (l.holders o).Nonempty ∧ l.blocked o k = false := by
  unfold tryLock
  split
  · next hfree => exact ⟨fun _ => hfree, fun _ => rfl⟩
  · next hfree => exact ⟨fun h => absurd h (by simp), fun h => absurd h hfree⟩

lemma frame_tryLock (hq : q ∉ l.holders o) (h : l.tryLock o k = some l') : Frame l l' q := by
  obtain ⟨hholders, hlock, -⟩ := tryLock_eq_some h
  refine ⟨fun o' => by rw [hholders], fun o' ho' => ?_, fun o' ho' => by rw [hholders, ho']⟩
  rw [hlock, Function.update_of_ne]
  rintro rfl
  exact hq ho'

lemma frame_close (hq : q ≠ p) : Frame l (l.close p o) q := by
  refine ⟨fun o' => ?_, fun o' ho' => ?_, fun o' ho' => ?_⟩
  · show q ∈ Function.update l.holders o _ o' ↔ _
    by_cases h : o' = o
    · rw [h, Function.update_self, Finset.mem_erase]
      exact ⟨fun hmem => hmem.2, fun hmem => ⟨hq, hmem⟩⟩
    · rw [Function.update_of_ne h]
  · refine if_neg ?_
    rintro ⟨rfl, hempty⟩
    have hmem : q ∈ (l.holders o').erase p := Finset.mem_erase.mpr ⟨hq, ho'⟩
    rw [hempty] at hmem
    exact Finset.notMem_empty q hmem
  · show Function.update l.holders o _ o' = _
    by_cases h : o' = o
    · subst h
      rw [Function.update_self, ho', Finset.erase_eq_of_notMem]
      exact fun hmem => hq (Finset.mem_singleton.mp hmem).symm
    · rw [Function.update_of_ne h, ho']

lemma frame_closeAll (hq : q ≠ p) : Frame l (l.closeAll p) q := by
  refine ⟨fun o' => ?_, fun o' ho' => ?_, fun o' ho' => ?_⟩
  · show q ∈ (l.holders o').erase p ↔ _
    rw [Finset.mem_erase]
    exact ⟨fun hmem => hmem.2, fun hmem => ⟨hq, hmem⟩⟩
  · refine if_neg fun hempty => ?_
    have hmem : q ∈ (l.holders o').erase p := Finset.mem_erase.mpr ⟨hq, ho'⟩
    rw [hempty] at hmem
    exact Finset.notMem_empty q hmem
  · show (l.holders o').erase p = _
    rw [ho', Finset.erase_eq_of_notMem]
    exact fun hmem => hq (Finset.mem_singleton.mp hmem).symm

lemma mem_share {child : ℕ} : q ∈ (l.share p child).holders o ↔
    q ∈ l.holders o ∨ q = child ∧ p ∈ l.holders o := by
  show q ∈ (if p ∈ l.holders o then insert child (l.holders o) else l.holders o) ↔ _
  split
  · next h =>
    rw [Finset.mem_insert]
    tauto
  · next h => tauto

lemma share_eq_of_notMem {child : ℕ} (hp : p ∉ l.holders o) :
    (l.share p child).holders o = l.holders o := if_neg hp

end Locks

end Habeny.Lib
