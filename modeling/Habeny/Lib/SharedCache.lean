import Mathlib.Logic.Function.Basic
import Mathlib.Algebra.Order.Ring.Int

/-!
# A cache of values that expire

A value is stored with the time until which it is found, its lifetime after it was stored.  Several
threads may share the cache, so a value that is found need not be the finder's own: what is known
of it is what held of every value when it was stored (`Sound`).
-/

namespace Habeny.Lib

/-- A value, with the time until which it is found. -/
structure Kept (V : Type*) where
  expires : ℤ
  value : V

/-- The values that are kept. -/
abbrev TtlCache (κ V : Type*) := κ → Option (Kept V)

namespace TtlCache

variable {κ V : Type*}

def empty : TtlCache κ V := fun _ => none

/-- The value of a key, if it has not expired. -/
def look (c : TtlCache κ V) (k : κ) (now : ℤ) : Option V :=
  match c k with
  | some e => if now < e.expires then some e.value else none
  | none => none

/-- What is kept met `P` for its key at the time it was stored. -/
def Sound (ttl : ℤ) (P : κ → ℤ → V → Prop) (c : TtlCache κ V) : Prop :=
  ∀ k e, c k = some e → P k (e.expires - ttl) e.value

/-- What is kept for a key was stored at a time or later. -/
def StoredSince (ttl : ℤ) (k : κ) (t : ℤ) : TtlCache κ V → Prop :=
  Sound ttl fun k' s _ => k' = k → t ≤ s

variable {c : TtlCache κ V} {ttl now t : ℤ} {k k' : κ} {v : V} {P Q : κ → ℤ → V → Prop}

lemma sound_empty : Sound ttl P (empty : TtlCache κ V) := by
  intro k e h
  cases h

lemma Sound.mono (h : Sound ttl P c) (hle : ∀ k s v, P k s v → Q k s v) : Sound ttl Q c :=
  fun k e he => hle _ _ _ (h k e he)

lemma Sound.and (h : Sound ttl P c) (h' : Sound ttl Q c) :
    Sound ttl (fun k s v => P k s v ∧ Q k s v) c :=
  fun k e he => ⟨h k e he, h' k e he⟩

/-- **What is found** was stored less than its lifetime ago, and met `P` then. -/
theorem Sound.of_look (h : Sound ttl P c) (hl : c.look k now = some v) :
    ∃ s, now < s + ttl ∧ P k s v := by
  rw [look] at hl
  split at hl
  · next e he =>
    split_ifs at hl with hfresh
    rw [Option.some.injEq] at hl
    subst hl
    exact ⟨e.expires - ttl, by omega, h k e he⟩
  · cases hl

variable [DecidableEq κ]

/-- Store a value with a lifetime. -/
def store (c : TtlCache κ V) (k : κ) (now ttl : ℤ) (v : V) : TtlCache κ V :=
  Function.update c k (some ⟨now + ttl, v⟩)

def drop (c : TtlCache κ V) (k : κ) : TtlCache κ V := Function.update c k none

lemma Sound.store (h : Sound ttl P c) (hv : P k now v) : Sound ttl P (c.store k now ttl v) := by
  intro k' e he
  by_cases hk : k' = k
  · subst hk
    rw [TtlCache.store, Function.update_self, Option.some.injEq] at he
    subst he
    simpa using hv
  · rw [TtlCache.store, Function.update_of_ne hk] at he
    exact h k' e he

lemma Sound.drop (h : Sound ttl P c) : Sound ttl P (c.drop k) := by
  intro k' e he
  by_cases hk : k' = k
  · subst hk
    rw [TtlCache.drop, Function.update_self] at he
    cases he
  · rw [TtlCache.drop, Function.update_of_ne hk] at he
    exact h k' e he

lemma storedSince_drop : StoredSince ttl k t (c.drop k) := by
  intro k' e he hk
  subst hk
  rw [drop, Function.update_self] at he
  cases he

end TtlCache

end Habeny.Lib
