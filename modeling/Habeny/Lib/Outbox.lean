import Mathlib.Data.List.Basic

/-!
# Announcements that wait

A change and its announcement are two steps: the announcement waits, in the order of the changes,
until it is sent.  Each one has a key.  If of each key the one that waits longest is sent first,
then what was sent of a key is always an initial part of its history, the announcements in the
order of the changes.
-/

namespace Habeny.Lib

variable {α κ : Type*} [DecidableEq κ]

section OfKey

variable (key : α → κ)

/-- The announcements of a key. -/
def ofKey (k : κ) (l : List α) : List α := l.filter fun a => decide (key a = k)

/-- No announcement of the same key waits before this one. -/
def InTurn (waiting : List α) (i : ℕ) : Prop :=
  ∀ a ∈ waiting[i]?, ∀ b ∈ waiting.take i, key b ≠ key a

end OfKey

variable {key : α → κ} {l l' sent waiting : List α} {a : α} {k : κ} {i : ℕ}

@[simp] lemma ofKey_append : ofKey key k (l ++ l') = ofKey key k l ++ ofKey key k l' :=
  List.filter_append ..

@[simp] lemma ofKey_nil : ofKey key k [] = [] := rfl

lemma ofKey_singleton_self : ofKey key (key a) [a] = [a] := by simp [ofKey]

lemma ofKey_singleton_of_ne (h : key a ≠ k) : ofKey key k [a] = [] := by simp [ofKey, h]

lemma ofKey_map (f : α → α) (hf : ∀ a, key (f a) = key a) :
    ofKey key k (l.map f) = (ofKey key k l).map f := by
  rw [ofKey, List.filter_map, ofKey]
  congr 1
  exact List.filter_congr fun a _ => by rw [Function.comp_apply, hf]

/-- The history of a key: what was sent, and then what waits. -/
def historyOf (key : α → κ) (k : κ) (sent waiting : List α) : List α :=
  ofKey key k sent ++ ofKey key k waiting

/-- **Sending in turn.**  What is sent in its turn leaves every history as it is. -/
theorem historyOf_send (ha : waiting[i]? = some a) (hturn : InTurn key waiting i) (k : κ) :
    historyOf key k (sent ++ [a]) (waiting.eraseIdx i) = historyOf key k sent waiting := by
  obtain ⟨hi, hget⟩ := List.getElem?_eq_some_iff.mp ha
  have hsplit : waiting = waiting.take i ++ a :: waiting.drop (i + 1) := by
    rw [← hget, List.getElem_cons_drop, List.take_append_drop]
  have hrest : waiting.eraseIdx i = waiting.take i ++ waiting.drop (i + 1) :=
    List.eraseIdx_eq_take_drop_succ ..
  have hwaiting : ofKey key k waiting =
      ofKey key k (waiting.take i) ++ (ofKey key k [a] ++ ofKey key k (waiting.drop (i + 1))) := by
    conv_lhs => rw [hsplit]
    rw [List.append_cons, ofKey_append, ofKey_append, List.append_assoc]
  rw [historyOf, historyOf, hrest, hwaiting, ofKey_append, ofKey_append]
  by_cases hk : key a = k
  · -- nothing of this key waits before it
    have hbefore : ofKey key k (waiting.take i) = [] :=
      List.filter_eq_nil_iff.mpr fun b hb => by simpa [← hk] using hturn a ha b hb
    rw [hbefore, List.nil_append, List.nil_append, List.append_assoc]
  · rw [ofKey_singleton_of_ne hk, List.append_nil, List.nil_append]

end Habeny.Lib
