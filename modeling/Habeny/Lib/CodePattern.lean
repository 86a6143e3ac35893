import Habeny.Lib.Lines

/-!
# Patterns of code points

Regular expressions without captures, over code points.  As in `Regex`, a pattern gives everything
that can be left of a text after a match at its beginning; here a whole pattern can be repeated, up
to a number of times or as often as it goes.

Whatever a pattern matches is made of the characters that stand in it (`allowed_of_fullmatch`).
-/

namespace Habeny.Lib

inductive CodePattern where
  | one (p : ℕ → Bool)
  | seq (a b : CodePattern)
  | alt (a b : CodePattern)
  /-- up to so many times -/
  | upTo (a : CodePattern) (n : ℕ)
  | star (a : CodePattern)

namespace CodePattern

/-- What can be left after up to so many matches, one after the other. -/
def iterate (f : CodeText → List CodeText) : ℕ → CodeText → List CodeText
  | 0, s => [s]
  | n + 1, s => (f s).flatMap (iterate f n) ++ [s]

/-- What can be left after a match at the beginning. -/
def rest : CodePattern → CodeText → List CodeText
  | one _, [] => []
  | one p, c :: s => if p c then [s] else []
  | seq a b, s => (a.rest s).flatMap b.rest
  | alt a b, s => a.rest s ++ b.rest s
  | upTo a n, s => iterate a.rest n s
  | star a, s => iterate a.rest s.length s

/-- `re.fullmatch` -/
def fullmatch (a : CodePattern) (s : CodeText) : Bool := (a.rest s).any List.isEmpty

def opt (a : CodePattern) : CodePattern := upTo a 1

/-- From `lo` to `hi` times. -/
def between (a : CodePattern) : ℕ → ℕ → CodePattern
  | 0, hi => upTo a hi
  | lo + 1, hi => seq a (between a lo (hi - 1))

/-- The characters that stand in a pattern. -/
def allows : CodePattern → ℕ → Bool
  | one p, c => p c
  | seq a b, c => a.allows c || b.allows c
  | alt a b, c => a.allows c || b.allows c
  | upTo a _, c => a.allows c
  | star a, c => a.allows c

/-! ## What is matched -/

variable {p : ℕ → Bool} {f : CodeText → List CodeText} {s t : CodeText}

/-- Only characters of a kind stand between a text and what is left of it. -/
def Takes (p : ℕ → Bool) (s t : CodeText) : Prop := ∃ u, s = u ++ t ∧ ∀ c ∈ u, p c = true

lemma Takes.refl (p : ℕ → Bool) (s : CodeText) : Takes p s s := ⟨[], rfl, by simp⟩

lemma Takes.trans {u : CodeText} (h : Takes p s t) (h' : Takes p t u) : Takes p s u := by
  obtain ⟨v, rfl, hv⟩ := h
  obtain ⟨w, rfl, hw⟩ := h'
  refine ⟨v ++ w, (List.append_assoc v w u).symm, fun c hc => ?_⟩
  obtain hc | hc := List.mem_append.mp hc
  · exact hv c hc
  · exact hw c hc

lemma Takes.mono {q : ℕ → Bool} (h : Takes p s t) (hpq : ∀ c, p c = true → q c = true) :
    Takes q s t := by
  obtain ⟨u, rfl, hu⟩ := h
  exact ⟨u, rfl, fun c hc => hpq c (hu c hc)⟩

lemma takes_iterate (hf : ∀ s t, t ∈ f s → Takes p s t) :
    ∀ n s t, t ∈ iterate f n s → Takes p s t
  | 0, s, t, h => by
    rw [List.mem_singleton.mp h]
    exact Takes.refl p s
  | n + 1, s, t, h => by
    rw [iterate, List.mem_append, List.mem_flatMap, List.mem_singleton] at h
    obtain ⟨u, hu, ht⟩ | rfl := h
    · exact (hf s u hu).trans (takes_iterate hf n u t ht)
    · exact Takes.refl p t

lemma takes_rest (a : CodePattern) : ∀ s t, t ∈ a.rest s → Takes a.allows s t := by
  induction a with
  | one p =>
    intro s t h
    cases s with
    | nil => exact absurd h List.not_mem_nil
    | cons c s =>
      rw [rest] at h
      split_ifs at h with hc
      · rw [List.mem_singleton.mp h]
        exact ⟨[c], rfl, fun d hd => by rw [List.mem_singleton.mp hd]; exact hc⟩
      · exact absurd h List.not_mem_nil
  | seq a b iha ihb =>
    intro s t h
    obtain ⟨u, hu, ht⟩ := List.mem_flatMap.mp h
    refine ((iha s u hu).mono fun c hc => ?_).trans ((ihb u t ht).mono fun c hc => ?_)
    · rw [allows, hc, Bool.true_or]
    · rw [allows, hc, Bool.or_true]
  | alt a b iha ihb =>
    intro s t h
    obtain h | h := List.mem_append.mp h
    · exact (iha s t h).mono fun c hc => by rw [allows, hc, Bool.true_or]
    · exact (ihb s t h).mono fun c hc => by rw [allows, hc, Bool.or_true]
  | upTo a n ih =>
    intro s t h
    exact takes_iterate ih n s t h
  | star a ih =>
    intro s t h
    exact takes_iterate ih s.length s t h

/-- **What a pattern matches is made of its characters.** -/
theorem allowed_of_fullmatch {a : CodePattern} (h : a.fullmatch s = true) :
    ∀ c ∈ s, a.allows c = true := by
  obtain ⟨t, ht, hnil⟩ := List.any_eq_true.mp h
  obtain ⟨u, rfl, hu⟩ := takes_rest a s t ht
  rw [List.isEmpty_iff.mp hnil, List.append_nil]
  exact hu

end CodePattern

end Habeny.Lib
