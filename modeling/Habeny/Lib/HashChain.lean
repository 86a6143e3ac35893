import Mathlib.Data.List.Basic
import Mathlib.Data.List.Induction
import Mathlib.Algebra.Order.Ring.Int

/-!
# Chains of links

A chain grows at its end: a place accepts a link, and the link sets the next place.  `Chain`
says that every link of a list is accepted where it stands, from a first place on.

In a committed chain (`Committed`) the commitment of a link determines the link and its place,
and the places are numbered.  Two such chains from one place agree up to every link that they
share the commitment of (`Committed.same_upto`), so that a chain which is not the same as another
one is an initial part of it that goes on with commitments the other one has nowhere
(`Committed.diverges`).
-/

namespace Habeny.Lib

variable {σ ε κ : Type*}

/-- Every link is accepted where it stands. -/
def Chain (accepts : σ → ε → Prop) (next : ε → σ) : σ → List ε → Prop
  | _, [] => True
  | s, e :: es => accepts s e ∧ Chain accepts next (next e) es

/-- The place after some links. -/
def placeAfter (next : ε → σ) : σ → List ε → σ
  | s, [] => s
  | _, e :: es => placeAfter next (next e) es

section Chain

variable {accepts : σ → ε → Prop} {next : ε → σ} {s : σ} {l l' : List ε} {e : ε}

@[simp] lemma chain_nil : Chain accepts next s [] := trivial

@[simp] lemma chain_cons :
    Chain accepts next s (e :: l) ↔ accepts s e ∧ Chain accepts next (next e) l := Iff.rfl

lemma placeAfter_append : placeAfter next s (l ++ l') = placeAfter next (placeAfter next s l) l' := by
  induction l generalizing s with
  | nil => rfl
  | cons e l ih => exact ih

@[simp] lemma placeAfter_concat : placeAfter next s (l ++ [e]) = next e := by
  rw [placeAfter_append]
  rfl

lemma chain_append :
    Chain accepts next s (l ++ l') ↔
      Chain accepts next s l ∧ Chain accepts next (placeAfter next s l) l' := by
  induction l generalizing s with
  | nil => simp [placeAfter]
  | cons e l ih =>
    rw [List.cons_append, chain_cons, ih, chain_cons, and_assoc]
    rfl

lemma chain_concat :
    Chain accepts next s (l ++ [e]) ↔ Chain accepts next s l ∧ accepts (placeAfter next s l) e := by
  rw [chain_append, chain_cons]
  simp

end Chain

/-- Links whose commitment determines them and their place; the places are numbered. -/
structure Committed (accepts : σ → ε → Prop) (next : ε → σ) (commitment : ε → κ) (rank : σ → ℤ) :
    Prop where
  determines : ∀ {s s' e e'}, accepts s e → accepts s' e' → commitment e = commitment e' →
    e = e' ∧ s = s'
  ofPlace : ∀ {e e'}, next e = next e' → commitment e = commitment e'
  rank_next : ∀ {s e}, accepts s e → rank (next e) = rank s + 1

namespace Committed

variable {accepts : σ → ε → Prop} {next : ε → σ} {commitment : ε → κ} {rank : σ → ℤ} {s : σ}
  {l l' : List ε}

/-- The places of a chain are numbered one after another. -/
lemma rank_placeAfter (h : Committed accepts next commitment rank)
    (hl : Chain accepts next s l) : rank (placeAfter next s l) = rank s + l.length := by
  induction l generalizing s with
  | nil => simp [placeAfter]
  | cons e l ih =>
    obtain ⟨he, hl⟩ := hl
    rw [placeAfter, ih hl, h.rank_next he, List.length_cons]
    push_cast
    omega

/-- Chains from one place agree up to a link of one commitment. -/
theorem same_upto (h : Committed accepts next commitment rank) {a c : List ε} {f g : ε}
    (hf : Chain accepts next s (a ++ [f])) (hg : Chain accepts next s (c ++ [g]))
    (hsame : commitment f = commitment g) : a ++ [f] = c ++ [g] := by
  induction a using List.reverseRecOn generalizing c f g with
  | nil =>
    obtain ⟨hc, hg⟩ := chain_concat.mp hg
    obtain ⟨rfl, hplace⟩ := h.determines hf.1 hg hsame
    -- the place after `c` is the first one, so there is nothing before it
    have hrank := h.rank_placeAfter hc
    rw [← hplace] at hrank
    have hempty : c = [] := List.eq_nil_of_length_eq_zero (by omega)
    rw [hempty]
  | append_singleton a f₀ ih =>
    obtain ⟨ha, hf⟩ := chain_concat.mp hf
    obtain ⟨hc, hg⟩ := chain_concat.mp hg
    obtain ⟨rfl, hplace⟩ := h.determines hf hg hsame
    rcases List.eq_nil_or_concat c with rfl | ⟨c, g₀, rfl⟩
    · have hrank := h.rank_placeAfter ha
      rw [hplace] at hrank
      simp only [placeAfter, List.length_append, List.length_singleton] at hrank
      omega
    · rw [List.concat_eq_append] at hc hplace ⊢
      rw [placeAfter_concat, placeAfter_concat] at hplace
      rw [ih ha hc (h.ofPlace hplace)]

/-- **Where two chains part.**  A chain is an initial part of another one from the same place,
and goes on with links whose commitments the other one has nowhere. -/
theorem diverges (h : Committed accepts next commitment rank) (hl : Chain accepts next s l)
    (hl' : Chain accepts next s l') :
    ∃ k fresh, l' = l.take k ++ fresh ∧ Chain accepts next (placeAfter next s (l.take k)) fresh ∧
      ∀ e ∈ fresh, commitment e ∉ l.map commitment := by
  induction l' using List.reverseRecOn with
  | nil => exact ⟨0, [], rfl, trivial, fun e he => absurd he List.not_mem_nil⟩
  | append_singleton a f ih =>
    by_cases hmem : commitment f ∈ l.map commitment
    · -- the two agree up to this link
      obtain ⟨g, hg, hsame⟩ := List.mem_map.mp hmem
      obtain ⟨c, d, rfl⟩ := List.append_of_mem hg
      have hc : Chain accepts next s (c ++ [g]) := by
        rw [List.append_cons] at hl
        exact (chain_append.mp hl).1
      refine ⟨(c ++ [g]).length, [], ?_, trivial, fun e he => absurd he List.not_mem_nil⟩
      rw [h.same_upto hl' hc hsame.symm, List.append_cons c g d, List.take_left, List.append_nil]
    · obtain ⟨k, fresh, rfl, -, hfresh⟩ := ih (chain_concat.mp hl').1
      rw [List.append_assoc] at hl' ⊢
      refine ⟨k, fresh ++ [f], rfl, (chain_append.mp hl').2, fun e he => ?_⟩
      rcases List.mem_append.mp he with he | he
      · exact hfresh e he
      · rwa [List.mem_singleton.mp he]

end Committed

end Habeny.Lib
