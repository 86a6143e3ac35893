import Habeny.Lib.Text

/-!
# Texts cut at a separator

A text is cut at every occurrence of a separator, from the left (`str.split` with a text).  Every
piece is shorter than the text if the separator occurs (`length_lt_of_mem_splitText`), and a
stretch in which no occurrence begins is in one piece (`splitText_append`).
-/

namespace Habeny.Lib

/-- Put a stretch before the first piece. -/
def prependFirst (p : Text) : List Text → List Text
  | [] => [p]
  | q :: qs => (p ++ q) :: qs

/-- The pieces of what is left after `skip` characters. -/
def splitFrom (sep : Text) : ℕ → Text → List Text
  | _, [] => [[]]
  | skip + 1, _ :: s => splitFrom sep skip s
  | 0, c :: s =>
    if sep.isPrefixOf (c :: s) then [] :: splitFrom sep (sep.length - 1) s
    else prependFirst [c] (splitFrom sep 0 s)

/-- `s.split(sep)` -/
def splitText (sep s : Text) : List Text := splitFrom sep 0 s

variable {sep p s t : Text} {c : Char}

lemma splitFrom_eq (sep : Text) (skip : ℕ) (s : Text) :
    splitFrom sep skip s = splitText sep (s.drop skip) := by
  induction s generalizing skip with
  | nil => cases skip <;> rfl
  | cons c s ih =>
    cases skip with
    | zero => rfl
    | succ skip => exact ih skip

lemma splitText_sep (c : Char) (sep s : Text) :
    splitText (c :: sep) (c :: sep ++ s) = [] :: splitText (c :: sep) s := by
  have hbegin : (c :: sep).isPrefixOf (c :: (sep ++ s)) = true :=
    List.isPrefixOf_iff_prefix.mpr (List.prefix_append ..)
  show splitFrom _ 0 (c :: (sep ++ s)) = _
  rw [splitFrom, if_pos hbegin, splitFrom_eq]
  simp

lemma splitText_cons (h : ¬sep <+: c :: s) :
    splitText sep (c :: s) = prependFirst [c] (splitText sep s) :=
  if_neg fun hbegin => h (List.isPrefixOf_iff_prefix.mp hbegin)

lemma splitText_ne_nil : splitText sep s ≠ [] := by
  induction s with
  | nil => exact List.cons_ne_nil _ _
  | cons c s ih =>
    show (if sep.isPrefixOf (c :: s) then _ else _) ≠ []
    split_ifs
    · exact List.cons_ne_nil _ _
    · cases splitFrom sep 0 s <;> exact List.cons_ne_nil _ _

lemma prependFirst_cons {ps : List Text} (hps : ps ≠ []) (c : Char) (p : Text) :
    prependFirst (c :: p) ps = prependFirst [c] (prependFirst p ps) := by
  cases ps with
  | nil => exact absurd rfl hps
  | cons q qs => rfl

/-- A stretch in which no separator begins is not cut. -/
lemma splitText_append (h : ∀ t, t ≠ [] → t <:+ p → ¬sep <+: t ++ s) :
    splitText sep (p ++ s) = prependFirst p (splitText sep s) := by
  induction p with
  | nil =>
    cases hs : splitText sep s with
    | nil => exact absurd hs splitText_ne_nil
    | cons q qs => exact hs
  | cons c p ih =>
    have hcons : splitText sep (c :: (p ++ s)) = prependFirst [c] (splitText sep (p ++ s)) :=
      splitText_cons (h (c :: p) (List.cons_ne_nil _ _) List.suffix_rfl)
    rw [List.cons_append, hcons,
      ih fun t ht hsuffix => h t ht (hsuffix.trans (List.suffix_cons c p)),
      prependFirst_cons splitText_ne_nil]

lemma splitText_of_not_occurs (h : ¬sep <:+: s) : splitText sep s = [s] := by
  have hsep : sep ≠ [] := fun heq => h (heq ▸ List.nil_infix)
  have happend : splitText sep (s ++ []) = prependFirst s (splitText sep []) := by
    refine splitText_append fun t _ hsuffix hbegin => ?_
    rw [List.append_nil] at hbegin
    exact h (hbegin.isInfix.trans hsuffix.isInfix)
  rw [List.append_nil] at happend
  rw [happend]
  show [s ++ []] = [s]
  rw [List.append_nil]

/-! ## Lengths -/

lemma length_le_of_mem_splitFrom {skip : ℕ} (h : p ∈ splitFrom sep skip s) :
    p.length ≤ s.length := by
  induction s generalizing skip p with
  | nil =>
    cases skip <;> rw [splitFrom, List.mem_singleton] at h <;> rw [h]
  | cons c s ih =>
    cases skip with
    | succ skip => exact (ih h).trans (Nat.le_succ _)
    | zero =>
      rw [splitFrom] at h
      split_ifs at h with hbegin
      · rcases List.mem_cons.mp h with rfl | hrest
        · exact Nat.zero_le _
        · exact (ih hrest).trans (Nat.le_succ _)
      · cases hs : splitFrom sep 0 s with
        | nil => exact absurd hs splitText_ne_nil
        | cons q qs =>
          rw [hs, prependFirst] at h
          rcases List.mem_cons.mp h with rfl | hrest
          · exact Nat.succ_le_succ (ih (hs.symm ▸ List.mem_cons_self))
          · exact (ih (hs.symm ▸ List.mem_cons_of_mem _ hrest)).trans (Nat.le_succ _)

/-- Where the separator occurs, every piece is shorter than the text. -/
lemma length_lt_of_mem_splitText (hsep : sep <:+: s) (hne : sep ≠ []) (h : p ∈ splitText sep s) :
    p.length < s.length := by
  induction s generalizing p with
  | nil => exact absurd (List.infix_nil.mp hsep) hne
  | cons c s ih =>
    by_cases hbegin : sep <+: c :: s
    · have hcut : splitText sep (c :: s) = [] :: splitFrom sep (sep.length - 1) s :=
        if_pos (List.isPrefixOf_iff_prefix.mpr hbegin)
      rw [hcut] at h
      rcases List.mem_cons.mp h with rfl | hrest
      · exact Nat.succ_pos _
      · exact Nat.lt_succ_of_le (length_le_of_mem_splitFrom hrest)
    · have hlater : sep <:+: s := (List.infix_cons_iff.mp hsep).resolve_left hbegin
      rw [splitText_cons hbegin] at h
      cases hs : splitText sep s with
      | nil => exact absurd hs splitText_ne_nil
      | cons q qs =>
        rw [hs, prependFirst] at h
        rw [hs] at ih
        rcases List.mem_cons.mp h with rfl | hrest
        · exact Nat.succ_lt_succ (ih hlater List.mem_cons_self)
        · exact Nat.lt_succ_of_lt (ih hlater (List.mem_cons_of_mem _ hrest))

end Habeny.Lib
