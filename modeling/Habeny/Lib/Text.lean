import Mathlib.Data.List.DropRight
import Mathlib.Data.List.Infix

/-!
# Texts as lists of characters

A text is the list of its characters.  This file has the few operations on texts that web
code lives on, removing a character at the ends and looking for a prefix, and the facts
about them that survive a change of what follows the prefix.
-/

namespace Habeny.Lib

/-- A text, as the list of its characters. -/
abbrev Text := List Char

instance : LawfulBEq Text := inferInstance

namespace Text

/-- Remove every leading `c` (`str.lstrip` with one character). -/
def lstrip (c : Char) (s : Text) : Text := s.dropWhile (· == c)

/-- Remove every trailing `c` (`str.rstrip` with one character). -/
def rstrip (c : Char) (s : Text) : Text := s.rdropWhile (· == c)

/-- Remove every leading and trailing `c` (`str.strip` with one character). -/
def strip (c : Char) (s : Text) : Text := rstrip c (lstrip c s)

/-- Whether the text begins with one of several prefixes (`str.startswith` with a tuple). -/
def startsWithAny (ws : List Text) (s : Text) : Bool := ws.any fun w => w.isPrefixOf s

/-- Whether one text occurs in another (`in` on strings). -/
def occursIn (w s : Text) : Bool := decide (w <:+: s)

lemma startsWithAny_iff {ws : List Text} {s : Text} :
    startsWithAny ws s = true ↔ ∃ w ∈ ws, w <+: s := by
  simp [startsWithAny]

@[simp] lemma lstrip_nil (c : Char) : lstrip c [] = [] := rfl

@[simp] lemma lstrip_cons_self (c : Char) (s : Text) : lstrip c (c :: s) = lstrip c s := by
  simp [lstrip]

/-- Every character that is left was there before. -/
lemma mem_of_mem_lstrip {c d : Char} {s : Text} (h : d ∈ lstrip c s) : d ∈ s :=
  (List.dropWhile_suffix _).mem h

lemma prefix_rstrip_of_last_ne {c d : Char} {w s : Text} (hd : d ≠ c)
    (h : w ++ [d] <+: s) : w ++ [d] <+: rstrip c s := by
  induction s using List.reverseRecOn with
  | nil => simp at h
  | append_singleton s x ih =>
    by_cases hx : x = c
    · rw [rstrip, List.rdropWhile_concat_pos _ _ _ (by simp [hx])]
      rcases List.prefix_concat_iff.mp h with h | h
      · -- the prefix would have to end in the character that is stripped
        exact absurd ((List.append_inj' h rfl).2) (by simp [hx, hd])
      · exact ih h
    · rw [rstrip, List.rdropWhile_concat_neg _ _ _ (by simp [hx])]
      exact h

/-- Stripping at the right end does not disturb a prefix that ends in another character. -/
lemma prefix_rstrip_iff {c d : Char} {w s : Text} (hd : d ≠ c) :
    w ++ [d] <+: rstrip c s ↔ w ++ [d] <+: s :=
  ⟨fun h => h.trans (List.rdropWhile_prefix _ _), prefix_rstrip_of_last_ne hd⟩

/-- A word that does not end in the stripped character is as much a prefix after stripping as
before. -/
lemma prefix_rstrip_of_getLast {c : Char} {w s : Text} (hw : ∀ d ∈ w.getLast?, d ≠ c) :
    w <+: rstrip c s ↔ w <+: s := by
  rcases List.eq_nil_or_concat w with rfl | ⟨v, d, rfl⟩
  · simp
  · rw [List.concat_eq_append] at hw ⊢
    exact prefix_rstrip_iff (hw d (by simp))

lemma startsWithAny_strip {c : Char} {ws : List Text} (hws : ∀ w ∈ ws, ∀ d ∈ w.getLast?, d ≠ c)
    (s : Text) : startsWithAny ws (strip c s) = startsWithAny ws (lstrip c s) := by
  rw [Bool.eq_iff_iff, startsWithAny_iff, startsWithAny_iff]
  constructor
  · rintro ⟨w, hw, h⟩
    exact ⟨w, hw, (prefix_rstrip_of_getLast (hws w hw)).mp h⟩
  · rintro ⟨w, hw, h⟩
    exact ⟨w, hw, (prefix_rstrip_of_getLast (hws w hw)).mpr h⟩

end Text

end Habeny.Lib
