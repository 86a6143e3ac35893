import Habeny.Lib.Lines

/-!
# Replacing a text in a text

`str.replace` goes through a text from the left and puts something else where it finds the text that
is looked for.  A character that does not stand in that text cannot be a part of what is found, so
the parts on both sides of it are replaced each by itself (`replace_append_cons`).
-/

namespace Habeny.Lib.CodeText

/-- Replace from the left; so many characters belong to what was found. -/
def replaceFrom (w new : CodeText) : ℕ → CodeText → CodeText
  | _, [] => []
  | k + 1, _ :: s => replaceFrom w new k s
  | 0, c :: s =>
    if w.isPrefixOf (c :: s) then new ++ replaceFrom w new (w.length - 1) s
    else c :: replaceFrom w new 0 s

/-- `str.replace`, for a text that is not empty. -/
def replace (w new s : CodeText) : CodeText := replaceFrom w new 0 s

/-- Whether a text stands in another one. -/
def occursIn (w s : CodeText) : Bool := s.tails.any w.isPrefixOf

variable {w new s t : CodeText} {c : ℕ}

/-- What is found ends before a character that is not in it. -/
lemma isPrefixOf_append_cons (hc : c ∉ w) : w.isPrefixOf (s ++ c :: t) = w.isPrefixOf s := by
  rw [Bool.eq_iff_iff, List.isPrefixOf_iff_prefix, List.isPrefixOf_iff_prefix]
  refine ⟨fun h => ?_, fun h => h.trans (List.prefix_append s _)⟩
  obtain h' | ⟨u, rfl⟩ := List.prefix_or_prefix_of_prefix h (List.prefix_append s _)
  · exact h'
  · cases u with
    | nil => rw [List.append_nil]
    | cons d u =>
      obtain ⟨v, hv⟩ := (List.prefix_append_right_inj s).mp h
      obtain rfl : d = c := (List.cons.inj hv).1
      exact absurd (List.mem_append_right s List.mem_cons_self) hc

lemma replaceFrom_append_cons (hw : w ≠ []) (hc : c ∉ w) : ∀ (s : CodeText) (k : ℕ),
    k ≤ s.length →
      replaceFrom w new k (s ++ c :: t) = replaceFrom w new k s ++ c :: replaceFrom w new 0 t
  | [], k, hk => by
    obtain rfl : k = 0 := Nat.le_zero.mp hk
    have hprefix : w.isPrefixOf (c :: t) = false := by
      have h := isPrefixOf_append_cons (s := []) (t := t) hc
      rw [List.nil_append] at h
      obtain ⟨d, u, rfl⟩ := List.exists_cons_of_ne_nil hw
      exact h.trans rfl
    rw [List.nil_append, replaceFrom, replaceFrom, hprefix]
    rfl
  | d :: s, k + 1, hk => by
    rw [List.cons_append, replaceFrom, replaceFrom]
    exact replaceFrom_append_cons hw hc s k (Nat.le_of_succ_le_succ hk)
  | d :: s, 0, _ => by
    have hprefix := isPrefixOf_append_cons (s := d :: s) (t := t) hc
    rw [List.cons_append] at hprefix
    rw [List.cons_append, replaceFrom, replaceFrom, hprefix]
    split_ifs with h
    · have hlength : w.length ≤ (d :: s).length := (List.isPrefixOf_iff_prefix.mp h).length_le
      rw [replaceFrom_append_cons hw hc s _ (by rw [List.length_cons] at hlength; omega),
        List.append_assoc]
    · rw [replaceFrom_append_cons hw hc s 0 (Nat.zero_le _), List.cons_append]

/-- **The parts on both sides of a character that is not looked for are replaced by themselves.** -/
theorem replace_append_cons (hw : w ≠ []) (hc : c ∉ w) :
    replace w new (s ++ c :: t) = replace w new s ++ c :: replace w new t :=
  replaceFrom_append_cons hw hc s 0 (Nat.zero_le _)

lemma replace_of_not_occurs (h : occursIn w s = false) : replace w new s = s := by
  induction s with
  | nil => rfl
  | cons c s ih =>
    rw [occursIn, List.tails_cons, List.any_cons, Bool.or_eq_false_iff] at h
    rw [replace, replaceFrom, h.1]
    exact congrArg (c :: ·) (ih h.2)

lemma replaceFrom_length (s : CodeText) : replaceFrom w new s.length s = [] := by
  induction s with
  | nil => rfl
  | cons c s ih => exact ih

lemma replace_self (hw : w ≠ []) : replace w new w = new := by
  obtain ⟨c, s, rfl⟩ := List.exists_cons_of_ne_nil hw
  rw [replace, replaceFrom, if_pos (List.isPrefixOf_iff_prefix.mpr (List.prefix_refl _)),
    List.length_cons, Nat.add_sub_cancel, replaceFrom_length, List.append_nil]

/-- A text without the first character of what is looked for. -/
lemma not_occurs_of_notMem (h : c ∉ s) : occursIn (c :: t) s = false := by
  rw [occursIn, List.any_eq_false]
  intro u hu hprefix
  have hsuffix : u <:+ s := (List.mem_tails _ _).mp hu
  exact h (hsuffix.mem ((List.isPrefixOf_iff_prefix.mp hprefix).mem List.mem_cons_self))

end Habeny.Lib.CodeText
