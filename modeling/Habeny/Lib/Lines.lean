import Mathlib.Data.List.DropRight
import Mathlib.Data.List.TakeWhile
import Mathlib.Data.List.Infix
import Mathlib.Order.Lattice

/-!
# Texts as code points, and their lines

A text may hold code points that are not characters: the surrogates, which no encoding writes.
So a text is the list of its code points here.  This file has the lines of a text
(`str.splitlines`, which ends a line at more code points than the newline), blanks at its ends
(`str.strip`), the newlines that reading a file makes of other line ends, and facts about its
parts between separators (`str.split`, here `List.splitOn`).

Reading a file does not change its lines, and after a newline the lines are those of the rest.
-/

namespace Habeny.Lib

/-- A text, as the list of its code points. -/
abbrev CodeText := List ℕ

instance : LawfulBEq CodeText := inferInstance

namespace CodeText

/-- The code points of a literal. -/
def lit (s : String) : CodeText := s.toList.map Char.toNat

def newline : ℕ := 10
def carriageReturn : ℕ := 13

/-- The code points at which a line ends. -/
def isBreak (c : ℕ) : Bool := decide (c ∈ [10, 11, 12, 13, 28, 29, 30, 133, 8232, 8233])

/-- The blanks: the white space of Unicode and the separators among the controls. -/
def isSpace (c : ℕ) : Bool :=
  decide (c ∈ [9, 10, 11, 12, 13, 28, 29, 30, 31, 32, 133, 160, 5760, 8232, 8233, 8239, 8287, 12288]
    ∨ 8192 ≤ c ∧ c ≤ 8202)

/-- The code points that are not characters. -/
def isSurrogate (c : ℕ) : Bool := decide (55296 ≤ c ∧ c ≤ 57343)

/-- Whether a text can be written to a file. -/
def encodable (t : CodeText) : Bool := t.all fun c => !isSurrogate c

lemma encodable_append (s t : CodeText) :
    encodable (s ++ t) = (encodable s && encodable t) := List.all_append

/-- Make one line end of a carriage return with a newline after it. -/
def collapse : CodeText → CodeText
  | [] => []
  | [c] => [c]
  | c :: d :: rest =>
    if c = carriageReturn ∧ d = newline then newline :: collapse rest
    else c :: collapse (d :: rest)

/-- Put a code point in front of the first line. -/
def consHead (c : ℕ) : List CodeText → List CodeText
  | [] => [[c]]
  | line :: lines => (c :: line) :: lines

/-- The lines of a text in which every line end is one code point. -/
def linesOf : CodeText → List CodeText
  | [] => []
  | c :: rest => if isBreak c then [] :: linesOf rest else consHead c (linesOf rest)

/-- `str.splitlines`. -/
def splitlines (t : CodeText) : List CodeText := linesOf (collapse t)

/-- What reading a file makes of its text. -/
def universalNewlines (t : CodeText) : CodeText :=
  (collapse t).map fun c => if c = carriageReturn then newline else c

/-- `str.strip`. -/
def strip (t : CodeText) : CodeText := (t.dropWhile isSpace).rdropWhile isSpace

/-! ## Line ends of two code points -/

/-- After a newline the rest is collapsed on its own. -/
lemma collapse_append (a b : CodeText) :
    ∃ a', collapse (a ++ [newline]) = a' ++ [newline] ∧
      collapse (a ++ newline :: b) = a' ++ newline :: collapse b := by
  induction a using collapse.induct with
  | case1 =>
    refine ⟨[], rfl, ?_⟩
    cases b with
    | nil => rfl
    | cons d rest => simp [collapse, newline, carriageReturn]
  | case2 c =>
    -- a carriage return at the end goes into the newline after it
    by_cases hc : c = carriageReturn
    · refine ⟨[], by simp [collapse, hc], by simp [collapse, hc]⟩
    · refine ⟨[c], by simp [collapse, hc], ?_⟩
      cases b with
      | nil => simp [collapse, hc]
      | cons d rest =>
        have hnewline : newline ≠ carriageReturn := by decide
        simp [collapse, hc, hnewline]
  | case3 c d rest hcd ih =>
    obtain ⟨a', hnil, hb⟩ := ih
    refine ⟨newline :: a', ?_, ?_⟩
    · rw [List.cons_append, List.cons_append, collapse, if_pos hcd, hnil]
      rfl
    · rw [List.cons_append, List.cons_append, collapse, if_pos hcd, hb]
      rfl
  | case4 c d rest hcd ih =>
    obtain ⟨a', hnil, hb⟩ := ih
    refine ⟨c :: a', ?_, ?_⟩
    · rw [List.cons_append, List.cons_append, collapse, if_neg hcd, ← List.cons_append, hnil]
      rfl
    · rw [List.cons_append, List.cons_append, collapse, if_neg hcd, ← List.cons_append, hb]
      rfl

/-- A text without carriage returns is as it is. -/
lemma collapse_of_not_mem {t : CodeText} (h : carriageReturn ∉ t) : collapse t = t := by
  induction t using collapse.induct with
  | case1 => rfl
  | case2 c => rfl
  | case3 c d rest hcd ih => exact absurd (hcd.1 ▸ List.mem_cons_self) h
  | case4 c d rest hcd ih =>
    rw [collapse, if_neg hcd, ih fun hmem => h (List.mem_cons_of_mem c hmem)]

/-! ## Lines -/

lemma consHead_append {c : ℕ} {ls ls' : List CodeText} (h : ls ≠ []) :
    consHead c (ls ++ ls') = consHead c ls ++ ls' := by
  cases ls with
  | nil => exact absurd rfl h
  | cons line lines => rfl

lemma linesOf_ne_nil {t : CodeText} (h : t ≠ []) : linesOf t ≠ [] := by
  cases t with
  | nil => exact absurd rfl h
  | cons c rest =>
    rw [linesOf]
    split_ifs with hbreak
    · simp
    · cases linesOf rest <;> simp [consHead]

/-- After a newline there is a new line. -/
lemma linesOf_append (a b : CodeText) :
    linesOf (a ++ newline :: b) = linesOf (a ++ [newline]) ++ linesOf b := by
  induction a with
  | nil => rfl
  | cons c a ih =>
    rw [List.cons_append, List.cons_append, linesOf, linesOf, ih]
    split_ifs with hbreak
    · rfl
    · exact consHead_append (linesOf_ne_nil (by simp))

/-- **After a newline the lines are those of the rest.** -/
theorem splitlines_append (a b : CodeText) :
    splitlines (a ++ newline :: b) = splitlines (a ++ [newline]) ++ splitlines b := by
  obtain ⟨a', hnil, hb⟩ := collapse_append a b
  rw [splitlines, splitlines, splitlines, hnil, hb, linesOf_append]

/-- A line has no line end. -/
lemma isBreak_of_mem_linesOf {t line : CodeText} {c : ℕ} (hline : line ∈ linesOf t)
    (hc : c ∈ line) : isBreak c = false := by
  induction t generalizing line with
  | nil => exact absurd hline List.not_mem_nil
  | cons d rest ih =>
    rw [linesOf] at hline
    split_ifs at hline with hbreak
    · rcases List.mem_cons.mp hline with rfl | hline
      · exact absurd hc List.not_mem_nil
      · exact ih hline hc
    · have hd : isBreak d = false := by simpa using hbreak
      cases hlines : linesOf rest with
      | nil =>
        rw [hlines, consHead, List.mem_singleton] at hline
        subst hline
        rwa [List.mem_singleton.mp hc]
      | cons first others =>
        rw [hlines, consHead] at hline
        rcases List.mem_cons.mp hline with rfl | hline
        · rcases List.mem_cons.mp hc with rfl | hc
          · exact hd
          · exact ih (hlines ▸ List.mem_cons_self) hc
        · exact ih (hlines ▸ List.mem_cons_of_mem first hline) hc

lemma linesOf_line {t : CodeText} (h : ∀ c ∈ t, isBreak c = false) (ht : t ≠ []) :
    linesOf (t ++ [newline]) = [t] := by
  induction t with
  | nil => exact absurd rfl ht
  | cons c t ih =>
    rw [List.cons_append, linesOf, if_neg (by simp [h c List.mem_cons_self])]
    cases t with
    | nil => rfl
    | cons d t =>
      rw [ih (fun e he => h e (List.mem_cons_of_mem c he)) (by simp)]
      rfl

/-- A text without line ends is the one line of the text with a newline. -/
lemma splitlines_line {t : CodeText} (h : ∀ c ∈ t, isBreak c = false) (ht : t ≠ []) :
    splitlines (t ++ [newline]) = [t] := by
  have hnone : carriageReturn ∉ t ++ [newline] := by
    intro hmem
    rcases List.mem_append.mp hmem with hmem | hmem
    · exact absurd (h _ hmem) (by decide)
    · exact absurd (List.mem_singleton.mp hmem) (by decide)
  rw [splitlines, collapse_of_not_mem hnone, linesOf_line h ht]

/-- A text without line ends is one line. -/
lemma splitlines_of_no_break {t : CodeText} (h : ∀ c ∈ t, isBreak c = false) (ht : t ≠ []) :
    splitlines t = [t] := by
  have hnone : carriageReturn ∉ t := fun hmem => absurd (h _ hmem) (by decide)
  have hlines : ∀ {u : CodeText}, (∀ c ∈ u, isBreak c = false) → u ≠ [] → linesOf u = [u] := by
    intro u hu hne
    induction u with
    | nil => exact absurd rfl hne
    | cons c u ih =>
      rw [linesOf, if_neg (by simp [hu c List.mem_cons_self])]
      cases u with
      | nil => rfl
      | cons d u =>
        rw [ih (fun e he => hu e (List.mem_cons_of_mem c he)) (by simp)]
        rfl
  rw [splitlines, collapse_of_not_mem hnone, hlines h ht]

/-- Which line end stands there does not matter. -/
lemma linesOf_map_newline (t : CodeText) :
    linesOf (t.map fun c => if c = carriageReturn then newline else c) = linesOf t := by
  induction t with
  | nil => rfl
  | cons c t ih =>
    rw [List.map_cons, linesOf, linesOf, ih]
    by_cases hc : c = carriageReturn
    · subst hc
      rfl
    · rw [if_neg hc]

/-- **Reading a file keeps the lines of its text.** -/
theorem splitlines_universalNewlines (t : CodeText) :
    splitlines (universalNewlines t) = splitlines t := by
  have hnone : carriageReturn ∉ universalNewlines t := by
    intro hmem
    obtain ⟨c, -, hc⟩ := List.mem_map.mp hmem
    split_ifs at hc with h
    · exact absurd hc (by decide)
    · exact h hc
  rw [splitlines, collapse_of_not_mem hnone, universalNewlines, linesOf_map_newline, splitlines]

/-! ## Blanks -/

lemma strip_sublist (t : CodeText) : (strip t).Sublist t :=
  (List.rdropWhile_prefix _ _).sublist.trans (List.dropWhile_sublist _)

/-- A text that neither begins nor ends with a blank is as it is. -/
lemma strip_of_ends {t : CodeText} (hhead : ∀ c ∈ t.head?, isSpace c = false)
    (hlast : ∀ c ∈ t.getLast?, isSpace c = false) : strip t = t := by
  have hdrop : t.dropWhile isSpace = t := by
    cases t with
    | nil => rfl
    | cons c t => rw [List.dropWhile_cons_of_neg (by simp [hhead c rfl])]
  rw [strip, hdrop]
  rcases List.eq_nil_or_concat t with rfl | ⟨init, c, rfl⟩
  · rfl
  · rw [List.concat_eq_append] at hlast ⊢
    rw [List.rdropWhile_concat_neg _ _ _ (by simp [hlast c (by simp)])]

/-- A stripped text does not begin with a blank. -/
lemma head_strip {t : CodeText} {c : ℕ} (h : c ∈ (strip t).head?) : isSpace c = false := by
  have hprefix : strip t <+: t.dropWhile isSpace := List.rdropWhile_prefix _ _
  cases hstrip : strip t with
  | nil => simp [hstrip] at h
  | cons d rest =>
    rw [hstrip, List.head?_cons, Option.mem_some_iff] at h
    subst h
    obtain ⟨tail, htail⟩ := hprefix
    rw [hstrip, List.cons_append] at htail
    have hhead : (t.dropWhile isSpace).head? = some d := by rw [← htail, List.head?_cons]
    have hnot := List.head?_dropWhile_not isSpace t
    rwa [hhead] at hnot

/-- A stripped text does not end with a blank. -/
lemma last_strip {t : CodeText} {c : ℕ} (h : c ∈ (strip t).getLast?) : isSpace c = false := by
  have hne : strip t ≠ [] := by
    intro hnil
    rw [hnil] at h
    exact absurd h (by simp)
  have hlast := List.rdropWhile_last_not isSpace (t.dropWhile isSpace) hne
  rw [Option.mem_def, List.getLast?_eq_some_getLast hne, Option.some.injEq] at h
  rw [← h]
  exact Bool.eq_false_iff.mpr hlast

/-! ## Parts -/

/-- There is one part more than there are separators. -/
lemma length_splitOn (sep : ℕ) (t : CodeText) : (t.splitOn sep).length = t.count sep + 1 := by
  induction t with
  | nil => rfl
  | cons c t ih =>
    rw [List.splitOn_eq_splitOnP] at ih ⊢
    rw [List.splitOnP_cons_eq_if_modifyHead]
    by_cases hc : c = sep
    · rw [if_pos (by simp [hc]), hc, List.count_cons_self, List.length_cons, ih]
    · rw [if_neg (by simp [hc]), List.length_modifyHead, ih, List.count_cons_of_ne hc]

/-- The first part is what stands before the first separator. -/
lemma head_splitOn (sep : ℕ) (t : CodeText) :
    (t.splitOn sep).head? = some (t.takeWhile (· != sep)) := by
  induction t with
  | nil => rfl
  | cons c t ih =>
    rw [List.splitOn_eq_splitOnP] at ih ⊢
    rw [List.splitOnP_cons_eq_if_modifyHead]
    by_cases hc : c = sep
    · rw [if_pos (by simp [hc]), List.takeWhile_cons_of_neg (by simp [hc])]
      rfl
    · rw [if_neg (by simp [hc]), List.head?_modifyHead, ih,
        List.takeWhile_cons_of_pos (by simp [hc])]
      rfl

/-- A text that reads as a number of parts with a given first part does not with more text in
front. -/
lemma splitOn_append_ne {sep : ℕ} {front t first : CodeText} {others others' : List CodeText}
    (hfront : front ≠ []) (h : t.splitOn sep = first :: others)
    (hlength : others'.length = others.length) :
    (front ++ t).splitOn sep ≠ first :: others' := by
  intro h'
  have hcount := length_splitOn sep t
  have hcount' := length_splitOn sep (front ++ t)
  rw [h, List.length_cons] at hcount
  rw [h', List.length_cons, hlength, List.count_append] at hcount'
  -- both have the same number of parts, so no separator stands in front
  have hnone : front.count sep = 0 := by omega
  have hhead := head_splitOn sep t
  have hhead' := head_splitOn sep (front ++ t)
  have hpass : ∀ c ∈ front, (c != sep) = true := by
    intro c hc
    have hne : c ≠ sep := fun heq => List.count_eq_zero.mp hnone (heq ▸ hc)
    simp [hne]
  rw [h', List.takeWhile_append_of_pos hpass, List.head?_cons, Option.some.injEq] at hhead'
  rw [h, List.head?_cons, Option.some.injEq] at hhead
  rw [← hhead] at hhead'
  have hlen := congrArg List.length hhead'
  rw [List.length_append] at hlen
  have hpos : 0 < front.length := List.length_pos_iff.mpr hfront
  omega

end CodeText

end Habeny.Lib
