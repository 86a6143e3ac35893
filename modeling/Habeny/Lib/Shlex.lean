import Habeny.Lib.Shell
import Mathlib.Data.List.Chain

/-!
# Words of a shell

The words of a text as a POSIX shell splits it (`shlex.split` with comments): at blanks outside of
quotes, with a backslash before a character that is taken as it is, and up to a `#`.  Other than in
a shell, a `#` begins a comment wherever it stands outside of quotes, also inside a word.

`quote` writes any text so that it is read back as one word (`split_quote`).  Without quotes and
backslashes, joining the words with blanks gives the text exactly if it has no `#` and single
blanks only (`join_split_iff`).
-/

namespace Habeny.Lib.Shlex

open CodeText
open Shell (pound backslash blank singleQuote doubleQuote)

/-- `shlex.whitespace` -/
def isWhite (c : ℕ) : Bool := decide (c ∈ [32, 9, 13, 10])

def isQuote (c : ℕ) : Bool := decide (c ∈ [39, 34])

/-- What is being read: what is between two words; a word, of which a part may have been quoted;
what is behind a quote; the character behind a backslash, with the quote that it is in if it is in
one; or a comment. -/
inductive Reading where
  | between
  | word (token : CodeText) (quoted : Bool)
  | inQuote (quote : ℕ) (token : CodeText)
  | escaped (inside : Option ℕ) (token : CodeText) (quoted : Bool)
  | comment

inductive ShlexError where
  | noClosingQuotation
  | noEscapedCharacter

def ShlexError.message : ShlexError → CodeText
  | .noClosingQuotation => lit "No closing quotation"
  | .noEscapedCharacter => lit "No escaped character"

/-- A word is given if it is not empty, or was quoted. -/
def emit (token : CodeText) (quoted : Bool) (words : List CodeText) : List CodeText :=
  if token ≠ [] ∨ quoted = true then token :: words else words

/-- The words that are still read (`shlex.read_token`, until the end of the text). -/
def read : Reading → CodeText → Except ShlexError (List CodeText)
  | .between, [] => .ok []
  | .between, c :: s =>
    if isWhite c then read .between s
    else if c = pound then read .comment s
    else if c = backslash then read (.escaped none [] false) s
    else if isQuote c then read (.inQuote c []) s
    else read (.word [c] false) s
  | .word token quoted, [] => .ok (emit token quoted [])
  | .word token quoted, c :: s =>
    if isWhite c then (read .between s).map (emit token quoted)
    else if c = pound then (read .comment s).map (emit token quoted)
    else if isQuote c then read (.inQuote c token) s
    else if c = backslash then read (.escaped none token quoted) s
    else read (.word (token ++ [c]) quoted) s
  | .inQuote _ _, [] => .error .noClosingQuotation
  | .inQuote quote token, c :: s =>
    if c = quote then read (.word token true) s
    else if c = backslash ∧ quote = doubleQuote then read (.escaped (some quote) token true) s
    else read (.inQuote quote (token ++ [c])) s
  | .escaped _ _ _, [] => .error .noEscapedCharacter
  | .escaped none token quoted, c :: s => read (.word (token ++ [c]) quoted) s
  | .escaped (some quote) token _, c :: s =>
    -- in quotes only the quote and the backslash can be escaped
    if c ≠ backslash ∧ c ≠ quote then read (.inQuote quote (token ++ [backslash, c])) s
    else read (.inQuote quote (token ++ [c])) s
  | .comment, [] => .ok []
  | .comment, c :: s => if c = newline then read .between s else read .comment s

/-- `shlex.split(s, comments=True)` -/
def split (s : CodeText) : Except ShlexError (List CodeText) := read .between s

/-- `" ".join(words)` -/
def join (words : List CodeText) : CodeText := List.intercalate [blank] words

/-! ## Quoting -/

/-- The characters that need no quotes: those of words and some others, all of ASCII. -/
def isSafe (c : ℕ) : Bool :=
  decide (48 ≤ c ∧ c ≤ 57 ∨ 65 ≤ c ∧ c ≤ 90 ∨ 97 ≤ c ∧ c ≤ 122 ∨ c = 95 ∨ 43 ≤ c ∧ c ≤ 47 ∨ c = 37 ∨
    c = 58 ∨ c = 61 ∨ c = 64)

/-- A quote is written between double quotes, outside of the single ones. -/
def quoteChar (c : ℕ) : CodeText :=
  if c = singleQuote then [singleQuote, doubleQuote, singleQuote, doubleQuote, singleQuote] else [c]

/-- `shlex.quote` -/
def quote (s : CodeText) : CodeText :=
  if s = [] then [singleQuote, singleQuote]
  else if s.all isSafe then s
  else singleQuote :: (s.flatMap quoteChar ++ [singleQuote])

/-! ## Steps -/

variable {c : ℕ} {s token : CodeText} {quoted : Bool}

/-- A character that the shell takes as it is. -/
def IsPlain (c : ℕ) : Prop :=
  isWhite c = false ∧ c ≠ pound ∧ isQuote c = false ∧ c ≠ backslash

lemma read_between_plain (h : IsPlain c) : read .between (c :: s) = read (.word [c] false) s := by
  rw [read, if_neg (by simp [h.1]), if_neg h.2.1, if_neg h.2.2.2, if_neg (by simp [h.2.2.1])]

lemma read_word_plain (h : IsPlain c) :
    read (.word token quoted) (c :: s) = read (.word (token ++ [c]) quoted) s := by
  rw [read, if_neg (by simp [h.1]), if_neg h.2.1, if_neg (by simp [h.2.2.1]), if_neg h.2.2.2]

lemma read_word_append (h : ∀ c ∈ s, IsPlain c) :
    read (.word token quoted) s = .ok (emit (token ++ s) quoted []) := by
  induction s generalizing token with
  | nil => rw [List.append_nil]; rfl
  | cons c s ih =>
    rw [read_word_plain (h c List.mem_cons_self), ih fun d hd => h d (List.mem_cons_of_mem c hd),
      List.append_assoc, List.singleton_append]

/-- A safe character is plain. -/
lemma plain_of_isSafe (h : isSafe c = true) : IsPlain c := by
  rw [isSafe, decide_eq_true_eq] at h
  refine ⟨?_, ?_, ?_, ?_⟩
  · simp [isWhite]; omega
  · unfold pound; omega
  · simp [isQuote]; omega
  · unfold backslash; omega

/-- What was quoted is read up to the closing quote. -/
lemma read_inQuote (s token : CodeText) :
    read (.inQuote singleQuote token) (s.flatMap quoteChar ++ [singleQuote]) =
      .ok [token ++ s] := by
  induction s generalizing token with
  | nil =>
    rw [List.append_nil]
    exact congrArg Except.ok (if_pos (.inr rfl))
  | cons c s ih =>
    rw [List.flatMap_cons, List.append_assoc]
    by_cases hc : c = singleQuote
    · -- out of the quotes, the quote between double quotes, and into the quotes again
      rw [hc, show token ++ singleQuote :: s = (token ++ [singleQuote]) ++ s by simp,
        ← ih (token ++ [singleQuote])]
      rfl
    · rw [quoteChar, if_neg hc, List.singleton_append, read, if_neg hc,
        if_neg fun h => absurd h.2 (by decide), ih, List.append_assoc, List.singleton_append]

/-- **What was written with quotes is read back as one word.** -/
theorem split_quote (s : CodeText) : split (quote s) = .ok [s] := by
  rw [split, quote]
  split_ifs with hnil hsafe
  · rw [hnil]; rfl
  · obtain ⟨c, s, rfl⟩ := List.exists_cons_of_ne_nil hnil
    have hplain : ∀ d ∈ c :: s, IsPlain d := fun d hd =>
      plain_of_isSafe (List.all_eq_true.mp hsafe d hd)
    rw [read_between_plain (hplain c List.mem_cons_self),
      read_word_append fun d hd => hplain d (List.mem_cons_of_mem c hd)]
    rfl
  · exact read_inQuote s []

lemma getLast_quote {c : ℕ} {s : CodeText} (h : c ∈ (quote s).getLast?) : isSpace c = false := by
  rw [quote] at h
  split_ifs at h with hnil hsafe
  · obtain rfl : singleQuote = c := by simpa using h
    decide
  · have hc := List.all_eq_true.mp hsafe c (List.mem_of_getLast? h)
    rw [isSafe, decide_eq_true_eq] at hc
    simp [isSpace]
    omega
  · rw [← List.cons_append, List.getLast?_append] at h
    obtain rfl : singleQuote = c := by simpa using h
    decide

lemma mem_quote {c : ℕ} {s : CodeText} (h : c ∈ quote s) :
    c ∈ s ∨ c = singleQuote ∨ c = doubleQuote := by
  rw [quote] at h
  split_ifs at h with hnil hsafe
  · exact .inr (.inl (by simpa using h))
  · exact .inl h
  · rw [List.mem_cons, List.mem_append, List.mem_flatMap, List.mem_singleton] at h
    obtain h | ⟨d, hd, hc⟩ | h := h
    · exact .inr (.inl h)
    · rw [quoteChar] at hc
      split_ifs at hc with hq
      · simp at hc
        tauto
      · exact .inl (List.mem_singleton.mp hc ▸ hd)
    · exact .inr (.inl h)

/-! ## Texts without quotes and backslashes -/

/-- Neither a quote nor a backslash. -/
def isUnquoted (c : ℕ) : Bool := !isQuote c && c != backslash

/-- What a word of such a text is. -/
def IsWord (w : CodeText) : Prop := w ≠ [] ∧ ∀ c ∈ w, isWhite c = false ∧ c ≠ pound

/-- What is read of a word so far. -/
def Reading.held : Reading → CodeText
  | .word token _ => token
  | _ => []

/-- Where reading such a text can be. -/
def Reading.Unquoted : Reading → Prop
  | .between | .comment => True
  | .word token quoted => IsWord token ∧ quoted = false
  | .inQuote _ _ | .escaped _ _ _ => False

lemma join_cons {w : CodeText} {ws : List CodeText} (h : ws ≠ []) :
    join (w :: ws) = w ++ blank :: join ws := by
  rw [join, List.intercalate_cons_of_ne_nil h]
  simp [join]

lemma length_join_cons_le (w : CodeText) (ws : List CodeText) :
    (join (w :: ws)).length ≤ w.length + 1 + (join ws).length := by
  cases ws with
  | nil => simp [join]
  | cons v ws => rw [join_cons (List.cons_ne_nil v ws)]; simp; omega

lemma emit_of_isWord {token : CodeText} {quoted : Bool} (h : IsWord token) (ws : List CodeText) :
    emit token quoted ws = token :: ws := if_pos (.inl h.1)

lemma IsWord.concat {token : CodeText} {c : ℕ} (h : IsWord token) (hwhite : isWhite c = false)
    (hpound : c ≠ pound) : IsWord (token ++ [c]) := by
  refine ⟨by simp, fun d hd => ?_⟩
  rw [List.mem_append, List.mem_singleton] at hd
  obtain hd | rfl := hd
  · exact h.2 d hd
  · exact ⟨hwhite, hpound⟩

/-- Such a text is always read; its words have no blanks and no `#`, and joined they are not longer
than the text. -/
lemma read_unquoted {r : Reading} (hr : r.Unquoted) (hs : ∀ c ∈ s, isUnquoted c = true) :
    ∃ ws, read r s = .ok ws ∧ (∀ w ∈ ws, IsWord w) ∧
      (join ws).length ≤ r.held.length + s.length := by
  induction s generalizing r with
  | nil =>
    cases r with
    | between => exact ⟨[], rfl, by simp, by simp [join]⟩
    | comment => exact ⟨[], rfl, by simp, by simp [join]⟩
    | word token quoted =>
      refine ⟨[token], by rw [read, emit_of_isWord hr.1], ?_, by simp [join, Reading.held]⟩
      intro w hw
      exact List.mem_singleton.mp hw ▸ hr.1
    | inQuote => exact hr.elim
    | escaped => exact hr.elim
  | cons c s ih =>
    have hs' : ∀ d ∈ s, isUnquoted d = true := fun d hd => hs d (List.mem_cons_of_mem c hd)
    have hc : isQuote c = false ∧ c ≠ backslash := by
      have := hs c List.mem_cons_self
      simpa [isUnquoted] using this
    have after : ∀ r' : Reading, r'.Unquoted → r'.held.length ≤ r.held.length + 1 →
        ∃ ws, read r' s = .ok ws ∧ (∀ w ∈ ws, IsWord w) ∧
          (join ws).length ≤ r.held.length + (c :: s).length := fun r' hr' hlength => by
      obtain ⟨ws, hread, hwords, hle⟩ := ih hr' hs'
      refine ⟨ws, hread, hwords, ?_⟩
      rw [List.length_cons]
      omega
    cases r with
    | between =>
      rw [read]
      split_ifs with hwhite hpound hback
      · exact after .between trivial (by simp [Reading.held])
      · exact after .comment trivial (by simp [Reading.held])
      · exact absurd hback hc.2
      · exact absurd ‹isQuote c = true› (by simp [hc.1])
      · have hword : IsWord [c] := by
          simpa [IsWord] using And.intro (Bool.eq_false_iff.mpr hwhite) hpound
        exact after (.word [c] false) ⟨hword, rfl⟩ (by simp [Reading.held])
    | comment =>
      rw [read]
      split_ifs
      · exact after .between trivial (by simp [Reading.held])
      · exact after .comment trivial (by simp [Reading.held])
    | word token quoted =>
      have emitted : ∀ r' : Reading, r'.Unquoted → r'.held = [] →
          ∃ ws, (read r' s).map (emit token quoted) = .ok ws ∧ (∀ w ∈ ws, IsWord w) ∧
            (join ws).length ≤ token.length + (c :: s).length := fun r' hr' htoken => by
        obtain ⟨ws, hread, hwords, hle⟩ := ih hr' hs'
        refine ⟨token :: ws, ?_, ?_, ?_⟩
        · rw [hread]
          exact congrArg Except.ok (emit_of_isWord hr.1 ws)
        · intro w hw
          obtain rfl | hw := List.mem_cons.mp hw
          · exact hr.1
          · exact hwords w hw
        · have := length_join_cons_le token ws
          rw [htoken, List.length_nil] at hle
          rw [List.length_cons]
          omega
      rw [read]
      split_ifs with hwhite hpound hquote hback
      · exact emitted .between trivial rfl
      · exact emitted .comment trivial rfl
      · exact absurd hquote (by simp [hc.1])
      · exact absurd hback hc.2
      · have hword := hr.1.concat (by simpa using hwhite) hpound
        refine after (.word (token ++ [c]) quoted) ⟨hword, hr.2⟩ ?_
        simp [Reading.held]
    | inQuote => exact hr.elim
    | escaped => exact hr.elim

/-! ## Joining the words -/

/-- Two blanks do not follow each other. -/
def NotBothBlank (a b : ℕ) : Prop := ¬(a = blank ∧ b = blank)

lemma isChain_iff_not_occurs : List.IsChain NotBothBlank s ↔ ¬[blank, blank] <:+: s := by
  constructor
  · rintro h ⟨before, after, rfl⟩
    have hpair := h.left_of_append.right_of_append
    exact List.isChain_pair.mp hpair ⟨rfl, rfl⟩
  · intro h
    rw [List.isChain_iff_forall_rel_of_append_cons_cons]
    rintro a b l₁ l₂ rfl ⟨rfl, rfl⟩
    exact h ⟨l₁, l₂, by simp⟩

/-- Joined words have no `#`, single blanks between them, and no blanks at the ends. -/
lemma join_words {ws : List CodeText} (h : ∀ w ∈ ws, IsWord w) :
    pound ∉ join ws ∧ (∀ c ∈ join ws, isWhite c = true → c = blank) ∧
      List.IsChain NotBothBlank (join ws) ∧ (join ws).head? ≠ some blank := by
  induction ws with
  | nil => simp [join]
  | cons w ws ih =>
    obtain ⟨hne, hw⟩ := h w List.mem_cons_self
    have hblank : blank ∉ w := fun hmem => by simpa [isWhite, blank] using (hw blank hmem).1
    have hchain : List.IsChain NotBothBlank w := isChain_iff_not_occurs.mpr fun hoccurs =>
      hblank (hoccurs.subset List.mem_cons_self)
    have hhead : w.head? ≠ some blank := fun hw => hblank (List.mem_of_head? hw)
    obtain ⟨ihpound, ihwhite, ihchain, ihhead⟩ := ih fun v hv => h v (List.mem_cons_of_mem w hv)
    cases ws with
    | nil =>
      rw [show join [w] = w by simp [join]]
      exact ⟨fun hmem => (hw pound hmem).2 rfl,
        fun c hc hwhite => absurd hwhite (by simp [(hw c hc).1]), hchain, hhead⟩
    | cons v ws =>
      rw [join_cons (List.cons_ne_nil v ws)]
      refine ⟨?_, ?_, ?_, ?_⟩
      · rw [List.mem_append, List.mem_cons]
        rintro (hmem | hmem | hmem)
        · exact (hw pound hmem).2 rfl
        · exact absurd hmem (by decide)
        · exact ihpound hmem
      · intro c hc hwhite
        rw [List.mem_append, List.mem_cons] at hc
        obtain hc | hc | hc := hc
        · exact absurd hwhite (by simp [(hw c hc).1])
        · exact hc
        · exact ihwhite c hc hwhite
      · rw [List.isChain_append, List.isChain_cons]
        refine ⟨hchain, ⟨fun d hd hboth => ihhead (hboth.2 ▸ hd), ihchain⟩, ?_⟩
        rintro c hc d - ⟨rfl, -⟩
        exact hblank (List.mem_of_getLast? hc)
      · rwa [List.head?_append_of_ne_nil _ hne]

/-- A text with single blanks, none of them at its end, is read into the words that it joins. -/
lemma read_spaced {r : Reading} (hr : r.Unquoted) (hcomment : r ≠ .comment)
    (hs : ∀ c ∈ s, isUnquoted c = true) (hpound : pound ∉ s)
    (hwhite : ∀ c ∈ s, isWhite c = true → c = blank) (hchain : List.IsChain NotBothBlank s)
    (hhead : r = .between → s.head? ≠ some blank) (hlast : s.getLast? ≠ some blank) :
    ∃ ws, read r s = .ok ws ∧ join ws = r.held ++ s := by
  induction s generalizing r with
  | nil =>
    cases r with
    | between => exact ⟨[], rfl, rfl⟩
    | comment => exact absurd rfl hcomment
    | word token quoted =>
      exact ⟨[token], by rw [read, emit_of_isWord hr.1], by simp [join, Reading.held]⟩
    | inQuote => exact hr.elim
    | escaped => exact hr.elim
  | cons c s ih =>
    have hc : isQuote c = false ∧ c ≠ backslash := by
      have := hs c List.mem_cons_self
      simpa [isUnquoted] using this
    have hchash : c ≠ pound := fun h => hpound (h ▸ List.mem_cons_self)
    have hlast' : s.getLast? ≠ some blank := by
      cases s with
      | nil => simp
      | cons d s => rwa [List.getLast?_cons_cons] at hlast
    rw [List.isChain_cons] at hchain
    have after : ∀ r' : Reading, r'.Unquoted → r' ≠ .comment →
        (r' = .between → s.head? ≠ some blank) →
        ∃ ws, read r' s = .ok ws ∧ join ws = r'.held ++ s :=
      fun r' hr' hcomment' hhead' => ih hr' hcomment' (fun d hd => hs d (List.mem_cons_of_mem c hd))
        (fun h => hpound (List.mem_cons_of_mem c h))
        (fun d hd => hwhite d (List.mem_cons_of_mem c hd))
        hchain.2 hhead' hlast'
    by_cases hblank : isWhite c = true
    · obtain rfl := hwhite c List.mem_cons_self hblank
      cases r with
      | between => exact absurd rfl (hhead rfl)
      | comment => exact absurd rfl hcomment
      | word token quoted =>
        obtain ⟨ws, hread, hjoin⟩ := after .between trivial (by simp) fun _ hs' =>
          hchain.1 blank hs' ⟨rfl, rfl⟩
        have hne : ws ≠ [] := by
          rintro rfl
          rw [show s = [] from hjoin.symm] at hlast
          exact hlast rfl
        refine ⟨token :: ws, ?_, ?_⟩
        · rw [read, if_pos hblank, hread]
          exact congrArg Except.ok (emit_of_isWord hr.1 ws)
        · rw [join_cons hne, hjoin]
          rfl
      | inQuote => exact hr.elim
      | escaped => exact hr.elim
    · have hplain : IsPlain c := ⟨by simpa using hblank, hchash, hc⟩
      cases r with
      | between =>
        rw [read_between_plain hplain]
        exact after (.word [c] false) ⟨by simpa [IsWord] using ⟨by simpa using hblank, hchash⟩, rfl⟩
          (by simp) (by simp)
      | comment => exact absurd rfl hcomment
      | word token quoted =>
        rw [read_word_plain hplain]
        obtain ⟨ws, hread, hjoin⟩ := after (.word (token ++ [c]) quoted)
          ⟨hr.1.concat (by simpa using hblank) hchash, hr.2⟩ (by simp) (by simp)
        exact ⟨ws, hread, by rw [hjoin]; simp [Reading.held]⟩
      | inQuote => exact hr.elim
      | escaped => exact hr.elim

/-- Without quotes and backslashes a text is read. -/
lemma split_unquoted (hs : ∀ c ∈ s, isUnquoted c = true) :
    ∃ ws, split s = .ok ws ∧ (join ws).length ≤ s.length := by
  obtain ⟨ws, hread, -, hlength⟩ := read_unquoted (r := .between) trivial hs
  exact ⟨ws, hread, by simpa [Reading.held] using hlength⟩

/-- **Joining the words gives a text without quotes and backslashes back exactly if** it has no `#`,
no white space but blanks, and only single blanks, none of them at its ends. -/
theorem join_split_iff {words : List CodeText} (hs : ∀ c ∈ s, isUnquoted c = true)
    (hlast : s.getLast? ≠ some blank) (hhead : s.head? ≠ some blank)
    (hsplit : split s = .ok words) :
    join words = s ↔
      pound ∉ s ∧ (∀ c ∈ s, isWhite c = true → c = blank) ∧ ¬[blank, blank] <:+: s := by
  constructor
  · intro h
    obtain ⟨ws, hread, hwords, -⟩ := read_unquoted (r := .between) trivial hs
    obtain rfl : words = ws := Except.ok.inj (hsplit.symm.trans hread)
    obtain ⟨hpound, hwhite, hchain, -⟩ := join_words hwords
    rw [h] at hpound hwhite hchain
    exact ⟨hpound, hwhite, isChain_iff_not_occurs.mp hchain⟩
  · rintro ⟨hpound, hwhite, hsingle⟩
    obtain ⟨ws, hread, hjoin⟩ := read_spaced (r := .between) trivial (by simp) hs hpound hwhite
      (isChain_iff_not_occurs.mpr hsingle) (fun _ => hhead) hlast
    obtain rfl : words = ws := Except.ok.inj (hsplit.symm.trans hread)
    exact hjoin

end Habeny.Lib.Shlex
