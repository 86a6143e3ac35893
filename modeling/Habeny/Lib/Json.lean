import Habeny.Lib.Text
import Mathlib.Data.List.TakeWhile
import Mathlib.Data.Char
import Mathlib.Order.Lattice

/-!
# JSON arrays of scalars

The text of an array of texts, integers and nulls, without blanks and with every character
that need not be escaped as it is (`json.dumps` with `separators=(",", ":")` and
`ensure_ascii=False`).

The text determines the array.  The text of an item ends where the next comma or the closing
bracket stands: a number has neither of them, and in a string the quote that closes it is the
first one that no backslash belongs to.
-/

namespace Habeny.Lib

/-- An item of an array. -/
inductive JsonScalar where
  | null
  | int (n : ℤ)
  | text (s : Text)
  deriving DecidableEq

namespace Json

/-! ## The texts -/

/-- The decimal text of an integer. -/
def intText : ℤ → Text
  | .ofNat n => Nat.toDigits 10 n
  | .negSucc n => '-' :: Nat.toDigits 10 (n + 1)

/-- The integer of a decimal text. -/
def readInt : Text → ℤ
  | '-' :: digits => -(Nat.ofDigitChars 10 digits 0 : ℤ)
  | digits => Nat.ofDigitChars 10 digits 0

/-- The letter that stands for a character after a backslash. -/
def shortEscape (c : Char) : Option Char :=
  if c = '"' then some '"'
  else if c = '\\' then some '\\'
  else if c = '\n' then some 'n'
  else if c = '\r' then some 'r'
  else if c = '\t' then some 't'
  else if c = '\x0c' then some 'f'
  else if c = '\x08' then some 'b'
  else none

/-- Four hexadecimal digits of a number below 256. -/
def hex4 (n : ℕ) : Text := ['0', '0', Nat.digitChar (n / 16), Nat.digitChar (n % 16)]

def escapeChar (c : Char) : Text :=
  match shortEscape c with
  | some e => ['\\', e]
  | none => if c.toNat < 32 then '\\' :: 'u' :: hex4 c.toNat else [c]

def quote (s : Text) : Text := '"' :: (s.flatMap escapeChar ++ ['"'])

def scalarText : JsonScalar → Text
  | .null => "null".toList
  | .int n => intText n
  | .text s => quote s

/-- What follows the first item. -/
def itemsText : List JsonScalar → Text
  | [] => [']']
  | item :: items => ',' :: (scalarText item ++ itemsText items)

/-- The text of an array. -/
def dumps : List JsonScalar → Text
  | [] => "[]".toList
  | item :: items => '[' :: (scalarText item ++ itemsText items)

/-! ## Numbers -/

lemma isDigit_of_mem_toDigits {n : ℕ} {c : Char} (h : c ∈ Nat.toDigits 10 n) : c.isDigit = true :=
  Nat.isDigit_of_mem_toDigits (by decide) (by decide) h

/-- Reading a decimal text back. -/
lemma readInt_intText (n : ℤ) : readInt (intText n) = n := by
  cases n with
  | negSucc n =>
    simp only [intText, readInt, Nat.ofDigitChars_ten_toDigits]
    omega
  | ofNat n =>
    have hdigits : readInt (Nat.toDigits 10 n) = Nat.ofDigitChars 10 (Nat.toDigits 10 n) 0 := by
      unfold readInt
      split
      · next rest heq =>
        have hmem : '-' ∈ Nat.toDigits 10 n := by simp [heq]
        exact absurd (isDigit_of_mem_toDigits hmem) (by decide)
      · rfl
    rw [intText, hdigits, Nat.ofDigitChars_ten_toDigits]
    rfl

lemma intText_injective : Function.Injective intText :=
  Function.LeftInverse.injective readInt_intText

/-- The characters of numbers. -/
def isNumeric (c : Char) : Bool := c.isDigit || c == '-'

lemma isNumeric_of_mem_intText {n : ℤ} {c : Char} (h : c ∈ intText n) : isNumeric c = true := by
  cases n with
  | ofNat n => simp [isNumeric, isDigit_of_mem_toDigits h]
  | negSucc n =>
    rcases List.mem_cons.mp h with rfl | h
    · rfl
    · simp [isNumeric, isDigit_of_mem_toDigits h]

lemma intText_ne_nil (n : ℤ) : intText n ≠ [] := by
  cases n with
  | ofNat n => exact Nat.toDigits_ne_nil
  | negSucc n => simp [intText]

/-! ## Where an item ends -/

/-- What may follow an item. -/
def Delimited (u : Text) : Prop := ∃ c rest, u = c :: rest ∧ (c = ',' ∨ c = ']')

lemma delimited_itemsText (items : List JsonScalar) : Delimited (itemsText items) := by
  cases items with
  | nil => exact ⟨']', [], rfl, .inr rfl⟩
  | cons item items => exact ⟨',', _, rfl, .inl rfl⟩

lemma takeWhile_numeric {a u : Text} (ha : ∀ c ∈ a, isNumeric c = true) (hu : Delimited u) :
    (a ++ u).takeWhile isNumeric = a := by
  obtain ⟨c, rest, rfl, hc⟩ := hu
  have hstop : isNumeric c = false := by rcases hc with rfl | rfl <;> rfl
  rw [List.takeWhile_append_of_pos ha, List.takeWhile_cons, hstop]
  simp

lemma intText_append {m n : ℤ} {u v : Text} (hu : Delimited u) (hv : Delimited v)
    (h : intText m ++ u = intText n ++ v) : m = n ∧ u = v := by
  have hm := takeWhile_numeric (fun _ => isNumeric_of_mem_intText (n := m)) hu
  have hn := takeWhile_numeric (fun _ => isNumeric_of_mem_intText (n := n)) hv
  rw [h, hn] at hm
  have hmn := intText_injective hm
  subst hmn
  exact ⟨rfl, List.append_cancel_left h⟩

/-! ## Strings -/

lemma shortEscape_ne_u (c : Char) : shortEscape c ≠ some 'u' := by
  unfold shortEscape
  split_ifs <;> decide

/-- The character that a letter stands for. -/
def longEscape (e : Char) : Char :=
  if e = 'n' then '\n'
  else if e = 'r' then '\r'
  else if e = 't' then '\t'
  else if e = 'f' then '\x0c'
  else if e = 'b' then '\x08'
  else e

lemma longEscape_shortEscape {c e : Char} (h : shortEscape c = some e) : longEscape e = c := by
  unfold shortEscape at h
  split_ifs at h with h₁ h₂ h₃ h₄ h₅ h₆ h₇ <;>
  rw [Option.some.injEq] at h <;>
  subst h <;>
  symm <;>
  assumption

/-- Different characters have different letters. -/
lemma shortEscape_inj {c d e : Char} (hc : shortEscape c = some e) (hd : shortEscape d = some e) :
    c = d :=
  (longEscape_shortEscape hc).symm.trans (longEscape_shortEscape hd)

/-- A character without a letter of its own is neither the quote nor the backslash. -/
lemma ne_of_shortEscape {c : Char} (h : shortEscape c = none) : c ≠ '"' ∧ c ≠ '\\' := by
  refine ⟨?_, ?_⟩ <;> rintro rfl <;> exact absurd h (by decide)

lemma digitChar_inj : ∀ m < 16, ∀ n < 16, Nat.digitChar m = Nat.digitChar n → m = n := by decide

lemma hex4_append {m n : ℕ} (hm : m < 32) (hn : n < 32) {u v : Text}
    (h : hex4 m ++ u = hex4 n ++ v) : m = n ∧ u = v := by
  simp only [hex4, List.cons_append, List.nil_append, List.cons.injEq, true_and] at h
  obtain ⟨hhigh, hlow, huv⟩ := h
  have hhigh := digitChar_inj (m / 16) (by omega) (n / 16) (by omega) hhigh
  have hlow := digitChar_inj (m % 16) (by omega) (n % 16) (by omega) hlow
  exact ⟨by omega, huv⟩

/-- The three ways in which a character is written. -/
lemma escapeChar_cases (c : Char) :
    (∃ e, shortEscape c = some e ∧ escapeChar c = ['\\', e]) ∨
      (shortEscape c = none ∧ c.toNat < 32 ∧ escapeChar c = '\\' :: 'u' :: hex4 c.toNat) ∨
      (shortEscape c = none ∧ escapeChar c = [c]) := by
  unfold escapeChar
  cases hshort : shortEscape c with
  | some e => exact .inl ⟨e, rfl, rfl⟩
  | none =>
    simp only
    split_ifs with hlow
    · exact .inr (.inl ⟨trivial, hlow, rfl⟩)
    · exact .inr (.inr ⟨trivial, rfl⟩)

/-- No way of writing a character is the beginning of another one. -/
lemma escapeChar_append {c d : Char} {u v : Text} (h : escapeChar c ++ u = escapeChar d ++ v) :
    c = d ∧ u = v := by
  rcases escapeChar_cases c with ⟨e, hc, hce⟩ | ⟨hc, hlow, hce⟩ | ⟨hc, hce⟩ <;>
  rcases escapeChar_cases d with ⟨e', hd, hde⟩ | ⟨hd, hlow', hde⟩ | ⟨hd, hde⟩ <;>
  rw [hce, hde] at h <;>
  simp only [List.cons_append, List.nil_append, List.cons.injEq, true_and] at h
  · obtain ⟨rfl, rfl⟩ := h
    exact ⟨shortEscape_inj hc hd, rfl⟩
  · exact absurd (h.1 ▸ hc) (shortEscape_ne_u c)
  · exact absurd h.1.symm (ne_of_shortEscape hd).2
  · exact absurd (h.1 ▸ hd) (shortEscape_ne_u d)
  · obtain ⟨hcd, rfl⟩ := hex4_append hlow hlow' h
    exact ⟨Char.toNat_inj.mp hcd, rfl⟩
  · exact absurd h.1.symm (ne_of_shortEscape hd).2
  · exact absurd h.1 (ne_of_shortEscape hc).2
  · exact absurd h.1 (ne_of_shortEscape hc).2
  · exact h

/-- A character is not written as the quote that closes a string. -/
lemma escapeChar_ne_quote (c : Char) (u v : Text) : escapeChar c ++ u ≠ '"' :: v := by
  intro h
  rcases escapeChar_cases c with ⟨e, -, hce⟩ | ⟨-, -, hce⟩ | ⟨hc, hce⟩ <;>
  rw [hce] at h <;>
  simp only [List.cons_append, List.nil_append, List.cons.injEq] at h
  · exact absurd h.1 (by decide)
  · exact absurd h.1 (by decide)
  · exact absurd h.1 (ne_of_shortEscape hc).1

lemma escaped_append {s t u v : Text}
    (h : s.flatMap escapeChar ++ '"' :: u = t.flatMap escapeChar ++ '"' :: v) : s = t ∧ u = v := by
  induction s generalizing t with
  | nil =>
    cases t with
    | nil => simpa using h
    | cons d t =>
      rw [List.flatMap_cons, List.append_assoc] at h
      exact absurd h.symm (escapeChar_ne_quote d _ _)
  | cons c s ih =>
    cases t with
    | nil =>
      rw [List.flatMap_cons, List.append_assoc] at h
      exact absurd h (escapeChar_ne_quote c _ _)
    | cons d t =>
      rw [List.flatMap_cons, List.flatMap_cons, List.append_assoc, List.append_assoc] at h
      obtain ⟨rfl, hrest⟩ := escapeChar_append h
      obtain ⟨rfl, rfl⟩ := ih hrest
      exact ⟨rfl, rfl⟩

lemma quote_append {s t u v : Text} (h : quote s ++ u = quote t ++ v) : s = t ∧ u = v := by
  simp only [quote, List.cons_append, List.append_assoc, List.cons.injEq, true_and,
    List.nil_append] at h
  exact escaped_append h

/-! ## Items and arrays -/

/-- The first character of an item tells which kind it is of. -/
inductive Kind : JsonScalar → Char → Prop
  | null : Kind .null 'n'
  | int {n : ℤ} {c : Char} (h : isNumeric c = true) : Kind (.int n) c
  | text (s : Text) : Kind (.text s) '"'

lemma exists_kind (item : JsonScalar) : ∃ c rest, scalarText item = c :: rest ∧ Kind item c := by
  cases item with
  | null => exact ⟨'n', _, rfl, .null⟩
  | text s => exact ⟨'"', _, rfl, .text s⟩
  | int n =>
    obtain ⟨c, rest, heq⟩ := List.exists_cons_of_ne_nil (intText_ne_nil n)
    exact ⟨c, rest, heq, .int (isNumeric_of_mem_intText (heq ▸ List.mem_cons_self))⟩

lemma scalarText_append {a b : JsonScalar} {u v : Text} (hu : Delimited u) (hv : Delimited v)
    (h : scalarText a ++ u = scalarText b ++ v) : a = b ∧ u = v := by
  obtain ⟨c, rest, hc, hkind⟩ := exists_kind a
  obtain ⟨d, rest', hd, hkind'⟩ := exists_kind b
  have hfirst : c = d := by
    rw [hc, hd, List.cons_append, List.cons_append] at h
    exact (List.cons.inj h).1
  subst hfirst
  cases hkind with
  | null =>
    cases hkind' with
    | null => exact ⟨rfl, List.append_cancel_left h⟩
    | int hnum => exact absurd hnum (by decide)
  | int hnum =>
    cases hkind' with
    | null => exact absurd hnum (by decide)
    | int _ =>
      obtain ⟨rfl, rfl⟩ := intText_append hu hv h
      exact ⟨rfl, rfl⟩
    | text t => exact absurd hnum (by decide)
  | text s =>
    cases hkind' with
    | int hnum => exact absurd hnum (by decide)
    | text t =>
      obtain ⟨rfl, rfl⟩ := quote_append h
      exact ⟨rfl, rfl⟩

lemma itemsText_injective : Function.Injective itemsText := by
  intro xs ys h
  induction xs generalizing ys with
  | nil =>
    cases ys with
    | nil => rfl
    | cons y ys => exact absurd (List.cons.inj h).1 (by decide)
  | cons x xs ih =>
    cases ys with
    | nil => exact absurd (List.cons.inj h).1 (by decide)
    | cons y ys =>
      obtain ⟨rfl, hrest⟩ := scalarText_append (delimited_itemsText xs) (delimited_itemsText ys)
        (List.cons.inj h).2
      rw [ih hrest]

/-- **The text of an array determines it.** -/
theorem dumps_injective : Function.Injective dumps := by
  intro xs ys h
  have hempty : ∀ (item : JsonScalar) (rest : Text),
      ('[' :: (scalarText item ++ rest)) ≠ "[]".toList := by
    intro item rest heq
    obtain ⟨c, tail, hc, hkind⟩ := exists_kind item
    rw [hc] at heq
    have hbracket : c = ']' := (List.cons.inj (List.cons.inj heq).2).1
    subst hbracket
    cases hkind with
    | int hnum => exact absurd hnum (by decide)
  cases xs with
  | nil =>
    cases ys with
    | nil => rfl
    | cons y ys => exact absurd h.symm (hempty y _)
  | cons x xs =>
    cases ys with
    | nil => exact absurd h (hempty x _)
    | cons y ys =>
      obtain ⟨rfl, hrest⟩ := scalarText_append (delimited_itemsText xs) (delimited_itemsText ys)
        (List.cons.inj h).2
      rw [itemsText_injective hrest]

example : dumps [.text "a\"b".toList, .int (-7), .null] = "[\"a\\\"b\",-7,null]".toList := by decide

end Json

end Habeny.Lib
