import Habeny.Lib.Regex
import Habeny.Lib.Separated

/-!
# The licence policy for bundled packages

A licence is judged by cutting its text: at every `OR`, then at every `AND`, then at every slash,
and the brackets and blanks at the ends of each piece are removed before.  What is left is compared
with the names that the policy knows.
-/

namespace Habeny.Notices

open Habeny.Lib Regex

/-! ## Names -/

def lit (s : String) : Regex := .lit s.toList

def anyOf : List Regex → Regex
  | [] => .one fun _ => false
  | [a] => a
  | a :: as => .alt a (anyOf as)

/-- `.*` -/
def anything : Regex := .many fun c => c != '\n'

/-- `ALLOWED`; cases are not told apart, so that the names are in small letters. -/
def allowedNames : List Regex :=
  [.seq (lit "mit") (.opt (lit " license")), lit "mit-0", lit "mit-cmu", lit "bsd license",
    lit "apache software license", lit "isc", lit "0bsd", lit "bsd",
    .seq (lit "bsd-") (.seq (.one Char.isDigit) (lit "-clause")),
    .seq (lit "apache") (.seq (.opt (.one fun c => c == '-' || c == ' '))
      (.seq (.opt (lit "software ")) (.seq (.opt (lit "license"))
        (.seq (.many fun c => c == '-' || c == ' ' || c == ',')
          (.opt (.alt (lit "2.0") (lit "version 2.0"))))))),
    lit "apache-2.0", .seq (lit "psf") (.opt (lit "-2.0")),
    .seq (lit "python software foundation") (.opt (lit " license")), lit "zlib", lit "unlicense",
    lit "cc0-1.0", lit "mpl-2.0", .seq (lit "mozilla public license 2.0") anything, lit "hpnd",
    .seq (lit "historical permission notice and disclaimer") anything, lit "blueoak-1.0.0",
    lit "cc-by-4.0", .seq (lit "lgpl") anything,
    .seq (lit "gnu lesser general public license") anything]

/-- `DENIED`, behind the word boundary. -/
def deniedNames : Regex :=
  anyOf [.seq (.opt (lit "a")) (lit "gpl"),
    .seq (lit "gnu ") (.seq (.opt (lit "affero ")) (lit "general public")), lit "sspl",
    lit "server side public", lit "busl", lit "business source", lit "commons clause",
    lit "elastic license", lit "cc-by-nc",
    .seq (lit "non") (.seq (.opt (lit "-")) (lit "commercial"))]

/-- `LESSER` -/
def lesserNames : Regex := .alt (lit "lgpl") (lit "lesser general public")

def lower (s : Text) : Text := s.map Char.toLower

/-- `str.strip`, of texts in ASCII. -/
def stripBlanks (s : Text) : Text := (s.dropWhile Char.isWhitespace).rdropWhile Char.isWhitespace

/-- What a piece without operators is judged to be.  The lesser licences are allowed for Python
packages only: bundled into the frontend they would be a static combination. -/
def allowedAlone (ecosystem expr : Text) : Bool :=
  if lesserNames.search (lower expr) then ecosystem == "Python".toList
  else if deniedNames.searchWord false (lower expr) then false
  else allowedNames.any fun name => name.fullmatch (lower (stripBlanks expr))

/-! ## Expressions -/

def isBracket (c : Char) : Bool := c == '(' || c == ')' || c == ' '

/-- `license_.strip("() ")` -/
def stripBrackets (s : Text) : Text := (s.dropWhile isBracket).rdropWhile isBracket

def orWord : Text := ['O', 'R']

def andWord : Text := ['A', 'N', 'D']

/-- A word between two blanks. -/
def spaced (w : Text) : Text := ' ' :: w ++ [' ']

lemma length_stripBrackets_le (s : Text) : (stripBrackets s).length ≤ s.length :=
  ((List.rdropWhile_prefix _ _).length_le).trans (List.dropWhile_suffix _).length_le

/-- The pieces at a word are shorter than what is cut. -/
lemma length_piece_lt {w s p : Text} (h : spaced w <:+: stripBrackets s)
    (hp : p ∈ splitText (spaced w) (stripBrackets s)) : p.length < s.length :=
  (length_lt_of_mem_splitText h (List.cons_ne_nil _ _) hp).trans_le (length_stripBrackets_le s)

/-- `_allowed`: one piece at an `OR` or a slash has to be allowed, all of those at an `AND`. -/
def allowed (ecosystem license : Text) : Bool :=
  if hor : spaced orWord <:+: stripBrackets license then
    (splitText (spaced orWord) (stripBrackets license)).attach.any fun p =>
      have := length_piece_lt hor p.2
      allowed ecosystem p.1
  else if hand : spaced andWord <:+: stripBrackets license then
    (splitText (spaced andWord) (stripBrackets license)).attach.all fun p =>
      have := length_piece_lt hand p.2
      allowed ecosystem p.1
  else if hslash : spaced ['/'] <:+: stripBrackets license then
    (splitText (spaced ['/']) (stripBrackets license)).attach.any fun p =>
      have := length_piece_lt hslash p.2
      allowed ecosystem p.1
  else allowedAlone ecosystem (stripBrackets license)
termination_by license.length

/-! ## Brackets at the ends -/

variable {ecosystem s : Text}

/-- Brackets are removed at the ends only. -/
lemma stripBrackets_append {a m b : Text} (ha : ∀ c ∈ a, isBracket c = true)
    (hb : ∀ c ∈ b, isBracket c = true) (hfirst : ∀ c ∈ m.head?, isBracket c = false)
    (hlast : ∀ c ∈ m.getLast?, isBracket c = false) (hm : m ≠ []) :
    stripBrackets (a ++ m ++ b) = m := by
  obtain ⟨x, m', rfl⟩ := List.exists_cons_of_ne_nil hm
  have hx : ¬isBracket x = true := by simpa using hfirst x rfl
  rw [stripBrackets, List.append_assoc, List.dropWhile_append_of_pos ha, List.cons_append,
    List.dropWhile_cons_of_neg hx, ← List.cons_append]
  have hrev : ((x :: m') ++ b).reverse.dropWhile isBracket = (x :: m').reverse := by
    rw [List.reverse_append, List.dropWhile_append_of_pos (by simpa using hb)]
    cases hr : (x :: m').reverse with
    | nil => rfl
    | cons y r =>
      refine List.dropWhile_cons_of_neg ?_
      have hy : (x :: m').getLast? = some y := by rw [← List.head?_reverse, hr]; rfl
      simpa using hlast y hy
  rw [List.rdropWhile, hrev, List.reverse_reverse]

lemma head_stripBrackets (s : Text) : ∀ c ∈ (stripBrackets s).head?, isBracket c = false := by
  intro c hc
  have hbegin : stripBrackets s <+: s.dropWhile isBracket := List.rdropWhile_prefix _ _
  have hhead : (s.dropWhile isBracket).head? = some c := by
    cases hs : stripBrackets s with
    | nil =>
      rw [hs] at hc
      cases hc
    | cons d t =>
      rw [hs] at hc hbegin
      obtain ⟨u, hu⟩ := hbegin
      rw [← hu]
      exact hc
  have hnot := List.head?_dropWhile_not isBracket s
  rw [hhead] at hnot
  exact hnot

lemma getLast_stripBrackets (s : Text) : ∀ c ∈ (stripBrackets s).getLast?, isBracket c = false := by
  intro c hc
  by_cases hnil : stripBrackets s = []
  · rw [hnil] at hc
    cases hc
  · have hnot := List.rdropWhile_last_not _ _ hnil
    rw [List.getLast?_eq_some_getLast hnil, Option.mem_def, Option.some.injEq] at hc
    rw [← hc]
    exact Bool.eq_false_iff.mpr hnot

lemma stripBrackets_idem (s : Text) : stripBrackets (stripBrackets s) = stripBrackets s := by
  by_cases hnil : stripBrackets s = []
  · rw [hnil]
    rfl
  · have hstrip := @stripBrackets_append [] (stripBrackets s) [] (by simp) (by simp)
      (head_stripBrackets s) (getLast_stripBrackets s) hnil
    rwa [List.nil_append, List.append_nil] at hstrip

/-! ## Cutting -/

lemma any_attach {α : Type} (l : List α) (f : α → Bool) :
    (l.attach.any fun p => f p.1) = l.any f := by
  conv_rhs => rw [← List.attach_map_subtype_val l, List.any_map]
  rfl

lemma all_attach {α : Type} (l : List α) (f : α → Bool) :
    (l.attach.all fun p => f p.1) = l.all f := by
  conv_rhs => rw [← List.attach_map_subtype_val l, List.all_map]
  rfl

lemma allowed_eq (ecosystem s : Text) : allowed ecosystem s =
    if spaced orWord <:+: stripBrackets s then
      (splitText (spaced orWord) (stripBrackets s)).any (allowed ecosystem)
    else if spaced andWord <:+: stripBrackets s then
      (splitText (spaced andWord) (stripBrackets s)).all (allowed ecosystem)
    else if spaced ['/'] <:+: stripBrackets s then
      (splitText (spaced ['/']) (stripBrackets s)).any (allowed ecosystem)
    else allowedAlone ecosystem (stripBrackets s) := by
  rw [allowed]
  simp only [any_attach _ (allowed ecosystem), all_attach _ (allowed ecosystem), dite_eq_ite]

lemma allowed_stripBrackets (ecosystem s : Text) :
    allowed ecosystem (stripBrackets s) = allowed ecosystem s := by
  rw [allowed_eq, allowed_eq ecosystem s, stripBrackets_idem]

/-- Whether or not there is an `OR`, one of the pieces at it has to be allowed. -/
lemma allowed_eq_any (ecosystem s : Text) : allowed ecosystem s =
    (splitText (spaced orWord) (stripBrackets s)).any (allowed ecosystem) := by
  by_cases hor : spaced orWord <:+: stripBrackets s
  · rw [allowed_eq, if_pos hor]
  · rw [splitText_of_not_occurs hor, List.any_cons, List.any_nil, Bool.or_false,
      allowed_stripBrackets]

/-- Where there is no `OR`, all pieces at an `AND` have to be allowed. -/
lemma allowed_eq_all (hor : ¬spaced orWord <:+: stripBrackets s) : allowed ecosystem s =
    (splitText (spaced andWord) (stripBrackets s)).all (allowed ecosystem) := by
  by_cases hand : spaced andWord <:+: stripBrackets s
  · rw [allowed_eq, if_neg hor, if_pos hand]
  · rw [splitText_of_not_occurs hand, List.all_cons, List.all_nil, Bool.and_true,
      allowed_stripBrackets]

end Habeny.Notices
