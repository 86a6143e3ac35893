import Habeny.Lib.Text

/-!
# Patterns

Regular expressions without captures, in which only single characters are repeated.  A pattern
gives everything that can be left of a text after a match at its beginning.
-/

namespace Habeny.Lib

inductive Regex where
  | lit (w : Text)
  | one (p : Char → Bool)
  | many (p : Char → Bool)
  | opt (a : Regex)
  | seq (a b : Regex)
  | alt (a b : Regex)

namespace Regex

/-- What can be left after some characters of a kind. -/
def dropSome (p : Char → Bool) : Text → List Text
  | [] => [[]]
  | c :: s => (c :: s) :: if p c then dropSome p s else []

/-- What can be left after a match at the beginning. -/
def rest : Regex → Text → List Text
  | lit w, s => if w.isPrefixOf s then [s.drop w.length] else []
  | one _, [] => []
  | one p, c :: s => if p c then [s] else []
  | many p, s => dropSome p s
  | opt a, s => a.rest s ++ [s]
  | seq a b, s => (a.rest s).flatMap b.rest
  | alt a b, s => a.rest s ++ b.rest s

/-- `re.fullmatch` -/
def fullmatch (a : Regex) (s : Text) : Bool := (a.rest s).any List.isEmpty

/-- `re.search` -/
def search (a : Regex) (s : Text) : Bool := s.tails.any fun t => !(a.rest t).isEmpty

/-- The characters of words, of texts in ASCII. -/
def isWord (c : Char) : Bool := c.isAlphanum || c == '_'

/-- `re.search` for a pattern behind a word boundary, which begins with the character of a word;
the first argument says whether there is such a character just before. -/
def searchWord (a : Regex) : Bool → Text → Bool
  | _, [] => false
  | inWord, c :: s => (!inWord && !(a.rest (c :: s)).isEmpty) || searchWord a (isWord c) s

end Regex

end Habeny.Lib
