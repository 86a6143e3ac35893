import Habeny.Lib.Shlex
import Habeny.Lib.Shell

/-!
# What a shell reads the characters of a script as

A shell goes through a script from the left, and what it reads a character as depends on what stands
before it: a character of a word that stands for itself, a quote, an operator, a part of an
expansion, a comment or a document that a command gets.  What the commands of a script are depends
on these readings and on the characters that stand for themselves.

A script is often written with values in it.  A value of characters that mean nothing to a shell is
read as itself between double quotes, and in a word that can be nothing but a word; and so is any
value behind `shlex.quote` in such a word.  So all the other characters of the script are read as
they are with every other value (`run_fill`).
-/

namespace Habeny.Lib.Shell

open CodeText

/-! ## Readings -/

/-- What a character is read as. -/
inductive Reading where
  /-- stands for itself, in a word that is nothing but a word -/
  | literal
  /-- stands for itself, in a word that may turn out to be a reserved word, a name or a number -/
  | open_
  /-- may be a part of a pattern, or of words that braces make -/
  | pattern
  | quote
  | blank
  | newline
  | operator
  | expansion
  | comment
  | document
  deriving DecidableEq

/-- How far the word is that is being read. -/
inductive WordState where
  | none
  /-- only digits, which may be the number of a redirection -/
  | digits
  /-- may be a reserved word or a name -/
  | open_
  | fixed
  deriving DecidableEq

/-- What the next character is read in. -/
inductive Place where
  | outside (w : WordState)
  | escape (w : WordState)
  | single
  | double
  | doubleEscape
  /-- behind a dollar -/
  | dollar (quoted : Bool)
  | name (quoted : Bool)
  /-- behind a dollar and a parenthesis -/
  | paren (quoted : Bool)
  | arith (depth : ℕ) (quoted : Bool)
  | arithEnd (quoted : Bool)
  | comment
  | less
  /-- behind `<<`, in the word that ends the document -/
  | delimiter (word : CodeText)
  | document (line : CodeText)
  deriving DecidableEq

/-- A command substitution that has not ended: whether it stands between double quotes, and how many
parentheses are open around it. -/
structure Outer where
  quoted : Bool
  depth : ℕ
  deriving DecidableEq

structure Scanner where
  place : Place
  depth : ℕ
  outer : List Outer
  /-- the words that end the documents which begin behind the line -/
  documents : List CodeText
  deriving DecidableEq

/-- The characters of reserved words and names.  A plus stands before the equals sign of an
assignment that appends. -/
def isOpenChar (c : ℕ) : Bool := isNameChar c || decide (c ∈ lit "\x7b\x7d[]!+")

/-- What a word is with one more character that stands for itself. -/
def WordState.add (c : ℕ) : WordState → WordState
  | .none => if isDigit c then .digits else if isOpenChar c then .open_ else .fixed
  | .digits => if isDigit c then .digits else if isOpenChar c then .open_ else .fixed
  | .open_ => if isOpenChar c then .open_ else .fixed
  | .fixed => .fixed

/-- How the last character of such a word is read. -/
def WordState.reading : WordState → Reading
  | .fixed => .literal
  | _ => .open_

namespace Scanner

def start : Scanner := { place := .outside .none, depth := 0, outer := [], documents := [] }

variable (r : Scanner)

def go (place : Place) (a : Reading) : Option (Scanner × Reading) := some ({ r with place := place }, a)

/-- Where an expansion or a quotation ends. -/
def back (quoted : Bool) : Place := if quoted then .double else .outside .fixed

/-- A character outside of quotes. -/
def takeOutside (w : WordState) (c : ℕ) : Option (Scanner × Reading) :=
  if c = blank ∨ c = tab then r.go (.outside .none) .blank
  else if c = newline then
    -- documents begin behind the line that asks for them
    match r.documents with
    | [] => r.go (.outside .none) .newline
    | _ :: _ => r.go (.document []) .newline
  else if c = singleQuote then r.go .single .quote
  else if c = doubleQuote then r.go .double .quote
  else if c = backslash then r.go (.escape w) .quote
  else if c = dollar then r.go (.dollar false) .expansion
  else if c = pound ∧ w = .none then r.go .comment .comment
  else if c = semicolon ∨ c = ampersand ∨ c = bar ∨ c = greater then
    r.go (.outside .none) .operator
  else if c = less then r.go .less .operator
  else if c = opening then
    some ({ r with place := .outside .none, depth := r.depth + 1 }, .operator)
  else if c = closing then
    match r.depth, r.outer with
    | depth + 1, _ => some ({ r with place := .outside .none, depth := depth }, .operator)
    | 0, o :: outer =>
      some ({ r with place := back o.quoted, depth := o.depth, outer := outer }, .expansion)
    | 0, [] => none
  -- commands between backquotes are not gone through
  else if c = backquote then none
  else r.go (.outside (w.add c)) (if isSpecial c then .pattern else (w.add c).reading)

/-- A character between double quotes. -/
def takeDouble (c : ℕ) : Option (Scanner × Reading) :=
  if c = doubleQuote then r.go (.outside .fixed) .quote
  else if c = backslash then r.go .doubleEscape .quote
  else if c = dollar then r.go (.dollar true) .expansion
  else if c = backquote then none
  else r.go .double .literal

def takeBack (quoted : Bool) (c : ℕ) : Option (Scanner × Reading) :=
  if quoted then r.takeDouble c else r.takeOutside .fixed c

/-- The next character, and what it is read as. -/
def step (c : ℕ) : Option (Scanner × Reading) :=
  if c = 0 then none
  else match r.place with
  | .outside w => r.takeOutside w c
  | .escape w =>
    -- with a newline behind it, a backslash joins two lines
    if c = newline then r.go (.outside w) .quote else r.go (.outside .fixed) .literal
  | .single => if c = singleQuote then r.go (.outside .fixed) .quote else r.go .single .literal
  | .double => r.takeDouble c
  | .doubleEscape =>
    -- before any other character the backslash would stand for itself
    if c = dollar ∨ c = doubleQuote ∨ c = backslash ∨ c = backquote then r.go .double .literal
    else none
  | .dollar quoted =>
    if c = opening then r.go (.paren quoted) .expansion
    else if isNameStart c then r.go (.name quoted) .expansion
    -- the number of an argument is a single digit
    else if isDigit c then r.go (back quoted) .expansion
    else none
  | .name quoted => if isNameChar c then r.go (.name quoted) .expansion else r.takeBack quoted c
  | .paren quoted =>
    if c = opening then r.go (.arith 0 quoted) .expansion
    else { r with depth := 0, outer := ⟨quoted, r.depth⟩ :: r.outer }.takeOutside .none c
  | .arith depth quoted =>
    if c = opening then r.go (.arith (depth + 1) quoted) .expansion
    else if c = closing then
      match depth with
      | 0 => r.go (.arithEnd quoted) .expansion
      | depth + 1 => r.go (.arith depth quoted) .expansion
    else if c = dollar ∨ c = backquote ∨ c = singleQuote ∨ c = doubleQuote ∨ c = backslash then none
    else r.go (.arith depth quoted) .expansion
  | .arithEnd quoted => if c = closing then r.go (back quoted) .expansion else none
  | .comment => if c = newline then r.takeOutside .none c else r.go .comment .comment
  | .less =>
    if c = less then r.go (.delimiter []) .operator
    -- of the redirections to read from, only the one from a file
    else if c = opening ∨ c = ampersand ∨ c = greater then none
    else r.takeOutside .none c
  | .delimiter word =>
    if isNameChar c then r.go (.delimiter (word ++ [c])) .document
    else if word = [] then if c = blank then r.go (.delimiter []) .blank else none
    else { r with documents := r.documents ++ [word] }.takeOutside .none c
  | .document line =>
    -- the document is expanded as well
    if c = dollar ∨ c = backquote ∨ c = backslash then none
    else if c = newline then
      match r.documents with
      | [] => none
      | d :: ds =>
        if line = d then
          some ({ r with place := if ds = [] then .outside .none else .document [],
                         documents := ds }, .document)
        else r.go (.document []) .document
    else r.go (.document (line ++ [c])) .document

/-- What the characters of a text are read as, and where the scanner is behind it. -/
def run (r : Scanner) : CodeText → Option (Scanner × List Reading)
  | [] => some (r, [])
  | c :: t => (r.step c).bind fun p => (run p.1 t).map fun q => (q.1, p.2 :: q.2)

end Scanner

/-- Whether a script can end here: nothing is open. -/
def Scanner.atEnd (r : Scanner) : Bool :=
  decide (r.depth = 0 ∧ r.outer = [] ∧ r.documents = []) &&
    match r.place with
    | .outside _ | .name false | .comment => true
    | _ => false

/-- What the characters of a script are read as. -/
def readings (script : CodeText) : Option (List Reading) :=
  (Scanner.start.run script).bind fun p => if p.1.atEnd then some p.2 else none

/-! ## Values -/

/-- The characters that mean something to a shell, and the one that it does not read. -/
def meaningful : CodeText :=
  [0, tab, newline, blank, doubleQuote, pound, dollar, ampersand, singleQuote, opening, closing,
    semicolon, less, greater, backslash, backquote, bar] ++ lit "*?[]~\x7b\x7d"

def isInert (c : ℕ) : Bool := decide (c ∉ meaningful)

/-- What the characters of `shlex.quote` of a value are read as, in a word that is nothing but a
word. -/
def quoteReadings (v : CodeText) : List Reading :=
  if v = [] then [.quote, .quote]
  else if v.all Shlex.isSafe then v.map fun _ => .literal
  else .quote :: (v.flatMap (fun c =>
    if c = singleQuote then [.quote, .quote, .literal, .quote, .quote] else [.literal]) ++ [.quote])

namespace Scanner

variable {r : Scanner} {s t : CodeText} {c : ℕ}

lemma run_append {as : List Reading} {r' : Scanner} (h : r.run s = some (r', as)) (t : CodeText) :
    r.run (s ++ t) = (r'.run t).map fun q => (q.1, as ++ q.2) := by
  induction s generalizing r as with
  | nil =>
    obtain ⟨rfl, rfl⟩ : r = r' ∧ [] = as := by simpa [run] using h
    simp
  | cons c s ih =>
    rw [run] at h
    obtain ⟨p, hstep, q, hrun, hq⟩ : ∃ p, r.step c = some p ∧ ∃ q, p.1.run s = some q ∧
        (q.1, p.2 :: q.2) = (r', as) := by simpa [Option.bind_eq_some_iff] using h
    obtain ⟨rfl, rfl⟩ := Prod.mk.inj hq
    rw [List.cons_append, run, hstep, Option.bind_some, ih hrun, Option.map_map]
    rfl

/-- Characters that leave the scanner where it is. -/
lemma run_of_stays {a : Reading} (h : ∀ c ∈ s, r.step c = some (r, a)) :
    r.run s = some (r, s.map fun _ => a) := by
  induction s with
  | nil => rfl
  | cons c s ih =>
    rw [run, h c List.mem_cons_self, Option.bind_some,
      ih fun d hd => h d (List.mem_cons_of_mem c hd)]
    rfl

lemma run_singleton {a : Reading} {r' : Scanner} (h : r.step c = some (r', a)) :
    r.run [c] = some (r', [a]) := by
  rw [run, h]
  rfl

/-- Where a value can stand: between double quotes, or in a word that is nothing but a word. -/
def TakesValue (r : Scanner) : Prop := r.place = .double ∨ r.place = .outside .fixed

instance : DecidablePred TakesValue := fun r =>
  inferInstanceAs (Decidable (r.place = .double ∨ r.place = .outside .fixed))

lemma go_self {p : Place} (h : r.place = p) (a : Reading) : r.go p a = some (r, a) := by
  rw [go, ← h]

/-- **A character that means nothing leaves the scanner where it is**, where a value can stand. -/
lemma step_inert (hr : r.TakesValue) (hc : isInert c = true) : r.step c = some (r, .literal) := by
  have hne : ∀ d ∈ meaningful, c ≠ d := by
    intro d hd heq
    exact of_decide_eq_true hc (heq ▸ hd)
  have hspecial : isSpecial c = false := decide_eq_false fun h =>
    of_decide_eq_true hc (List.mem_append_right _ h)
  rw [step, if_neg (hne 0 (by decide))]
  obtain hr | hr := hr
  · rw [hr]
    simp only [takeDouble, if_neg (hne doubleQuote (by decide)), if_neg (hne backslash (by decide)),
      if_neg (hne dollar (by decide)), if_neg (hne backquote (by decide))]
    exact go_self hr _
  · rw [hr]
    simp only [takeOutside, hne blank (by decide), hne tab (by decide), hne newline (by decide),
      hne singleQuote (by decide), hne doubleQuote (by decide), hne backslash (by decide),
      hne dollar (by decide), hne pound (by decide), hne semicolon (by decide),
      hne ampersand (by decide), hne bar (by decide), hne greater (by decide), hne less (by decide),
      hne opening (by decide), hne closing (by decide), hne backquote (by decide), hspecial,
      or_self, false_and, if_false, Bool.false_eq_true]
    exact go_self hr _

/-- A value of characters that mean nothing stands for itself. -/
lemma run_value (hr : r.TakesValue) (h : ∀ c ∈ s, isInert c = true) :
    r.run s = some (r, s.map fun _ => .literal) :=
  run_of_stays fun c hc => step_inert hr (h c hc)

lemma step_single (hr : r.place = .single) (hzero : c ≠ 0) (hc : c ≠ singleQuote) :
    r.step c = some (r, .literal) := by
  rw [step, if_neg hzero, hr]
  simp only [if_neg hc]
  exact go_self hr _

lemma isInert_of_isSafe (h : Shlex.isSafe c = true) : isInert c = true := by
  have hall : ∀ d ∈ meaningful, Shlex.isSafe d = false := by decide
  refine decide_eq_true fun hc => ?_
  exact absurd h (by rw [hall c hc]; decide)

/-- A quote between single quotes: out of them, between double quotes, and into them again. -/
lemma run_quoteChar (hr : r.place = .single) (hc : c ≠ 0) :
    r.run (Shlex.quoteChar c) = some (r, if c = singleQuote then
      [.quote, .quote, .literal, .quote, .quote] else [.literal]) := by
  rw [Shlex.quoteChar]
  by_cases hquote : c = singleQuote
  · rw [if_pos hquote, if_pos hquote]
    obtain ⟨place, depth, outer, documents⟩ := r
    obtain rfl : place = .single := hr
    rfl
  · rw [if_neg hquote, if_neg hquote]
    exact run_singleton (step_single hr hc hquote)

lemma run_flatMap_quoteChar (hr : r.place = .single) (hs : 0 ∉ s) :
    r.run (s.flatMap Shlex.quoteChar) = some (r, s.flatMap fun c =>
      if c = singleQuote then [.quote, .quote, .literal, .quote, .quote] else [.literal]) := by
  induction s with
  | nil => rfl
  | cons c s ih =>
    rw [List.mem_cons, not_or] at hs
    rw [List.flatMap_cons, List.flatMap_cons, run_append (run_quoteChar hr (Ne.symm hs.1)), ih hs.2]
    rfl

/-- **Any value behind `shlex.quote` stands for itself**, in a word that is nothing but a word. -/
theorem run_quote (hr : r.place = .outside .fixed) (hs : 0 ∉ s) :
    r.run (Shlex.quote s) = some (r, quoteReadings s) := by
  have hopen : r.step singleQuote = some ({ r with place := .single }, .quote) := by
    rw [step, hr]
    rfl
  have hclose : { r with place := Place.single }.step singleQuote = some (r, .quote) := by
    have hself : { r with place := Place.outside .fixed } = r := by rw [← hr]
    exact congrArg (fun p => some (p, Reading.quote)) hself
  rw [Shlex.quote, quoteReadings]
  split_ifs with hnil hsafe
  · rw [run, hopen, Option.bind_some, run_singleton hclose]
    rfl
  · exact run_value (.inr hr) fun c hc => isInert_of_isSafe (List.all_eq_true.mp hsafe c hc)
  · rw [run, hopen, Option.bind_some, run_append (run_flatMap_quoteChar rfl hs),
      run_singleton hclose]
    rfl

end Scanner

/-! ## Scripts with values in them -/

/-- A piece of a script with values in it, as of an f-string. -/
inductive Piece (V : Type) where
  | text (t : CodeText)
  | value (v : V)
  /-- with `shlex.quote` -/
  | quoted (v : V)

/-- What a piece is read as: a character of its own text, or those of a value. -/
inductive PieceReading (V : Type) where
  | own (a : Reading)
  | value (v : V)
  | quoted (v : V)

variable {V : Type}

def Piece.fill (values : V → CodeText) : Piece V → CodeText
  | .text t => t
  | .value v => values v
  | .quoted v => Shlex.quote (values v)

/-- The script with the values. -/
def fill (values : V → CodeText) (pieces : List (Piece V)) : CodeText :=
  pieces.flatMap (Piece.fill values)

lemma fill_cons (values : V → CodeText) (p : Piece V) (ps : List (Piece V)) :
    fill values (p :: ps) = p.fill values ++ fill values ps := List.flatMap_cons

def PieceReading.fill (values : V → CodeText) : PieceReading V → List Reading
  | .own a => [a]
  | .value v => (values v).map fun _ => .literal
  | .quoted v => quoteReadings (values v)

namespace Scanner

/-- What the pieces are read as, if each value stands where it can stand. -/
def runPieces (r : Scanner) : List (Piece V) → Option (Scanner × List (PieceReading V))
  | [] => some (r, [])
  | .text t :: ps => (r.run t).bind fun p =>
    (runPieces p.1 ps).map fun q => (q.1, p.2.map .own ++ q.2)
  | .value v :: ps =>
    if r.TakesValue then (runPieces r ps).map fun q => (q.1, .value v :: q.2) else none
  | .quoted v :: ps =>
    if r.place = .outside .fixed then (runPieces r ps).map fun q => (q.1, .quoted v :: q.2)
    else none

/-- **The values are read as themselves, and all the rest as with other values.** -/
theorem run_fill {values : V → CodeText} {pieces : List (Piece V)} {r r' : Scanner}
    {as : List (PieceReading V)} (h : r.runPieces pieces = some (r', as))
    (hvalues : ∀ v, ∀ c ∈ values v, isInert c = true) :
    r.run (Shell.fill values pieces) = some (r', as.flatMap (PieceReading.fill values)) := by
  induction pieces generalizing r as with
  | nil =>
    obtain ⟨rfl, rfl⟩ := Prod.mk.inj (Option.some.inj h)
    rfl
  | cons piece pieces ih =>
    rw [fill_cons]
    cases piece with
    | text t =>
      obtain ⟨p, hp, q, hq, heq⟩ : ∃ p, r.run t = some p ∧ ∃ q, p.1.runPieces pieces = some q ∧
          (q.1, p.2.map PieceReading.own ++ q.2) = (r', as) := by
        simpa [runPieces, Option.bind_eq_some_iff] using h
      obtain ⟨rfl, rfl⟩ := Prod.mk.inj heq
      have hown : (p.2.map PieceReading.own).flatMap (PieceReading.fill values) = p.2 := by
        rw [List.flatMap_map]
        exact List.flatMap_singleton' p.2
      rw [Piece.fill, run_append hp, ih hq, List.flatMap_append, hown]
      rfl
    | value v =>
      rw [runPieces] at h
      split_ifs at h with hr
      obtain ⟨q, hq, heq⟩ := Option.map_eq_some_iff.mp h
      obtain ⟨rfl, rfl⟩ := Prod.mk.inj heq
      rw [Piece.fill, run_append (run_value hr (hvalues v)), ih hq]
      rfl
    | quoted v =>
      rw [runPieces] at h
      split_ifs at h with hr
      obtain ⟨q, hq, heq⟩ := Option.map_eq_some_iff.mp h
      obtain ⟨rfl, rfl⟩ := Prod.mk.inj heq
      have hzero : 0 ∉ values v := fun hc => absurd (hvalues v 0 hc) (by decide)
      rw [Piece.fill, run_append (run_quote hr hzero), ih hq]
      rfl

end Scanner

/-- What the pieces of a script are read as. -/
def pieceReadings (pieces : List (Piece V)) : Option (List (PieceReading V)) :=
  (Scanner.start.runPieces pieces).bind fun p => if p.1.atEnd then some p.2 else none

lemma Scanner.runPieces_append (r : Scanner) (ps qs : List (Piece V)) :
    r.runPieces (ps ++ qs) = (r.runPieces ps).bind fun p =>
      (p.1.runPieces qs).map fun q => (q.1, p.2 ++ q.2) := by
  induction ps generalizing r with
  | nil => simp [runPieces]
  | cons piece ps ih =>
    cases piece with
    | text t =>
      rw [List.cons_append, runPieces, runPieces, Option.bind_assoc]
      refine congrArg (Option.bind (r.run t)) (funext fun p => ?_)
      rw [ih, Option.map_bind, Option.bind_map]
      refine congrArg (Option.bind (p.1.runPieces ps)) (funext fun q => ?_)
      simp [Function.comp_def]
    | value v | quoted v =>
      rw [List.cons_append, runPieces, runPieces]
      split_ifs
      · rw [ih, Option.map_bind, Option.bind_map]
        refine congrArg (Option.bind (r.runPieces ps)) (funext fun q => ?_)
        simp [Function.comp_def]
      · rfl

/-- Pieces after which nothing is open, so that others can follow as at the start of a script. -/
def Returns (pieces : List (Piece V)) : Prop :=
  (Scanner.start.runPieces pieces).map Prod.fst = some Scanner.start

instance : DecidablePred (Returns (V := V)) := fun pieces =>
  inferInstanceAs (Decidable ((Scanner.start.runPieces pieces).map Prod.fst = some Scanner.start))

lemma Returns.append {ps qs : List (Piece V)} (h : Returns ps) (h' : Returns qs) :
    Returns (ps ++ qs) := by
  obtain ⟨p, hp, hstart⟩ := Option.map_eq_some_iff.mp h
  rw [Returns, Scanner.runPieces_append, hp, Option.bind_some, Option.map_map, hstart]
  exact h'

lemma Returns.isSome {pieces : List (Piece V)} (h : Returns pieces) :
    (pieceReadings pieces).isSome = true := by
  obtain ⟨p, hp, hstart⟩ := Option.map_eq_some_iff.mp h
  rw [pieceReadings, hp, Option.bind_some, hstart]
  rfl

theorem readings_fill {values : V → CodeText} {pieces : List (Piece V)}
    {as : List (PieceReading V)} (h : pieceReadings pieces = some as)
    (hvalues : ∀ v, ∀ c ∈ values v, isInert c = true) :
    readings (fill values pieces) = some (as.flatMap (PieceReading.fill values)) := by
  obtain ⟨p, hp, hend⟩ := Option.bind_eq_some_iff.mp h
  split_ifs at hend with hatEnd
  obtain rfl := Option.some.inj hend
  rw [readings, Scanner.run_fill hp hvalues, Option.bind_some, if_pos hatEnd]

end Habeny.Lib.Shell
