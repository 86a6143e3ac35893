import Habeny.Lib.Lines

/-!
# Shell scripts

Words, commands and scripts of a POSIX shell, and how the tokens of a script make up its commands.

A word is the list of its parts: characters, of which each is quoted or not, and what is expanded.
Only what the language says of the constructs below is modelled; `Script.parse` gives nothing for a
script that has others (pipelines, functions, patterns, background jobs).
-/

namespace Habeny.Lib.Shell

open CodeText

def tab : ℕ := 9
def blank : ℕ := 32
def doubleQuote : ℕ := 34
def pound : ℕ := 35
def dollar : ℕ := 36
def ampersand : ℕ := 38
def singleQuote : ℕ := 39
def opening : ℕ := 40
def closing : ℕ := 41
def semicolon : ℕ := 59
def less : ℕ := 60
def equals : ℕ := 61
def greater : ℕ := 62
def backslash : ℕ := 92
def backquote : ℕ := 96
def bar : ℕ := 124

def isDigit (c : ℕ) : Bool := decide (48 ≤ c ∧ c ≤ 57)

/-- The characters that a name begins with. -/
def isNameStart (c : ℕ) : Bool :=
  decide (65 ≤ c ∧ c ≤ 90 ∨ 97 ≤ c ∧ c ≤ 122 ∨ c = 95)

def isNameChar (c : ℕ) : Bool := isNameStart c || isDigit c

/-! ## Arithmetic -/

inductive Arith where
  | num (n : ℕ)
  | var (name : CodeText)
  | add (a b : Arith)
  | sub (a b : Arith)
  | mul (a b : Arith)
  deriving DecidableEq

namespace Arith

/-- The number that digits stand for. -/
def numberOf (digits : CodeText) : ℕ := digits.foldl (fun n c => 10 * n + (c - 48)) 0

def atom : CodeText → Option Arith
  | [] => none
  | c :: s =>
    if isNameStart c ∧ s.all isNameChar then some (.var (c :: s))
    else if (c :: s).all isDigit ∧ c ≠ 48 then some (.num (numberOf (c :: s)))
    else none

/-- A sum that still waits for its last term. -/
inductive Waiting where
  | start
  | plus (a : Arith)
  | minus (a : Arith)

def Waiting.with : Waiting → Arith → Arith
  | .start, term => term
  | .plus a, term => .add a term
  | .minus a, term => .sub a term

/-- The rest of a sum, behind the term that was read last. -/
def readRest (left : Waiting) (term : Arith) : List CodeText → Option Arith
  | [] => some (left.with term)
  | [_] => none
  | op :: w :: rest =>
    (atom w).bind fun x =>
      if op = lit "*" then readRest left (.mul term x) rest
      else if op = lit "+" then readRest (.plus (left.with term)) x rest
      else if op = lit "-" then readRest (.minus (left.with term)) x rest
      else none

/-- An expression whose operators stand between blanks. -/
def parse (s : CodeText) : Option Arith :=
  match s.splitOn blank with
  | [] => none
  | w :: rest => (atom w).bind fun x => readRest .start x rest

/-- The variables that are read. -/
def vars : Arith → List CodeText
  | .num _ => []
  | .var name => [name]
  | .add a b => a.vars ++ b.vars
  | .sub a b => a.vars ++ b.vars
  | .mul a b => a.vars ++ b.vars

end Arith

/-! ## Commands -/

mutual

/-- A part of a word. -/
inductive Part where
  | char (c : ℕ) (quoted : Bool)
  | param (name : CodeText) (quoted : Bool)
  | arith (expr : Arith) (quoted : Bool)
  | command (body : List Command) (quoted : Bool)

/-- What a simple command is made of: a word that is one field whatever is expanded in it, an
expansion outside of quotes, which is split into fields, or a redirection of an output. -/
inductive Item where
  | word (parts : List Part)
  | fields (part : Part)
  | redirect (fd : CodeText) (append : Bool) (target : List Part)

inductive Command where
  | assign (name : CodeText) (value : List Part)
  | simple (items : List Item)
  | orElse (left right : Command)
  | ifThen (test body other : List Command)
  | forIn (name : CodeText) (words : List Item) (body : List Command)

end

/-- The commands of a script or of a part of one. -/
abbrev Script := List Command

/-- The characters of a quoted text. -/
def quoted (s : CodeText) : List Part := s.map fun c => .char c true

/-- The characters of a text outside of quotes. -/
def plain (s : CodeText) : List Part := s.map fun c => .char c false

inductive Token where
  | word (parts : List Part)
  | newline
  | semicolon
  | orElse
  | redirect (fd : CodeText) (append : Bool)

/-- Whether a word is exactly the text, outside of quotes. -/
def isPlain : CodeText → List Part → Bool
  | [], [] => true
  | c :: s, .char d false :: parts => c == d && isPlain s parts
  | _, _ => false

/-- The words that end a list of commands. -/
def closers : List CodeText := [lit "then", lit "else", lit "fi", lit "do", lit "done"]

def isCloser (parts : List Part) : Bool := closers.any fun w => isPlain w parts

/-- The other words that cannot begin a simple command here. -/
def reserved : List CodeText :=
  [lit "elif", lit "while", lit "until", lit "case", lit "esac", lit "in", lit "\x7b", lit "\x7d",
    lit "!", lit "[[", lit "function", lit "select", lit "time", lit "coproc"]

/-- The characters that have a meaning of their own in a word outside of quotes: those of a pattern,
of a home directory and of alternatives. -/
def isSpecial (c : ℕ) : Bool := decide (c ∈ lit "*?[]~\x7b\x7d")

/-- Whether a part adds to the one field of its word. -/
def Part.isWhole : Part → Bool
  | .char c quoted => quoted || !isSpecial c
  | .param _ quoted => quoted
  | .arith _ _ => true
  | .command _ quoted => quoted

/-- A word of a simple command; the command `[` is no pattern. -/
def wordItem (parts : List Part) : Option Item :=
  if isPlain (lit "[") parts ∨ isPlain (lit "]") parts ∨ parts.all Part.isWhole then
    some (.word parts)
  else
    match parts with
    | [.param name false] => some (.fields (.param name false))
    | [.command body false] => some (.fields (.command body false))
    | _ => none

/-- The name and the value of a word that is an assignment. -/
def assignmentFrom (name : CodeText) : List Part → Option (CodeText × List Part)
  | .char c false :: parts =>
    if c = equals then if name = [] then none else some (name, parts)
    else if isNameStart c || (isDigit c && !name.isEmpty) then
      assignmentFrom (name ++ [c]) parts
    else none
  | _ => none

def assignment (parts : List Part) : Option (CodeText × List Part) := assignmentFrom [] parts

/-- The words and redirections up to the end of a simple command. -/
def parseItems : List Token → Option (List Item × List Token)
  | .word parts :: ts =>
    (wordItem parts).bind fun item =>
      (parseItems ts).map fun (items, ts) => (item :: items, ts)
  | .redirect fd append :: .word target :: ts =>
    if target.all Part.isWhole then
      (parseItems ts).map fun (items, ts) => (.redirect fd append target :: items, ts)
    else none
  | .redirect _ _ :: _ => none
  | ts => some ([], ts)

/-- The tokens behind a word. -/
def expect (w : CodeText) : List Token → Option (List Token)
  | .word parts :: ts => if isPlain w parts then some ts else none
  | _ => none

/-- The characters of a word that is a name. -/
def nameOf : List Part → Option CodeText
  | [] => some []
  | .char c false :: parts => if isNameChar c then (nameOf parts).map (c :: ·) else none
  | _ => none

/-- The name of a loop's variable, and what comes behind it. -/
def loopName : List Token → Option (CodeText × List Token)
  | .word parts :: ts => (nameOf parts).map fun name => (name, ts)
  | _ => none

/-- What follows a command, which ends at a separator or with the list that it is in. -/
def behindCommand : List Token → Option (List Token)
  | [] => some []
  | .newline :: ts | .semicolon :: ts => some ts
  | .word parts :: ts => if isCloser parts then some (.word parts :: ts) else none
  | _ => none

def Token.isNewline : Token → Bool
  | .newline => true
  | _ => false

def Item.isRedirect : Item → Bool
  | .redirect _ _ _ => true
  | _ => false

/-- A list that is not empty, as the compound commands need it. -/
def nonempty (r : List Command × List Token) : Option (List Command × List Token) :=
  if r.1.isEmpty then none else some r

mutual

/-- The commands of a list, and what comes behind it. -/
def parseList : ℕ → List Token → Option (List Command × List Token)
  | 0, _ => none
  | _ + 1, [] => some ([], [])
  | fuel + 1, .newline :: ts => parseList fuel ts
  | fuel + 1, .word parts :: ts =>
    if isCloser parts then some ([], .word parts :: ts)
    else do
      let (command, ts) ← parseCommand fuel (.word parts :: ts)
      let (command, ts) ← parseOthers fuel command ts
      let (commands, ts) ← parseList fuel (← behindCommand ts)
      return (command :: commands, ts)
  | _ + 1, _ => none

/-- The commands behind `||`. -/
def parseOthers : ℕ → Command → List Token → Option (Command × List Token)
  | fuel + 1, left, .orElse :: ts => do
    let (right, ts) ← parseCommand fuel ts
    parseOthers fuel (.orElse left right) ts
  | 0, _, .orElse :: _ => none
  | _, left, ts => some (left, ts)

def parseCommand : ℕ → List Token → Option (Command × List Token)
  | fuel + 1, .word parts :: ts =>
    if isPlain (lit "if") parts then parseIf fuel ts
    else if isPlain (lit "for") parts then parseFor fuel ts
    else if reserved.any fun w => isPlain w parts then none
    else
      match assignment parts with
      | some (name, value) => (behindCommand ts).map fun _ => (.assign name value, ts)
      | none => (parseItems (.word parts :: ts)).map fun r => (.simple r.1, r.2)
  | _, _ => none

/-- What stands behind `if`. -/
def parseIf : ℕ → List Token → Option (Command × List Token)
  | 0, _ => none
  | fuel + 1, ts => do
    let (test, ts) ← (parseList fuel ts).bind nonempty
    let (body, ts) ← (parseList fuel (← expect (lit "then") ts)).bind nonempty
    match expect (lit "fi") ts with
    | some ts => return (.ifThen test body [], ts)
    | none => do
      let (other, ts) ← (parseList fuel (← expect (lit "else") ts)).bind nonempty
      return (.ifThen test body other, ← expect (lit "fi") ts)

/-- What stands behind `for`. -/
def parseFor : ℕ → List Token → Option (Command × List Token)
  | 0, _ => none
  | fuel + 1, ts => do
    let (name, ts) ← loopName ts
    let (words, ts) ← parseItems (← expect (lit "in") ts)
    let ts := (← behindCommand ts).dropWhile Token.isNewline
    let (body, ts) ← (parseList fuel (← expect (lit "do") ts)).bind nonempty
    if words.any Item.isRedirect then none
    else return (.forIn name words body, ← expect (lit "done") ts)

end

/-- The commands of a script. -/
def parseTokens (ts : List Token) : Option Script :=
  match parseList (2 * ts.length + 2) ts with
  | some (commands, []) => some commands
  | _ => none

/-! ## More fuel -/

/-- What is found stays found. -/
def Grows {α : Type} (x y : Option α) : Prop := ∀ a, x = some a → y = some a

lemma Grows.refl {α : Type} (x : Option α) : Grows x x := fun _ h => h

lemma Grows.bind {α β : Type} {x y : Option α} {f g : α → Option β} (hxy : Grows x y)
    (hfg : ∀ a, Grows (f a) (g a)) : Grows (x.bind f) (y.bind g) := by
  intro b hb
  obtain ⟨a, ha, hb⟩ := Option.bind_eq_some_iff.mp hb
  rw [hxy a ha]
  exact hfg a b hb

lemma Grows.bindFrom {α β : Type} (x : Option α) {f g : α → Option β}
    (hfg : ∀ a, Grows (f a) (g a)) : Grows (x.bind f) (x.bind g) := (Grows.refl x).bind hfg

/-- What more fuel leaves as it is. -/
structure Monotone (n : ℕ) : Prop where
  list : ∀ ts, Grows (parseList n ts) (parseList (n + 1) ts)
  others : ∀ c ts, Grows (parseOthers n c ts) (parseOthers (n + 1) c ts)
  command : ∀ ts, Grows (parseCommand n ts) (parseCommand (n + 1) ts)
  conditional : ∀ ts, Grows (parseIf n ts) (parseIf (n + 1) ts)
  loop : ∀ ts, Grows (parseFor n ts) (parseFor (n + 1) ts)

lemma parse_zero : Monotone 0 where
  list _ _ h := nomatch h
  others c ts a h := by
    rw [← h]
    cases ts with
    | nil => rfl
    | cons t ts =>
      cases t with
      | orElse => exact nomatch h
      | _ => rfl
  command _ _ h := nomatch h
  conditional _ _ h := nomatch h
  loop _ _ h := nomatch h

/-- More fuel does not change what is read. -/
theorem parse_succ (n : ℕ) : Monotone n := by
  induction n with
  | zero => exact parse_zero
  | succ n ih =>
    constructor
    case list =>
      rintro (_ | ⟨t, ts⟩)
      · exact Grows.refl _
      · cases t with
        | newline => exact ih.list ts
        | word parts =>
          rw [parseList, parseList]
          split_ifs
          · exact Grows.refl _
          · exact (ih.command _).bind fun a => (ih.others _ _).bind fun b =>
              Grows.bindFrom _ fun ts => (ih.list ts).bind fun c => Grows.refl _
        | _ => exact Grows.refl _
    case others =>
      rintro c (_ | ⟨t, ts⟩)
      · exact Grows.refl _
      · cases t with
        | orElse => exact (ih.command ts).bind fun a => ih.others _ _
        | _ => exact Grows.refl _
    case command =>
      rintro (_ | ⟨t, ts⟩)
      · exact Grows.refl _
      · cases t with
        | word parts =>
          rw [parseCommand, parseCommand]
          split_ifs
          · exact ih.conditional ts
          · exact ih.loop ts
          · exact Grows.refl _
          · exact Grows.refl _
        | _ => exact Grows.refl _
    case conditional =>
      intro ts
      refine ((ih.list ts).bind fun a => Grows.refl _).bind fun a => Grows.bindFrom _ fun ts =>
        ((ih.list ts).bind fun b => Grows.refl _).bind fun b => ?_
      dsimp only
      cases expect (lit "fi") b.2 with
      | some ts => exact Grows.refl _
      | none =>
        exact Grows.bindFrom _ fun ts => ((ih.list ts).bind fun c => Grows.refl _).bind fun c =>
          Grows.refl _
    case loop =>
      intro ts
      exact Grows.bindFrom _ fun a => Grows.bindFrom _ fun ts => Grows.bindFrom _ fun words =>
        Grows.bindFrom _ fun ts => Grows.bindFrom _ fun ts =>
          ((ih.list ts).bind fun b => Grows.refl _).bind fun b => Grows.refl _

/-- A list that is read is read with more fuel. -/
lemma parseList_mono {n m : ℕ} (hnm : n ≤ m) {ts : List Token} {r : List Command × List Token}
    (h : parseList n ts = some r) : parseList m ts = some r := by
  induction m, hnm using Nat.le_induction with
  | base => exact h
  | succ m _ ih => exact (parse_succ m).list ts r ih

/-! ## Assignments -/

lemma isPlain_eq_true {w : CodeText} {parts : List Part} (h : isPlain w parts = true) :
    parts = plain w := by
  induction w, parts using isPlain.induct with
  | case1 => rfl
  | case2 c s d parts ih =>
    rw [isPlain, Bool.and_eq_true, beq_iff_eq] at h
    rw [ih h.2, h.1]
    rfl
  | case3 w parts hnil hcons =>
    rw [isPlain] at h
    · exact absurd h (by simp)
    · exact hnil
    · exact hcons

/-- A name of a variable. -/
def isName (name : CodeText) : Bool := name.head?.any isNameStart && name.all isNameChar

/-- The word that assigns a value. -/
def assignWord (name : CodeText) (value : List Part) : List Part :=
  plain name ++ .char equals false :: value

lemma isNameChar_equals : isNameChar equals = false := by decide

lemma assignmentFrom_append {before name : CodeText} (hname : name.all isNameChar = true)
    (hbefore : before ≠ []) (value : List Part) :
    assignmentFrom before (plain name ++ .char equals false :: value) =
      some (before ++ name, value) := by
  induction name generalizing before with
  | nil =>
    rw [show plain [] ++ Part.char equals false :: value = .char equals false :: value from rfl,
      assignmentFrom, if_pos rfl, if_neg hbefore, List.append_nil]
  | cons c name ih =>
    rw [List.all_cons, Bool.and_eq_true] at hname
    have hc : c ≠ equals := fun h => absurd hname.1 (by rw [h, isNameChar_equals]; simp)
    have hstart : (isNameStart c || (isDigit c && !before.isEmpty)) = true := by
      have hempty : before.isEmpty = false := by simp [hbefore]
      rw [hempty, Bool.not_false, Bool.and_true]
      exact hname.1
    rw [show plain (c :: name) = .char c false :: plain name from rfl, List.cons_append,
      assignmentFrom, if_neg hc, if_pos hstart, ih hname.2 (by simp), List.append_assoc,
      List.singleton_append]

lemma assignment_assignWord {name : CodeText} (hname : isName name = true) (value : List Part) :
    assignment (assignWord name value) = some (name, value) := by
  rw [isName, Bool.and_eq_true] at hname
  cases name with
  | nil => exact absurd hname.1 (by simp)
  | cons c name =>
    have hall := hname.2
    rw [List.all_cons, Bool.and_eq_true] at hall
    have hc : c ≠ equals := fun h => absurd hall.1 (by rw [h, isNameChar_equals]; simp)
    have hstart : (isNameStart c || (isDigit c && !([] : CodeText).isEmpty)) = true := by
      have : isNameStart c = true := by simpa using hname.1
      simp [this]
    rw [assignment, assignWord, show plain (c :: name) = .char c false :: plain name from rfl,
      List.cons_append, assignmentFrom, if_neg hc, if_pos hstart]
    exact assignmentFrom_append hall.2 (by simp) value

/-- The word of an assignment is none of the words of the language. -/
lemma isPlain_assignWord {w : CodeText} (hw : equals ∉ w) (name : CodeText) (value : List Part) :
    isPlain w (assignWord name value) = false := by
  rw [← Bool.not_eq_true]
  intro h
  have hmem : Part.char equals false ∈ plain w := by
    rw [← isPlain_eq_true h, assignWord]
    simp
  obtain ⟨c, hc, heq⟩ := List.mem_map.mp hmem
  rw [Part.char.injEq] at heq
  exact hw (heq.1 ▸ hc)

/-- **An assignment on a line of its own is one command**, whatever parts its value has. -/
lemma parseList_assign {name : CodeText} (hname : isName name = true) (value : List Part)
    (n : ℕ) (ts : List Token) :
    parseList (n + 2) (.word (assignWord name value) :: .newline :: ts) =
      (parseList (n + 1) ts).map fun r => (.assign name value :: r.1, r.2) := by
  have hplain : ∀ ws : List CodeText, (∀ w ∈ ws, equals ∉ w) →
      (ws.any fun w => isPlain w (assignWord name value)) = false := by
    intro ws hws
    rw [List.any_eq_false]
    exact fun w hw => by simp [isPlain_assignWord (hws w hw)]
  have hcommand : parseCommand (n + 1) (.word (assignWord name value) :: .newline :: ts) =
      some (.assign name value, .newline :: ts) := by
    rw [parseCommand, isPlain_assignWord (by decide), isPlain_assignWord (by decide),
      hplain reserved (by decide), assignment_assignWord hname]
    rfl
  rw [parseList, isCloser, hplain closers (by decide), hcommand]
  show (parseList (n + 1) ts).bind (fun r => some (Command.assign name value :: r.1, r.2)) = _
  cases parseList (n + 1) ts <;> rfl

end Habeny.Lib.Shell
