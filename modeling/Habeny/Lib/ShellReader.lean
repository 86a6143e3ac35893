import Habeny.Lib.Shell

/-!
# Reading a shell script

How a POSIX shell makes tokens of the characters of a script: the quotes, the backslash, comments,
operators and expansions.  The reader takes one character after the other, so what it makes of a
text does not depend on what comes behind it (`Reader.run_append`).

Between single quotes every character but the quote stands for itself.  A text in which each quote
is written as `quoteEscape` is therefore read as the characters it had, wherever it stands outside
of quotes, and the reader is outside of quotes behind it (`run_singleQuoted`).
-/

namespace Habeny.Lib.Shell

open CodeText

/-- What the next character is read as. -/
inductive Mode where
  | outside
  | escape
  | single
  | double
  | doubleEscape
  /-- behind a dollar -/
  | dollar (quoted : Bool)
  | name (name : CodeText) (quoted : Bool)
  /-- behind a dollar and a parenthesis -/
  | paren (quoted : Bool)
  | arith (expr : CodeText) (quoted : Bool)
  | arithEnd (expr : CodeText) (quoted : Bool)
  | comment
  | bar
  | redirect (fd : CodeText)

/-- What a character means outside of quotes. -/
inductive Role where
  | blank | newline | singleQuote | doubleQuote | backslash | dollar | pound | semicolon | bar
  | greater | closing
  /-- what begins a construct that is not read -/
  | unread
  | ordinary
  deriving DecidableEq

def roles : List (ℕ × Role) :=
  [(blank, .blank), (tab, .blank), (newline, .newline), (singleQuote, .singleQuote),
    (doubleQuote, .doubleQuote), (backslash, .backslash), (dollar, .dollar), (pound, .pound),
    (semicolon, .semicolon), (bar, .bar), (greater, .greater), (closing, .closing),
    (opening, .unread), (backquote, .unread), (ampersand, .unread), (less, .unread)]

def roleOf (c : ℕ) : Role := (roles.lookup c).getD .ordinary

/-- A command substitution that is being read: its tokens, and the word that it is in. -/
structure Substitution where
  tokens : List Token
  word : Option (List Part)
  quoted : Bool

structure Reader where
  mode : Mode
  /-- the word that is being read -/
  word : Option (List Part)
  /-- the tokens of the script -/
  done : List Token
  /-- the substitutions that have not ended, the innermost first -/
  inner : List Substitution

/-- A single quote, in a text between single quotes: the quotes end, the quote stands between
double quotes, and the quotes begin again. -/
def quoteEscape : CodeText := lit "'\"'\"'"

/-- Write every single quote so. -/
def escapeQuotes (s : CodeText) : CodeText :=
  s.flatMap fun c => if c = singleQuote then quoteEscape else [c]

namespace Reader

def start : Reader := { mode := .outside, word := none, done := [], inner := [] }

variable (r : Reader)

/-- Add a part to the word, which may begin with it. -/
def add (p : Part) : Reader := { r with word := some (r.word.getD [] ++ [p]) }

/-- A quote begins a word even if nothing stands in it. -/
def beginWord : Reader := { r with word := some (r.word.getD []) }

/-- Add a token to the innermost substitution, or else to the script. -/
def push (t : Token) : Reader :=
  match r.inner with
  | [] => { r with done := r.done ++ [t] }
  | s :: rest => { r with inner := { s with tokens := s.tokens ++ [t] } :: rest }

def endWord : Reader :=
  match r.word with
  | none => r
  | some parts => { r with word := none }.push (.word parts)

/-- The mode that a part ends in. -/
def base (quoted : Bool) : Mode := if quoted then .double else .outside

/-- The digits that a redirection may follow. -/
def digitsOf : List Part → Option CodeText
  | [] => some []
  | .char c false :: parts => if isDigit c then (digitsOf parts).map (c :: ·) else none
  | _ => none

/-- A character outside of quotes. -/
def takeOutside (c : ℕ) : Option Reader :=
  match roleOf c with
  | .blank => some { r.endWord with mode := .outside }
  | .newline => some { r.endWord.push .newline with mode := .outside }
  | .singleQuote => some { r.beginWord with mode := .single }
  | .doubleQuote => some { r.beginWord with mode := .double }
  | .backslash => some { r with mode := .escape }
  | .dollar => some { r with mode := .dollar false }
  | .pound =>
    -- a comment begins only where a word could begin
    if r.word.isNone then some { r with mode := .comment }
    else some { r.add (.char c false) with mode := .outside }
  | .semicolon => some { r.endWord.push .semicolon with mode := .outside }
  | .bar => some { r.endWord with mode := .bar }
  | .greater =>
    match r.word.bind digitsOf with
    | some (d :: fd) => some { r with word := none, mode := .redirect (d :: fd) }
    | _ => some { r.endWord with mode := .redirect [] }
  | .closing =>
    match r.endWord.inner with
    | [] => none
    | s :: rest => (parseTokens s.tokens).map fun body =>
      { r with mode := base s.quoted, inner := rest,
               word := some (s.word.getD [] ++ [.command body s.quoted]) }
  | .unread => none
  | .ordinary => some { r.add (.char c false) with mode := .outside }

/-- A character between double quotes. -/
def takeDouble (c : ℕ) : Option Reader :=
  if c = doubleQuote then some { r with mode := .outside }
  else if c = backslash then some { r with mode := .doubleEscape }
  else if c = dollar then some { r with mode := .dollar true }
  else if c = backquote then none
  else some { r.add (.char c true) with mode := .double }

def takeBase (quoted : Bool) (c : ℕ) : Option Reader :=
  if quoted then r.takeDouble c else r.takeOutside c

/-- The next character. -/
def step (c : ℕ) : Option Reader :=
  match r.mode with
  | .outside => r.takeOutside c
  | .escape =>
    -- a newline behind a backslash is left out
    if c = newline then some { r with mode := .outside }
    else some { r.add (.char c true) with mode := .outside }
  | .single =>
    if c = singleQuote then some { r with mode := .outside } else some (r.add (.char c true))
  | .double => r.takeDouble c
  | .doubleEscape =>
    if c = newline then some { r with mode := .double }
    else if c ∈ [dollar, backquote, doubleQuote, backslash] then
      some { r.add (.char c true) with mode := .double }
    else some { (r.add (.char backslash true)).add (.char c true) with mode := .double }
  | .dollar quoted =>
    if c = opening then some { r with mode := .paren quoted }
    else if isNameStart c then some { r with mode := .name [c] quoted }
    else none
  | .name name quoted =>
    if isNameChar c then some { r with mode := .name (name ++ [c]) quoted }
    else (r.add (.param name quoted)).takeBase quoted c
  | .paren quoted =>
    if c = opening then some { r with mode := .arith [] quoted }
    else
      -- the substitution is read outside of quotes, whatever it stands in
      { r with word := none, inner := ⟨[], r.word, quoted⟩ :: r.inner }.takeOutside c
  | .arith expr quoted =>
    if c = closing then some { r with mode := .arithEnd expr quoted }
    else if c ∈ [opening, dollar, backquote, singleQuote, doubleQuote, backslash] then none
    else some { r with mode := .arith (expr ++ [c]) quoted }
  | .arithEnd expr quoted =>
    if c = closing then
      (Arith.parse expr).map fun e => { r.add (.arith e quoted) with mode := base quoted }
    else none
  | .comment =>
    if c = newline then some { r.push .newline with mode := .outside } else some r
  | .bar =>
    -- a single bar begins a pipeline
    if c = bar then some { r.push .orElse with mode := .outside } else none
  | .redirect fd =>
    if c = greater then some { r.push (.redirect fd true) with mode := .outside }
    else { r.push (.redirect fd false) with mode := .outside }.takeOutside c

/-- The characters of a text. -/
def run (text : CodeText) : Option Reader := text.foldlM step r

/-- The tokens, if nothing is left open. -/
def finish : Option (List Token) :=
  match r.mode, r.inner with
  | .outside, [] | .comment, [] => some r.endWord.done
  | _, _ => none

/-! ## What does not depend on what was read before -/

lemma run_cons (c : ℕ) (text : CodeText) : r.run (c :: text) = (r.step c).bind (·.run text) := rfl

/-- The reader takes one character after the other. -/
lemma run_append (a b : CodeText) : r.run (a ++ b) = (r.run a).bind (·.run b) :=
  List.foldlM_append

/-- The reader behind tokens. -/
def after (ts : List Token) : Reader := { r with done := ts ++ r.done }

variable (ts : List Token)

lemma push_after (t : Token) : (r.after ts).push t = (r.push t).after ts := by
  unfold push after
  cases r.inner with
  | nil => simp
  | cons s rest => rfl

lemma endWord_after : (r.after ts).endWord = r.endWord.after ts := by
  unfold endWord
  rw [show (r.after ts).word = r.word from rfl]
  cases r.word with
  | none => rfl
  | some parts => exact push_after { r with word := none } ts (.word parts)

@[simp] lemma after_inner : (r.after ts).inner = r.inner := rfl

@[simp] lemma after_word : (r.after ts).word = r.word := rfl

lemma takeOutside_after (c : ℕ) :
    (r.after ts).takeOutside c = (r.takeOutside c).map (·.after ts) := by
  unfold takeOutside
  rw [endWord_after, after_inner, after_word]
  cases roleOf c with
  | newline => dsimp only; rw [push_after]; rfl
  | semicolon => dsimp only; rw [push_after]; rfl
  | pound => dsimp only; split_ifs <;> rfl
  | greater => dsimp only; split <;> rfl
  | closing =>
    dsimp only
    rw [after_inner]
    cases r.endWord.inner with
    | nil => rfl
    | cons s rest => dsimp only; rw [Option.map_map]; rfl
  | _ => rfl

lemma takeDouble_after (c : ℕ) :
    (r.after ts).takeDouble c = (r.takeDouble c).map (·.after ts) := by
  unfold takeDouble
  split_ifs <;> rfl

lemma takeBase_after (q : Bool) (c : ℕ) :
    (r.after ts).takeBase q c = (r.takeBase q c).map (·.after ts) := by
  unfold takeBase
  split_ifs
  · exact takeDouble_after r ts c
  · exact takeOutside_after r ts c

/-- A step does not depend on the tokens that are done. -/
lemma step_after (c : ℕ) : (r.after ts).step c = (r.step c).map (·.after ts) := by
  unfold step
  rw [show (r.after ts).mode = r.mode from rfl]
  cases r.mode with
  | outside => exact takeOutside_after r ts c
  | escape => dsimp only; split_ifs <;> rfl
  | single => dsimp only; split_ifs <;> rfl
  | double => exact takeDouble_after r ts c
  | doubleEscape => dsimp only; split_ifs <;> rfl
  | dollar q => dsimp only; split_ifs <;> rfl
  | name name q =>
    dsimp only
    split_ifs
    · rfl
    · exact takeBase_after (r.add (.param name q)) ts q c
  | paren q =>
    dsimp only
    split_ifs
    · rfl
    · exact takeOutside_after { r with word := none, inner := ⟨[], r.word, q⟩ :: r.inner } ts c
  | arith expr q => dsimp only; split_ifs <;> rfl
  | arithEnd expr q =>
    dsimp only
    split_ifs
    · rw [Option.map_map]; rfl
    · rfl
  | comment =>
    dsimp only
    split_ifs
    · rw [push_after]; rfl
    · rfl
  | bar =>
    dsimp only
    split_ifs
    · rw [push_after]; rfl
    · rfl
  | redirect fd =>
    dsimp only
    rw [push_after, push_after]
    split_ifs
    · rfl
    · exact takeOutside_after { r.push (.redirect fd false) with mode := .outside } ts c

/-- **What is read does not depend on the tokens that are done.** -/
lemma run_after (text : CodeText) : (r.after ts).run text = (r.run text).map (·.after ts) := by
  induction text generalizing r with
  | nil => rfl
  | cons c text ih =>
    rw [run_cons, run_cons, step_after]
    cases r.step c with
    | none => rfl
    | some r' => exact ih r'

/-! ## Quoted texts -/

/-- Characters of the word that were quoted. -/
def addQuoted (s : CodeText) : Reader := { r with word := some (r.word.getD [] ++ quoted s) }

/-- Between single quotes the text is read as it was. -/
lemma run_escapeQuotes {w : List Part} (hmode : r.mode = .single) (hword : r.word = some w)
    (s rest : CodeText) : r.run (escapeQuotes s ++ rest) = (r.addQuoted s).run rest := by
  induction s generalizing r w with
  | nil =>
    have hnone : r.addQuoted [] = r := by
      obtain ⟨mode, word, done, inner⟩ := r
      obtain rfl := hword
      simp [addQuoted, quoted]
    rw [hnone]
    rfl
  | cons c s ih =>
    have hword' : (r.add (.char c true)).word = some (w ++ [.char c true]) := by
      rw [add, hword]
      rfl
    have hquoted : (r.add (.char c true)).addQuoted s = r.addQuoted (c :: s) := by
      simp [add, addQuoted, quoted]
    rw [escapeQuotes, List.flatMap_cons, List.append_assoc, ← hquoted]
    by_cases hc : c = singleQuote
    · rw [if_pos hc, ← ih (r.add (.char c true)) hmode hword', run_append]
      -- out of the quotes, the quote between double quotes, and into the quotes again
      have hescape : r.run quoteEscape = some (r.add (.char c true)) := by
        obtain ⟨mode, word, done, inner⟩ := r
        obtain rfl := hmode
        obtain rfl := hword
        rw [hc]
        rfl
      rw [hescape]
      rfl
    · rw [if_neg hc, List.singleton_append, run_cons, ← ih (r.add (.char c true)) hmode hword']
      have hstep : r.step c = some (r.add (.char c true)) := by
        rw [step, hmode]
        exact if_neg hc
      rw [hstep]
      rfl

/-- **A text between single quotes, its quotes escaped, is read as that text**, whatever stands in
it and behind it, and outside of quotes the reader is outside of quotes behind it. -/
theorem run_singleQuoted (hmode : r.mode = .outside) (s rest : CodeText) :
    r.run (singleQuote :: (escapeQuotes s ++ singleQuote :: rest)) = (r.addQuoted s).run rest := by
  have hbegin : r.step singleQuote = some { r.beginWord with mode := .single } := by
    rw [step, hmode]
    rfl
  rw [run_cons, hbegin, Option.bind_some,
    run_escapeQuotes { r.beginWord with mode := .single } rfl rfl s, run_cons]
  have hend : (({ r.beginWord with mode := .single } : Reader).addQuoted s).step singleQuote =
      some (r.addQuoted s) := by
    obtain ⟨mode, word, done, inner⟩ := r
    obtain rfl := hmode
    rfl
  rw [hend]
  rfl

/-- The characters of assignments stand for themselves outside of quotes. -/
def isOrdinary (c : ℕ) : Bool := isNameChar c || decide (c = equals)

lemma roleOf_of_isOrdinary {c : ℕ} (hc : isOrdinary c = true) : roleOf c = .ordinary := by
  have hcode : 48 ≤ c ∧ c ≤ 57 ∨ 65 ≤ c ∧ c ≤ 90 ∨ 97 ≤ c ∧ c ≤ 122 ∨ c = 95 ∨ c = 61 := by
    simp only [isOrdinary, isNameChar, isNameStart, isDigit, Bool.or_eq_true,
      decide_eq_true_eq] at hc
    unfold equals at hc
    omega
  have hnone : roles.lookup c = none := by
    rw [List.lookup_eq_none_iff]
    intro e he
    have hother : e.1 ∈ [32, 9, 10, 39, 34, 92, 36, 35, 59, 124, 62, 41, 40, 96, 38, 60] := by
      revert e
      decide
    rw [bne_iff_ne]
    rintro rfl
    simp at hother
    omega
  rw [roleOf, hnone]
  rfl

lemma step_ordinary {c : ℕ} (hmode : r.mode = .outside) (hc : roleOf c = .ordinary) :
    r.step c = some (r.add (.char c false)) := by
  obtain ⟨mode, word, done, inner⟩ := r
  obtain rfl := hmode
  rw [step]
  dsimp only
  rw [takeOutside, hc]
  rfl

/-- Characters without a role are added to the word. -/
lemma run_unquoted (hmode : r.mode = .outside) {s : CodeText} (hne : s ≠ [])
    (hs : ∀ c ∈ s, roleOf c = .ordinary) (rest : CodeText) :
    r.run (s ++ rest) = { r with word := some (r.word.getD [] ++ plain s) }.run rest := by
  induction s generalizing r with
  | nil => exact absurd rfl hne
  | cons c s ih =>
    rw [List.cons_append, run_cons, step_ordinary r hmode (hs c List.mem_cons_self),
      Option.bind_some]
    cases s with
    | nil => rfl
    | cons d s =>
      rw [ih (r.add (.char c false)) hmode (by simp) fun e he => hs e (List.mem_cons_of_mem c he)]
      simp [add, plain]

/-- Characters that stand for themselves are added to the word. -/
lemma run_ordinary (hmode : r.mode = .outside) {s : CodeText} (hne : s ≠ [])
    (hs : ∀ c ∈ s, isOrdinary c = true) (rest : CodeText) :
    r.run (s ++ rest) = { r with word := some (r.word.getD [] ++ plain s) }.run rest :=
  run_unquoted r hmode hne (fun c hc => roleOf_of_isOrdinary (hs c hc)) rest

lemma isOrdinary_of_isName {name : CodeText} (hname : isName name = true) :
    ∀ c ∈ name ++ [equals], isOrdinary c = true := by
  intro c hc
  rw [isName, Bool.and_eq_true, List.all_eq_true] at hname
  rw [List.mem_append, List.mem_singleton] at hc
  obtain hc | rfl := hc
  · rw [isOrdinary, hname.2 c hc, Bool.true_or]
  · decide

/-- The beginning of an assignment is read, up to the equals sign. -/
lemma run_name {name : CodeText} (hname : isName name = true) (rest : CodeText) :
    (start.after ts).run (name ++ equals :: rest) =
      { start.after ts with word := some (plain name ++ [Part.char equals false]) }.run rest := by
  rw [show name ++ equals :: rest = (name ++ [equals]) ++ rest by simp,
    run_ordinary (start.after ts) rfl (by simp) (isOrdinary_of_isName hname) rest]
  simp [start, after, plain]

/-- A line ends. -/
lemma run_endLine (w : List Part) (rest : CodeText) :
    { start.after ts with word := some w }.run (newline :: rest) =
      (start.after (ts ++ [.word w, .newline])).run rest := by
  rw [run_cons]
  simp [step, takeOutside, show roleOf newline = .newline from rfl, endWord, push, after, start]

/-- **A line that assigns a quoted text is one word with that text, and a newline.** -/
lemma run_assignQuoted {name : CodeText} (hname : isName name = true) (value rest : CodeText) :
    (start.after ts).run (name ++ equals :: singleQuote ::
        (escapeQuotes value ++ singleQuote :: newline :: rest)) =
      (start.after (ts ++ [.word (assignWord name (quoted value)), .newline])).run rest := by
  rw [run_name ts hname, run_singleQuoted _ rfl, ← run_endLine]
  simp [addQuoted, assignWord]

/-- A line that assigns a number. -/
lemma run_assignPlain {name value : CodeText} (hname : isName name = true) (hne : value ≠ [])
    (hvalue : ∀ c ∈ value, isOrdinary c = true) (rest : CodeText) :
    (start.after ts).run (name ++ equals :: (value ++ newline :: rest)) =
      (start.after (ts ++ [.word (assignWord name (plain value)), .newline])).run rest := by
  rw [run_name ts hname, run_ordinary _ rfl hne hvalue, ← run_endLine]
  simp [assignWord]

end Reader

/-- The tokens of a text. -/
def tokens (text : CodeText) : Option (List Token) := (Reader.start.run text).bind Reader.finish

/-- The commands of a script. -/
def parse (text : CodeText) : Option Script := (tokens text).bind parseTokens

/-! ## Assignments and what follows them -/

/-- The name of a variable. -/
structure VarName where
  text : CodeText
  isName : isName text = true

/-- An assignment on a line of its own. -/
structure Assignment where
  name : VarName
  value : List Part

def Assignment.tokens (a : Assignment) : List Token :=
  [.word (assignWord a.name.text a.value), .newline]

def Assignment.command (a : Assignment) : Command := .assign a.name.text a.value

lemma parseList_assignments (as : List Assignment) (n : ℕ) (ts : List Token) :
    parseList (as.length + (n + 1)) (as.flatMap Assignment.tokens ++ ts) =
      (parseList (n + 1) ts).map fun r => (as.map Assignment.command ++ r.1, r.2) := by
  induction as with
  | nil => simp
  | cons a as ih =>
    rw [List.flatMap_cons, List.length_cons,
      show as.length + 1 + (n + 1) = as.length + n + 2 by omega, List.append_assoc]
    show parseList (as.length + n + 2) (.word (assignWord a.name.text a.value) :: .newline ::
      (as.flatMap Assignment.tokens ++ ts)) = _
    rw [parseList_assign a.name.isName, show as.length + n + 1 = as.length + (n + 1) by omega, ih,
      Option.map_map]
    rfl

/-- **Assignments before a script are read as such, and the script as it is without them.** -/
theorem parseTokens_assignments (as : List Assignment) {ts : List Token} {script : Script}
    (h : parseTokens ts = some script) :
    parseTokens (.newline :: (as.flatMap Assignment.tokens ++ ts)) =
      some (as.map Assignment.command ++ script) := by
  rw [parseTokens] at h
  split at h
  case h_1 commands hlist =>
    obtain rfl := Option.some.inj h
    have hlength : (as.flatMap Assignment.tokens).length = 2 * as.length := by
      induction as with
      | nil => rfl
      | cons a as ih =>
        rw [List.flatMap_cons, List.length_append, List.length_cons, ih]
        simp only [Assignment.tokens, List.length_cons, List.length_nil]
        omega
    have hfuel : parseList (3 * as.length + 2 * ts.length + 3) ts = some (commands, []) :=
      parseList_mono (by omega) hlist
    rw [parseTokens, List.length_cons, List.length_append, hlength,
      show 2 * (2 * as.length + ts.length + 1) + 2 =
        (as.length + (3 * as.length + 2 * ts.length + 2 + 1)) + 1 by omega]
    rw [show parseList (as.length + (3 * as.length + 2 * ts.length + 2 + 1) + 1)
        (.newline :: (as.flatMap Assignment.tokens ++ ts)) = parseList
          (as.length + (3 * as.length + 2 * ts.length + 2 + 1))
          (as.flatMap Assignment.tokens ++ ts) from rfl, parseList_assignments, hfuel]
    rfl
  case h_2 => exact nomatch h

/-- Each of several lines with a newline. -/
def withNewlines (lines : List CodeText) : CodeText := lines.flatMap fun line => line ++ [newline]

/-- Whether a line is read as an assignment, whatever stands before and behind it. -/
def Assignment.IsReadFrom (a : Assignment) (line : CodeText) : Prop :=
  ∀ (ts : List Token) (rest : CodeText), (Reader.start.after ts).run (line ++ newline :: rest) =
    (Reader.start.after (ts ++ a.tokens)).run rest

lemma finish_after (r : Reader) (ts : List Token) :
    (r.after ts).finish = r.finish.map (ts ++ ·) := by
  unfold Reader.finish
  rw [show (r.after ts).mode = r.mode from rfl, Reader.after_inner, Reader.endWord_after]
  split <;> rfl

lemma run_assignments {lines : List CodeText} {as : List Assignment}
    (h : List.Forall₂ (fun line a => a.IsReadFrom line) lines as) (ts : List Token)
    (rest : CodeText) : (Reader.start.after ts).run (withNewlines lines ++ rest) =
      (Reader.start.after (ts ++ as.flatMap Assignment.tokens)).run rest := by
  induction h generalizing ts with
  | nil => simp [withNewlines]
  | @cons line a lines as hline _ ih =>
    rw [show withNewlines (line :: lines) ++ rest =
        line ++ newline :: (withNewlines lines ++ rest) by simp [withNewlines], hline, ih]
    simp

/-- **A script that begins with assignments is these, and then the rest of it.** -/
theorem parse_assignments {lines : List CodeText} {as : List Assignment}
    (h : List.Forall₂ (fun line a => a.IsReadFrom line) lines as) {text : CodeText}
    {script : Script} (hscript : parse text = some script) :
    parse (newline :: (withNewlines lines ++ text)) =
      some (as.map Assignment.command ++ script) := by
  obtain ⟨ts, hts, hparse⟩ := Option.bind_eq_some_iff.mp hscript
  have htokens : tokens (newline :: (withNewlines lines ++ text)) =
      some (.newline :: (as.flatMap Assignment.tokens ++ ts)) := by
    rw [tokens, Reader.run_cons]
    show ((Reader.start.after [.newline]).run (withNewlines lines ++ text)).bind Reader.finish = _
    obtain ⟨r, hr, hfinish⟩ := Option.bind_eq_some_iff.mp hts
    rw [run_assignments h, Reader.run_after, hr]
    show (r.after _).finish = _
    rw [finish_after, hfinish]
    rfl
  rw [parse, htokens]
  exact parseTokens_assignments as hparse

end Habeny.Lib.Shell
