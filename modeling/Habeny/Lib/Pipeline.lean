import Habeny.Lib.ShellReader
import Habeny.Lib.ShellRun

/-!
# Pipelines of a shell script

Scripts in which every line is a pipeline: simple commands between bars, each of which reads what
the one before it wrote.  A bar ends a command where it stands outside of quotes and substitutions.
`readScript` gives nothing for a script of another form.

The commands of a line run one after the other here, each in a copy of the shell.
-/

namespace Habeny.Lib.Shell

open CodeText

/-- The simple commands of a line. -/
abbrev Pipeline := List (List Item)

/-! ## Reading -/

/-- The items of the one simple command that tokens make up. -/
def simpleOf (ts : List Token) : Option (List Item) :=
  match parseTokens ts with
  | some [.simple items] => some items
  | _ => none

/-- Whether the reader is outside of quotes and substitutions. -/
def Reader.atTop (r : Reader) : Bool :=
  match r.mode, r.inner with
  | .outside, [] => true
  | _, _ => false

/-- The command that is being read, and those before it in its line. -/
structure LineReader where
  reader : Reader
  stages : Pipeline

namespace LineReader

def start : LineReader := { reader := .start, stages := [] }

variable (r : LineReader)

/-- A command ends. -/
def endStage : Option LineReader :=
  (r.reader.finish.bind simpleOf).map fun items =>
    { reader := .start, stages := r.stages ++ [items] }

/-- The next character. -/
def step (c : ℕ) : Option LineReader :=
  if c = bar ∧ r.reader.atTop then r.endStage
  else (r.reader.step c).map fun reader => { r with reader := reader }

def run (text : CodeText) : Option LineReader := text.foldlM step r

lemma run_cons (c : ℕ) (text : CodeText) : r.run (c :: text) = (r.step c).bind (·.run text) := rfl

lemma run_append (a b : CodeText) : r.run (a ++ b) = (r.run a).bind (·.run b) :=
  List.foldlM_append

/-- Without a bar a text is read as one of a command. -/
lemma run_of_no_bar {text : CodeText} (h : bar ∉ text) :
    r.run text = (r.reader.run text).map fun reader => { r with reader := reader } := by
  induction text generalizing r with
  | nil => rfl
  | cons c text ih =>
    have hc : ¬ (c = bar ∧ r.reader.atTop = true) := fun hbar => h (by simp [hbar.1])
    rw [run_cons, Reader.run_cons, step, if_neg hc]
    cases r.reader.step c with
    | none => rfl
    | some reader => exact ih _ fun hmem => h (List.mem_cons_of_mem c hmem)

end LineReader

/-- The commands of a line. -/
def readPipeline (line : CodeText) : Option Pipeline :=
  ((LineReader.start.run line).bind LineReader.endStage).map LineReader.stages

/-- The pipelines of a script, of which each ends with its line. -/
def readScript (text : CodeText) : Option (List Pipeline) :=
  ((text.splitOn newline).filter fun line => decide (line ≠ [])).mapM readPipeline

/-- The lines of a script are read one by one. -/
lemma readScript_lines {lines : List CodeText} (h : ∀ line ∈ lines, newline ∉ line)
    (hne : ∀ line ∈ lines, line ≠ []) :
    readScript (lines.flatMap (· ++ [newline])) = lines.mapM readPipeline := by
  have hsplit : (lines.flatMap (· ++ [newline])).splitOn newline = lines ++ [[]] := by
    clear hne
    induction lines with
    | nil => rfl
    | cons line lines ih =>
      rw [List.flatMap_cons, List.append_assoc, List.singleton_append,
        List.splitOn_append_cons_self_of_not_mem (h line List.mem_cons_self),
        ih fun l hl => h l (List.mem_cons_of_mem line hl), List.cons_append]
  have hfilter : (lines ++ [[]]).filter (fun line => decide (line ≠ [])) = lines := by
    rw [List.filter_append, List.filter_eq_self.mpr fun line hline => decide_eq_true (hne line hline)]
    exact List.append_nil lines
  rw [readScript, hsplit, hfilter]

/-- A line with one command. -/
lemma readPipeline_single {line : CodeText} {ts : List Token} {items : List Item}
    (hbar : bar ∉ line) (hline : tokens line = some ts) (hitems : simpleOf ts = some items) :
    readPipeline line = some [items] := by
  obtain ⟨reader, hreader, hts⟩ := Option.bind_eq_some_iff.mp hline
  rw [readPipeline, LineReader.run_of_no_bar _ hbar, show LineReader.start.reader = .start from rfl,
    hreader]
  simp [LineReader.endStage, LineReader.start, hts, hitems]

/-- A line with two commands. -/
lemma readPipeline_pair {left right : CodeText} {reader : Reader} {ts ts' : List Token}
    {items items' : List Item} (hleft : bar ∉ left) (hright : bar ∉ right)
    (hreader : Reader.start.run left = some reader) (htop : reader.atTop = true)
    (hts : reader.finish = some ts) (hts' : tokens right = some ts')
    (hitems : simpleOf ts = some items) (hitems' : simpleOf ts' = some items') :
    readPipeline (left ++ bar :: right) = some [items, items'] := by
  obtain ⟨reader', hreader', hfinish⟩ := Option.bind_eq_some_iff.mp hts'
  have hfirst : LineReader.start.run left = some { reader := reader, stages := [] } := by
    rw [LineReader.run_of_no_bar _ hleft, show LineReader.start.reader = .start from rfl, hreader]
    rfl
  have hbar : ({ reader := reader, stages := [] } : LineReader).step bar =
      some { reader := .start, stages := [items] } := by
    rw [LineReader.step, if_pos ⟨rfl, htop⟩]
    simp [LineReader.endStage, hts, hitems]
  rw [readPipeline, LineReader.run_append, hfirst, Option.bind_some, LineReader.run_cons, hbar,
    Option.bind_some, LineReader.run_of_no_bar _ hright, hreader']
  simp [LineReader.endStage, hfinish, hitems']

/-! ## Simple commands -/

lemma wordItem_of_whole {parts : List Part} (h : parts.all Part.isWhole = true) :
    wordItem parts = some (.word parts) := if_pos (.inr (.inr h))

/-- Whether a word can be the program of a simple command. -/
def isProgram (parts : List Part) : Bool :=
  !isCloser parts && !isPlain (lit "if") parts && !isPlain (lit "for") parts &&
    !reserved.any (fun w => isPlain w parts) && (assignment parts).isNone

/-- Words and redirections behind a program are one simple command. -/
lemma parseTokens_simple {program : List Part} {ts : List Token} {items : List Item}
    (hprogram : isProgram program = true)
    (hitems : parseItems (.word program :: ts) = some (items, [])) :
    parseTokens (.word program :: ts) = some [.simple items] := by
  simp only [isProgram, Bool.and_eq_true, Bool.not_eq_true', Option.isNone_iff_eq_none] at hprogram
  obtain ⟨⟨⟨⟨hcloser, hif⟩, hfor⟩, hreserved⟩, hassign⟩ := hprogram
  have hcommand : ∀ n, parseCommand (n + 1) (.word program :: ts) = some (.simple items, []) := by
    intro n
    rw [parseCommand, hif, hfor, hreserved, hassign, hitems]
    rfl
  have hlist : parseList (2 * (ts.length + 1) + 2) (.word program :: ts) =
      some ([.simple items], []) := by
    rw [show 2 * (ts.length + 1) + 2 = (2 * ts.length + 2) + 1 + 1 by omega, parseList, hcloser,
      hcommand]
    rfl
  rw [parseTokens, List.length_cons, hlist]

lemma simpleOf_eq {program : List Part} {ts : List Token} {items : List Item}
    (hprogram : isProgram program = true)
    (hitems : parseItems (.word program :: ts) = some (items, [])) :
    simpleOf (.word program :: ts) = some items := by
  rw [simpleOf, parseTokens_simple hprogram hitems]

/-- Words that each add to one field are the items of a simple command. -/
lemma parseItems_word {parts : List Part} (h : parts.all Part.isWhole = true) (ts : List Token) :
    parseItems (.word parts :: ts) =
      (parseItems ts).map fun r => (.word parts :: r.1, r.2) := by
  rw [parseItems, wordItem_of_whole h]
  rfl

lemma parseItems_redirect {parts : List Part} (h : parts.all Part.isWhole = true) (fd : CodeText)
    (append : Bool) (ts : List Token) :
    parseItems (.redirect fd append :: .word parts :: ts) =
      (parseItems ts).map fun r => (.redirect fd append parts :: r.1, r.2) := by
  rw [parseItems, if_pos h]

/-! ## Running -/

/-- A host whose commands have something to read. -/
structure PipeHost (σ : Type) extends Host σ where
  feed : CodeText → σ → σ

variable {σ : Type} (h : PipeHost σ)

/-- A command of a pipeline: what it writes, and the state behind it. -/
def runStage (items : List Item) (input : CodeText) (s : State σ) : CodeText × State σ :=
  let inner := runCommand h.toHost (.simple items)
    { s with world := h.feed input s.world, output := [] }
  (inner.output,
    { s with world := inner.world, status := inner.status, calls := inner.calls })

/-- The commands of a line, each with what the one before it wrote. -/
def runPipeline : Pipeline → CodeText → State σ → State σ
  | [], output, s => { s with output := s.output ++ output }
  | items :: stages, input, s =>
    let first := runStage h items input s
    runPipeline stages first.1 first.2

/-- The lines of a script. -/
def runLines (lines : List Pipeline) (s : State σ) : State σ :=
  lines.foldl (fun s line => runPipeline h line [] s) s

variable (h' : Host σ)

@[simp] lemma literal_plain (text : CodeText) : literal (plain text) = some text := by
  induction text with
  | nil => rfl
  | cons c text ih =>
    show (literal (plain text)).map (c :: ·) = _
    rw [ih]
    rfl

@[simp] lemma literal_quoted (text : CodeText) : literal (quoted text) = some text := by
  induction text with
  | nil => rfl
  | cons c text ih =>
    show (literal (quoted text)).map (c :: ·) = _
    rw [ih]
    rfl

/-- Words that are written out are themselves. -/
lemma expandWords_words (words : List (List Part)) {texts : List CodeText}
    (hwords : words.map literal = texts.map some) (items : List Item) (s : State σ) :
    expandWords h' (words.map .word ++ items) s =
      (texts ++ (expandWords h' items s).1, (expandWords h' items s).2) := by
  induction words generalizing texts with
  | nil =>
    obtain rfl : texts = [] := by simpa using hwords.symm
    rfl
  | cons word words ih =>
    cases texts with
    | nil => simp at hwords
    | cons text texts =>
      rw [List.map_cons, List.map_cons, List.cons.injEq] at hwords
      rw [List.map_cons, List.cons_append, expandWords, expandParts_literal hwords.1, ih hwords.2]
      rfl

/-- Words open no files. -/
lemma redirectAll_words (words : List (List Part)) (items : List Item) (o : Outlet σ) :
    redirectAll h' (words.map .word ++ items) o = redirectAll h' items o := by
  induction words with
  | nil => rfl
  | cons word words ih =>
    rw [List.map_cons, List.cons_append, redirectAll, ih]

/-- A command whose words are written out. -/
lemma runCommand_words (words : List (List Part)) {texts : List CodeText}
    (hwords : words.map literal = texts.map some) (s : State σ) :
    runCommand h' (.simple (words.map .word)) s =
      callWith h' texts { file := none, failed := false, state := s } := by
  have hexpand := expandWords_words h' words hwords [] s
  have hopen := redirectAll_words h' words [] { file := none, failed := false, state := s }
  rw [List.append_nil] at hexpand hopen
  rw [runCommand, hexpand]
  show callWith h' (texts ++ []) (redirectAll h' (words.map .word)
    { file := none, failed := false, state := s }) = _
  rw [hopen, List.append_nil]
  rfl

/-- A command whose output goes to a file. -/
lemma runCommand_redirect (words : List (List Part)) {texts : List CodeText}
    (hwords : words.map literal = texts.map some) (append : Bool) {target : List Part}
    {file : CodeText} (htarget : literal target = some file) (s : State σ) :
    runCommand h' (.simple (words.map .word ++ [.redirect [] append target])) s =
      callWith h' texts
        (openWith h' [] append file { file := none, failed := false, state := s }) := by
  rw [runCommand, expandWords_words h' words hwords, redirectAll_words]
  show callWith h' (texts ++ []) (redirectAll h' [.redirect [] append target]
    { file := none, failed := false, state := s }) = _
  rw [redirectAll, expandParts_literal htarget, List.append_nil]
  rfl

/-- A command whose file can be opened writes to it. -/
lemma callWith_opened {argv : List CodeText} {append : Bool} {file : CodeText} {s : State σ} {w : σ}
    (hopen : h'.openFile append file s.world = some w) :
    callWith h' argv (openWith h' [] append file { file := none, failed := false, state := s }) =
      { s with
        status := (h'.call argv w).status, calls := s.calls ++ [argv],
        world := h'.append file (h'.call argv w).output (h'.call argv w).world } := by
  simp [openWith, hopen, callWith]

/-- A command whose file cannot be opened is not run. -/
lemma callWith_not_opened {argv : List CodeText} {append : Bool} {file : CodeText} {s : State σ}
    (hopen : h'.openFile append file s.world = none) :
    callWith h' argv (openWith h' [] append file { file := none, failed := false, state := s }) =
      { s with status := 1 } := by
  simp [openWith, hopen, callWith]

end Habeny.Lib.Shell
