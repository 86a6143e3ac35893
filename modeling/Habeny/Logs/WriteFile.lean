import Habeny.Lib.Base64
import Habeny.Lib.Pipeline
import Habeny.Lib.Shlex
import Habeny.Lib.Utf8
import Habeny.Logs.ContainerPath

/-!
# Writing a file in a container

The console writes a file with a script that it runs in the container.  The content is in the
script in base64, so nothing of it means anything to the shell, and the path is one that needs no
quotes: the script is read as the same commands whatever the content is, and only these are run.

A path whose last part is empty or a single dot names a directory, which cannot be written to, and
the check of paths accepts it.  Otherwise the file is written where no file is above it and no
directory in its place.
-/

namespace Habeny.Logs

open Habeny.Lib CodeText Shell

/-! ## The script -/

/-- The bytes of a content. -/
def bytesOf (content : Text) : List ℕ := (Utf8.encode content).map UInt8.toNat

/-- `build_write_file_script` -/
def buildWriteFileScript (path : ContainerPath) (content : Text) (append : Bool) : CodeText :=
  let qpath := Shlex.quote path.text
  let encoded := Base64.encode (bytesOf content)
  let operator := if append then lit ">>" else lit ">"
  lit "mkdir -p \"$(dirname -- " ++ qpath ++ lit ")\"" ++ [newline] ++
    (lit "printf '%s' '" ++ encoded ++ lit "' | base64 -d " ++ operator ++ lit " " ++ qpath ++
      [newline]) ++
    (lit "chmod 644 " ++ qpath ++ [newline])

/-! ## How it is read -/

lemma bytesOf_lt (content : Text) : ∀ b ∈ bytesOf content, b < 256 := by
  intro b hb
  obtain ⟨x, -, rfl⟩ := List.mem_map.mp hb
  exact x.toNat_lt

namespace ContainerPath

variable (p : ContainerPath)

lemma text_ne_nil : p.text ≠ [] := List.ne_nil_of_mem p.slash_mem

/-- A path needs no quotes. -/
lemma quote_text : Shlex.quote p.text = p.text := by
  have hsafe : p.text.all Shlex.isSafe = true := by
    rw [List.all_eq_true]
    intro c hc
    have := p.code_cases hc
    rw [Shlex.isSafe, decide_eq_true_eq]
    omega
  rw [Shlex.quote, if_neg p.text_ne_nil, if_pos hsafe]

/-- Its characters have no role. -/
lemma roleOf_text : ∀ c ∈ p.text, roleOf c = .ordinary := by
  intro c hc
  have hcode := p.code_cases hc
  have hnone : roles.lookup c = none := by
    rw [List.lookup_eq_none_iff]
    intro e he
    have hother : e.1 ∈ [32, 9, 10, 39, 34, 92, 36, 35, 59, 124, 62, 41, 40, 96, 38, 60] := by
      revert e
      decide
    rw [bne_iff_ne]
    rintro rfl
    simp at hother
    omega
  rw [roleOf, hnone]
  rfl

/-- They are those of one field. -/
lemma isWhole_text : (plain p.text).all Part.isWhole = true := by
  rw [List.all_eq_true]
  intro part hpart
  obtain ⟨c, hc, rfl⟩ := List.mem_map.mp hpart
  have hcode := p.code_cases hc
  have hspecial : lit "*?[]~\x7b\x7d" = [42, 63, 91, 93, 126, 123, 125] := by decide
  simp only [Part.isWhole, Bool.false_or, isSpecial, hspecial, Bool.not_eq_true',
    decide_eq_false_iff_not, List.mem_cons, List.not_mem_nil, or_false]
  omega

lemma notMem_text {c : ℕ} (hc : c ∈ [newline, bar]) : c ∉ p.text := by
  intro h
  have := p.code_cases h
  rcases List.mem_pair.mp hc with rfl | rfl
  · rw [newline] at this
    omega
  · rw [bar] at this
    omega

end ContainerPath

variable (path : ContainerPath)

/-- The word that a path is read as. -/
def pathWord : List Part := plain path.text

/-- The commands of the script. -/
def dirnameItems : List Item :=
  [.word (plain (lit "dirname")), .word (plain (lit "--")), .word (pathWord path)]

def mkdirItems : List Item :=
  [.word (plain (lit "mkdir")), .word (plain (lit "-p")),
    .word [.command [.simple (dirnameItems path)] true]]

def printfItems (encoded : CodeText) : List Item :=
  [.word (plain (lit "printf")), .word (quoted (lit "%s")), .word (quoted encoded)]

def base64Items (append : Bool) : List Item :=
  [.word (plain (lit "base64")), .word (plain (lit "-d")), .redirect [] append (pathWord path)]

def chmodItems : List Item :=
  [.word (plain (lit "chmod")), .word (plain (lit "644")), .word (pathWord path)]

/-- The script as it is read. -/
def writeFileLines (content : Text) (append : Bool) : List Pipeline :=
  [[mkdirItems path], [printfItems (Base64.encode (bytesOf content)), base64Items path append],
    [chmodItems path]]

/-- A reader outside of quotes, with what it has read of a word. -/
def readerAt (word : Option (List Part)) (done : List Token) (inner : List Substitution) : Reader :=
  { mode := .outside, word := word, done := done, inner := inner }

/-- A path behind a text that ends between words. -/
lemma run_path {front : CodeText} {done : List Token} {inner : List Substitution}
    (hfront : Reader.start.run front = some (readerAt none done inner)) (rest : CodeText) :
    Reader.start.run (front ++ (path.text ++ rest)) =
      (readerAt (some (pathWord path)) done inner).run rest := by
  rw [Reader.run_append, hfront, Option.bind_some,
    Reader.run_unquoted _ rfl path.text_ne_nil path.roleOf_text]
  rfl

/-- A line that ends with a path. -/
lemma tokens_path {front : CodeText} {done : List Token}
    (hfront : Reader.start.run front = some (readerAt none done [])) :
    tokens (front ++ path.text) = some (done ++ [.word (pathWord path)]) := by
  have hrun := run_path path hfront []
  rw [List.append_nil] at hrun
  rw [tokens, hrun]
  rfl

/-- A command of two words and the path. -/
lemma parseItems_pair {first second : List Part} (hfirst : first.all Part.isWhole = true)
    (hsecond : second.all Part.isWhole = true) :
    parseItems [.word first, .word second, .word (pathWord path)] =
      some ([.word first, .word second, .word (pathWord path)], []) := by
  rw [parseItems_word hfirst, parseItems_word hsecond, pathWord, parseItems_word path.isWhole_text]
  rfl

/-- The first line. -/
lemma readPipeline_mkdir :
    readPipeline (lit "mkdir -p \"$(dirname -- " ++ path.text ++ lit ")\"") =
      some [mkdirItems path] := by
  have hdirname : parseTokens [.word (plain (lit "dirname")), .word (plain (lit "--")),
      .word (pathWord path)] = some [.simple (dirnameItems path)] :=
    parseTokens_simple (by rfl) (parseItems_pair path (by rfl) (by rfl))
  have hfront : Reader.start.run (lit "mkdir -p \"$(dirname -- ") =
      some (readerAt none [.word (plain (lit "mkdir")), .word (plain (lit "-p"))]
        [⟨[.word (plain (lit "dirname")), .word (plain (lit "--"))], some [], true⟩]) := by rfl
  have hline : tokens (lit "mkdir -p \"$(dirname -- " ++ path.text ++ lit ")\"") =
      some [.word (plain (lit "mkdir")), .word (plain (lit "-p")),
        .word [.command [.simple (dirnameItems path)] true]] := by
    rw [tokens, List.append_assoc, run_path path hfront,
      show lit ")\"" = [closing, doubleQuote] from rfl, Reader.run_cons]
    -- the parenthesis ends the substitution, whose tokens are read as a command
    show (((parseTokens [.word (plain (lit "dirname")), .word (plain (lit "--")),
      .word (pathWord path)]).map _).bind _).bind _ = _
    rw [hdirname]
    rfl
  refine readPipeline_single ?_ hline (simpleOf_eq (by rfl) (by rfl))
  simp only [List.mem_append, not_or]
  exact ⟨⟨by decide, path.notMem_text (by simp)⟩, by decide⟩

/-- The last line. -/
lemma readPipeline_chmod :
    readPipeline (lit "chmod 644 " ++ path.text) = some [chmodItems path] := by
  have hfront : Reader.start.run (lit "chmod 644 ") =
      some (readerAt none [.word (plain (lit "chmod")), .word (plain (lit "644"))] []) := rfl
  refine readPipeline_single ?_ (tokens_path path hfront)
    (simpleOf_eq (by rfl) (parseItems_pair path (by rfl) (by rfl)))
  simp only [List.mem_append, not_or]
  exact ⟨by decide, path.notMem_text (by simp)⟩

/-- A text without quotes is written between quotes as it is. -/
lemma escapeQuotes_of_notMem {s : CodeText} (h : singleQuote ∉ s) : escapeQuotes s = s := by
  induction s with
  | nil => rfl
  | cons c s ih =>
    have hc : c ≠ singleQuote := fun heq => h (by simp [heq])
    rw [escapeQuotes, List.flatMap_cons, if_neg hc]
    exact congrArg (c :: ·) (ih fun hmem => h (List.mem_cons_of_mem c hmem))

/-- The line between them. -/
lemma readPipeline_write {encoded : CodeText} (hquote : singleQuote ∉ encoded)
    (hbar : bar ∉ encoded) (append : Bool) :
    readPipeline (lit "printf '%s' '" ++ encoded ++ lit "' | base64 -d " ++
      (if append then lit ">>" else lit ">") ++ lit " " ++ path.text) =
      some [printfItems encoded, base64Items path append] := by
  have hleft : Reader.start.run (lit "printf '%s' '" ++ encoded ++ lit "' ") =
      some (readerAt none [.word (plain (lit "printf")), .word (quoted (lit "%s")),
        .word (quoted encoded)] []) := by
    have hfront : Reader.start.run (lit "printf '%s' ") = some (readerAt none
        [.word (plain (lit "printf")), .word (quoted (lit "%s"))] []) := by rfl
    have hsplit : lit "printf '%s' '" ++ encoded ++ lit "' " = lit "printf '%s' " ++
        singleQuote :: (escapeQuotes encoded ++ singleQuote :: [blank]) := by
      rw [escapeQuotes_of_notMem hquote]
      rfl
    rw [hsplit, Reader.run_append, hfront, Option.bind_some, Reader.run_singleQuoted _ rfl]
    rfl
  have hright : tokens (lit " base64 -d " ++ (if append then lit ">>" else lit ">") ++ lit " " ++
      path.text) = some [.word (plain (lit "base64")), .word (plain (lit "-d")),
        .redirect [] append, .word (pathWord path)] := by
    have hfront : Reader.start.run (lit " base64 -d " ++
        (if append then lit ">>" else lit ">") ++ lit " ") = some (readerAt none
        [.word (plain (lit "base64")), .word (plain (lit "-d")), .redirect [] append] []) := by
      cases append with
      | true => rfl
      | false => rfl
    exact tokens_path path hfront
  have hprintf : simpleOf [.word (plain (lit "printf")), .word (quoted (lit "%s")),
      .word (quoted encoded)] = some (printfItems encoded) := by
    have hwhole : (quoted encoded).all Part.isWhole = true := by
      rw [List.all_eq_true]
      intro part hpart
      obtain ⟨c, -, rfl⟩ := List.mem_map.mp hpart
      rfl
    refine simpleOf_eq (by rfl) ?_
    rw [parseItems_word (by rfl), parseItems_word (by rfl), parseItems_word hwhole]
    rfl
  have hbase64 : simpleOf [.word (plain (lit "base64")), .word (plain (lit "-d")),
      .redirect [] append, .word (pathWord path)] = some (base64Items path append) := by
    refine simpleOf_eq (by rfl) ?_
    rw [parseItems_word (by rfl), parseItems_word (by rfl), pathWord,
      parseItems_redirect path.isWhole_text]
    rfl
  have hsplit : lit "printf '%s' '" ++ encoded ++ lit "' | base64 -d " ++
      (if append then lit ">>" else lit ">") ++ lit " " ++ path.text =
        (lit "printf '%s' '" ++ encoded ++ lit "' ") ++ bar :: (lit " base64 -d " ++
          (if append then lit ">>" else lit ">") ++ lit " " ++ path.text) := by
    have hlit : lit "' | base64 -d " = lit "' " ++ bar :: lit " base64 -d " := by rfl
    rw [hlit]
    simp only [List.append_assoc, List.cons_append]
  rw [hsplit]
  refine readPipeline_pair ?_ ?_ hleft rfl rfl hright hprintf hbase64
  · simp only [List.mem_append, not_or]
    exact ⟨⟨by decide, hbar⟩, by decide⟩
  · simp only [List.mem_append, not_or]
    refine ⟨⟨⟨by decide, ?_⟩, by decide⟩, path.notMem_text (by simp)⟩
    cases append with
    | true => decide
    | false => decide

/-- The characters of an encoded text. -/
lemma notMem_encode {bytes : List ℕ} (h : ∀ b ∈ bytes, b < 256) {c : ℕ}
    (hc : c ∈ [newline, bar, singleQuote]) : c ∉ Base64.encode bytes := by
  obtain ⟨letters, pads, hencode, hletters, -⟩ := Base64.encode_eq h
  have hother : c ∉ Base64.alphabet ∧ c ≠ Base64.padding := by
    rw [Base64.alphabet_eq]
    revert c
    decide
  rw [hencode, List.mem_append, not_or]
  exact ⟨fun hmem => hother.1 (hletters c hmem),
    fun hmem => hother.2 (List.eq_of_mem_replicate hmem)⟩

/-- **The script is read as the same commands whatever the content is.** -/
theorem readScript_buildWriteFileScript (content : Text) (append : Bool) :
    readScript (buildWriteFileScript path content append) =
      some (writeFileLines path content append) := by
  have hbytes := bytesOf_lt content
  have hwrite := readPipeline_write path (notMem_encode hbytes (c := singleQuote) (by simp))
    (notMem_encode hbytes (c := bar) (by simp)) append
  have hpath := path.notMem_text (c := newline) (by simp)
  have hencoded := notMem_encode hbytes (c := newline) (by simp)
  have hlines : buildWriteFileScript path content append =
      [lit "mkdir -p \"$(dirname -- " ++ path.text ++ lit ")\"",
        lit "printf '%s' '" ++ Base64.encode (bytesOf content) ++ lit "' | base64 -d " ++
          (if append then lit ">>" else lit ">") ++ lit " " ++ path.text,
        lit "chmod 644 " ++ path.text].flatMap (· ++ [newline]) := by
    rw [buildWriteFileScript, path.quote_text]
    simp only [List.flatMap_cons, List.flatMap_nil, List.append_assoc, List.append_nil]
  rw [hlines, readScript_lines]
  · rw [List.mapM_cons, List.mapM_cons, List.mapM_cons, readPipeline_mkdir, hwrite,
      readPipeline_chmod]
    rfl
  · intro line hline
    have hoperator : newline ∉ (if append then lit ">>" else lit ">") := by
      cases append with
      | true => decide
      | false => decide
    simp only [List.mem_cons, List.not_mem_nil, or_false] at hline
    rcases hline with rfl | rfl | rfl
    · simp only [List.mem_append, not_or]
      exact ⟨⟨by decide, hpath⟩, by decide⟩
    · simp only [List.mem_append, not_or]
      exact ⟨⟨⟨⟨⟨by decide, hencoded⟩, by decide⟩, hoperator⟩, by decide⟩, hpath⟩
    · simp only [List.mem_append, not_or]
      exact ⟨by decide, hpath⟩
  · intro line hline
    simp only [List.mem_cons, List.not_mem_nil, or_false] at hline
    rcases hline with rfl | rfl | rfl
    · exact List.ne_nil_of_mem (a := closing) (by simp [lit, closing])
    · exact List.ne_nil_of_mem (a := blank) (by simp [lit, blank])
    · exact List.ne_nil_of_mem (a := blank) (by simp [lit, blank])

/-! ## The container -/

/-- What a container has: its files, and what the command that runs can read. -/
structure Box where
  tree : FileTree (List ℕ)
  input : List ℕ

namespace Box

variable (w : Box)

/-- The content of the file that a text names. -/
def fileAt (t : CodeText) : Option (List ℕ) :=
  if Path.namesDirectory t then none else (Path.ofText t).bind w.tree.file

/-- Put a node, or leave everything as it is where it does not fit. -/
def put (p : Path) (n : Node (List ℕ)) : Option Box :=
  (w.tree.put p n).map fun tree => { w with tree := tree }

/-- Open a file to write to it: a file that is there is emptied, unless it is added to. -/
def openFile (append : Bool) (t : CodeText) : Option Box :=
  if Path.namesDirectory t then none
  else
    (Path.ofText t).bind fun p =>
      if w.tree.isDir p.dropLast then
        w.put p (.file (if append then (w.tree.file p).getD [] else []))
      else none

lemma openFile_input {w w' : Box} {append : Bool} {t : CodeText}
    (h : w.openFile append t = some w') : w'.input = w.input := by
  unfold openFile at h
  split at h
  · cases h
  · obtain ⟨p, -, h⟩ := Option.bind_eq_some_iff.mp h
    split at h
    · obtain ⟨tree, -, rfl⟩ := Option.map_eq_some_iff.mp h
      rfl
    · cases h

/-- Write to a file that is open. -/
def write (t : CodeText) (bytes : List ℕ) : Box :=
  ((Path.ofText t).bind fun p => w.put p (.file ((w.tree.file p).getD [] ++ bytes))).getD w

/-- Whether something has the name. -/
def exists_ (t : CodeText) : Bool := ((Path.ofText t).bind w.tree.get).isSome

/-- The commands: what they write, their status and what they leave.  The modes of files are not
followed. -/
def call (argv : List CodeText) : Result Box :=
  match argv with
  | [name, option, t] =>
    if name = lit "dirname" ∧ option = lit "--" then ⟨Path.dirname t ++ [newline], 0, w⟩
    else if name = lit "mkdir" ∧ option = lit "-p" then
      match (Path.ofText t).bind fun p => w.put p .directory with
      | some w => ⟨[], 0, w⟩
      | none => ⟨[], 1, w⟩
    else if name = lit "printf" ∧ option = lit "%s" then ⟨t, 0, w⟩
    else if name = lit "chmod" ∧ option = lit "644" then ⟨[], if w.exists_ t then 0 else 1, w⟩
    else ⟨[], 127, w⟩
  | [name, option] =>
    if name = lit "base64" ∧ option = lit "-d" then
      match Base64.decode w.input with
      | some bytes => ⟨bytes, 0, w⟩
      | none => ⟨[], 1, w⟩
    else ⟨[], 127, w⟩
  | _ => ⟨[], 127, w⟩

/-- Give a command something to read. -/
def feed (input : List ℕ) : Box := { w with input := input }

/-- A container as the host of a script. -/
def host : PipeHost Box where
  call argv w := w.call argv
  openFile append t w := w.openFile append t
  append t bytes w := w.write t bytes
  paths t _ := [t]
  number _ := 0
  feed input w := w.feed input

end Box

/-! ## What the script is for -/

/-- The commands of the script, with their arguments. -/
def ownCalls (bytes : List ℕ) : List (List CodeText) :=
  [[lit "dirname", lit "--", path.text], [lit "mkdir", lit "-p", Path.dirname path.text],
    [lit "printf", lit "%s", Base64.encode bytes], [lit "base64", lit "-d"],
    [lit "chmod", lit "644", path.text]]

/-- The file is written, nothing else changes, and only the script's own commands are run.  The
directories above the file may be new. -/
structure Wrote (bytes : List ℕ) (append : Bool) (before after : State Box) : Prop where
  content : after.world.fileAt path.text =
    some ((if append then (before.world.fileAt path.text).getD [] else []) ++ bytes)
  others : ∀ q, q ≠ path.target → after.world.tree.get q = before.world.tree.get q ∨
    q <+: path.target ∧ before.world.tree.get q = none ∧
      after.world.tree.get q = some .directory
  commands : ∀ argv ∈ after.calls, argv ∈ ownCalls path bytes

/-- The state that a script begins in. -/
def initial (vars : CodeText → CodeText) (w : Box) : State Box :=
  { vars := vars, world := w, output := [], status := 0, calls := [] }

/-! ## Running the script -/

/-- The files once the directories above the path are made, where they can be. -/
def madeAbove (tree : FileTree (List ℕ)) : FileTree (List ℕ) :=
  ((Path.ofText (Path.dirname path.text)).bind fun p => tree.put p .directory).getD tree

/-- The directory's text has no newline. -/
lemma newline_notMem_dirname : newline ∉ Path.dirname path.text := by
  have hpath := path.notMem_text (c := newline) (by simp)
  intro h
  rcases Path.mem_dirname h with h | h
  · exact hpath h
  · revert h
    decide

lemma expand_dirname (s : State Box) :
    expandParts Box.host.toHost [.command [.simple (dirnameItems path)] true] s =
      (Path.dirname path.text, { s with status := 0, calls := s.calls ++
        [[lit "dirname", lit "--", path.text]] }) := by
  have htrim : trimNewlines (Path.dirname path.text ++ [newline]) = Path.dirname path.text := by
    rw [trimNewlines, List.rdropWhile_concat_pos _ _ _ (by simp), List.rdropWhile_eq_self_iff]
    intro hne hlast
    exact newline_notMem_dirname path (of_decide_eq_true hlast ▸ List.getLast_mem hne)
  have hrun : ∀ s : State Box, runCommand Box.host.toHost (.simple (dirnameItems path)) s =
      callWith Box.host.toHost [lit "dirname", lit "--", path.text]
        { file := none, failed := false, state := s } := by
    intro s
    exact runCommand_words Box.host.toHost [plain (lit "dirname"), plain (lit "--"),
      pathWord path] (by simp [pathWord]) s
  rw [expandParts, expandPart, runScript, runScript, hrun]
  show (trimNewlines ([] ++ (Path.dirname path.text ++ [newline])) ++ [], _) = _
  rw [List.nil_append, htrim, List.append_nil]
  rfl

/-- What the first command leaves. -/
lemma call_mkdir (w : Box) : ∃ status, w.call [lit "mkdir", lit "-p", Path.dirname path.text] =
    ⟨[], status, { w with tree := madeAbove path w.tree }⟩ := by
  show ∃ status, (match (Path.ofText (Path.dirname path.text)).bind fun p => w.put p .directory with
    | some w => (⟨[], 0, w⟩ : Result Box)
    | none => ⟨[], 1, w⟩) = _
  unfold madeAbove
  cases Path.ofText (Path.dirname path.text) with
  | none => exact ⟨1, rfl⟩
  | some p =>
    rw [Option.bind_some, Option.bind_some, Box.put]
    cases w.tree.put p .directory with
    | none => exact ⟨1, rfl⟩
    | some tree => exact ⟨0, rfl⟩

/-- The directories are made. -/
lemma run_mkdir (s : State Box) : ∃ status, runPipeline Box.host [mkdirItems path] [] s =
    { s with world := { tree := madeAbove path s.world.tree, input := [] }, status := status,
             calls := s.calls ++ [[lit "dirname", lit "--", path.text],
               [lit "mkdir", lit "-p", Path.dirname path.text]] } := by
  obtain ⟨status, hcall⟩ := call_mkdir path (s.world.feed [])
  have hrun : ∀ s : State Box, runCommand Box.host.toHost (.simple (mkdirItems path)) s =
      callWith Box.host.toHost [lit "mkdir", lit "-p", Path.dirname path.text]
        { file := none, failed := false,
          state := { s with status := 0, calls := s.calls ++
            [[lit "dirname", lit "--", path.text]] } } := by
    intro s
    have hliteral : [plain (lit "mkdir"), plain (lit "-p")].map literal =
        [lit "mkdir", lit "-p"].map some := by simp
    have hwords := expandWords_words Box.host.toHost _ hliteral
      [.word [.command [.simple (dirnameItems path)] true]] s
    rw [expandWords, expand_dirname] at hwords
    rw [runCommand, show mkdirItems path = [plain (lit "mkdir"), plain (lit "-p")].map .word ++
      [.word [.command [.simple (dirnameItems path)] true]] from rfl, hwords, redirectAll_words]
    rfl
  have hstage : runStage Box.host (mkdirItems path) [] s = ([], { s with
      world := { tree := madeAbove path s.world.tree, input := [] }, status := status,
      calls := s.calls ++ [[lit "dirname", lit "--", path.text],
        [lit "mkdir", lit "-p", Path.dirname path.text]] }) := by
    rw [runStage, hrun]
    show ([] ++ ((s.world.feed []).call [lit "mkdir", lit "-p", Path.dirname path.text]).output,
      ({ s with world := ((s.world.feed []).call _).world,
                status := ((s.world.feed []).call _).status,
                calls := (s.calls ++ _) ++ _ } : State Box)) = _
    rw [hcall, List.append_assoc]
    rfl
  refine ⟨status, ?_⟩
  rw [runPipeline, hstage]
  show ({ s with output := s.output ++ [], world := _, status := _, calls := _ } : State Box) = _
  rw [List.append_nil]

/-- The file is opened, and then it is written. -/
lemma run_write {bytes : List ℕ} (hbytes : ∀ b ∈ bytes, b < 256) (append : Bool) (s : State Box) :
    runPipeline Box.host [printfItems (Base64.encode bytes), base64Items path append] [] s =
      match (s.world.feed (Base64.encode bytes)).openFile append path.text with
      | none => { s with world := s.world.feed (Base64.encode bytes), status := 1,
                         calls := s.calls ++ [[lit "printf", lit "%s", Base64.encode bytes]] }
      | some w => { s with world := w.write path.text bytes, status := 0,
                           calls := s.calls ++ [[lit "printf", lit "%s", Base64.encode bytes],
                             [lit "base64", lit "-d"]] } := by
  have hprintf : ∀ s : State Box, runCommand Box.host.toHost
      (.simple (printfItems (Base64.encode bytes))) s = callWith Box.host.toHost
        [lit "printf", lit "%s", Base64.encode bytes]
        { file := none, failed := false, state := s } := by
    intro s
    exact runCommand_words Box.host.toHost [plain (lit "printf"), quoted (lit "%s"),
      quoted (Base64.encode bytes)] (by simp) s
  have hbase64 : ∀ s : State Box, runCommand Box.host.toHost (.simple (base64Items path append)) s =
      callWith Box.host.toHost [lit "base64", lit "-d"] (openWith Box.host.toHost [] append
        path.text { file := none, failed := false, state := s }) := by
    intro s
    exact runCommand_redirect Box.host.toHost [plain (lit "base64"), plain (lit "-d")]
      (by simp) append (literal_plain path.text) s
  have hfirst : runStage Box.host (printfItems (Base64.encode bytes)) [] s =
      (Base64.encode bytes, { s with
        world := s.world.feed [], status := 0,
        calls := s.calls ++ [[lit "printf", lit "%s", Base64.encode bytes]] }) := by
    rw [runStage, hprintf]
    rfl
  rw [runPipeline, hfirst, runPipeline, runStage, hbase64]
  cases hopen : (s.world.feed (Base64.encode bytes)).openFile append path.text with
  | none =>
    rw [callWith_not_opened _ hopen]
    show ({ s with output := s.output ++ [], world := _, status := _, calls := _ } : State Box) = _
    rw [List.append_nil]
    rfl
  | some w =>
    have hinput : Base64.decode w.input = some bytes := by
      rw [Box.openFile_input hopen]
      exact Base64.decode_encode hbytes
    have hcall : w.call [lit "base64", lit "-d"] = ⟨bytes, 0, w⟩ := by
      show (match Base64.decode w.input with
        | some bytes => (⟨bytes, 0, w⟩ : Result Box)
        | none => ⟨[], 1, w⟩) = _
      rw [hinput]
    rw [callWith_opened _ hopen]
    show ({ s with
      output := s.output ++ [], world := (w.call [lit "base64", lit "-d"]).world.write path.text
        (w.call [lit "base64", lit "-d"]).output,
      status := (w.call [lit "base64", lit "-d"]).status,
      calls := (s.calls ++ _) ++ _ } : State Box) = _
    rw [List.append_nil, hcall, List.append_assoc]
    rfl

lemma run_chmod (s : State Box) : ∃ status, runPipeline Box.host [chmodItems path] [] s =
    { s with world := s.world.feed [], status := status,
             calls := s.calls ++ [[lit "chmod", lit "644", path.text]] } := by
  have hrun : ∀ s : State Box, runCommand Box.host.toHost (.simple (chmodItems path)) s =
      callWith Box.host.toHost [lit "chmod", lit "644", path.text]
        { file := none, failed := false, state := s } := by
    intro s
    exact runCommand_words Box.host.toHost [plain (lit "chmod"), plain (lit "644"),
      pathWord path] (by simp [pathWord]) s
  refine ⟨if (s.world.feed []).exists_ path.text then 0 else 1, ?_⟩
  rw [runPipeline, runStage, hrun]
  show ({ s with output := s.output ++ [], world := _, status := _, calls := _ } : State Box) = _
  rw [List.append_nil]
  rfl

/-! ## What the script leaves -/

/-- The files that the script leaves, if its path does not name a directory. -/
lemma madeAbove_eq (hname : Path.namesDirectory path.text = false) (tree : FileTree (List ℕ)) :
    madeAbove path tree = (tree.put path.target.dropLast .directory).getD tree := by
  rw [madeAbove, (Path.ofText_dirname path.slash_mem hname path.ofText_text).1, Option.bind_some]

lemma target_ne_nil (hname : Path.namesDirectory path.text = false) : path.target ≠ [] :=
  (Path.ofText_dirname path.slash_mem hname path.ofText_text).2

lemma fileAt_eq (hname : Path.namesDirectory path.text = false) (w : Box) :
    w.fileAt path.text = w.tree.file path.target := by
  rw [Box.fileAt, hname, if_neg (by simp), path.ofText_text, Option.bind_some]

/-- Where the file fits, it is written. -/
lemma exists_write (hname : Path.namesDirectory path.text = false) {w : Box}
    (hfits : w.tree.Fits path.target (.file [])) (append : Bool) (bytes input : List ℕ) :
    ∃ opened, ({ tree := madeAbove path w.tree, input := input } : Box).openFile append path.text =
        some opened ∧
      (opened.write path.text bytes).fileAt path.text =
        some ((if append then (w.fileAt path.text).getD [] else []) ++ bytes) ∧
      ∀ q, q ≠ path.target → (opened.write path.text bytes).tree.get q = w.tree.get q ∨
        q <+: path.target ∧ w.tree.get q = none ∧
          (opened.write path.text bytes).tree.get q = some .directory := by
  have hne := target_ne_nil path hname
  obtain ⟨made, hmade⟩ := FileTree.put_of_fits (FileTree.fits_dropLast hfits hne)
  have htree : madeAbove path w.tree = made := by
    rw [madeAbove_eq path hname, hmade]
    rfl
  have hdirectory : made.isDir path.target.dropLast = true := by
    rw [FileTree.isDir_iff, FileTree.get_put hmade, if_pos rfl]
  have hold : made.file path.target = w.tree.file path.target := by
    rw [FileTree.file, FileTree.file, FileTree.get_of_put_dropLast hmade hne]
  -- the file as it is opened
  let start : List ℕ := if append then (w.tree.file path.target).getD [] else []
  obtain ⟨opened, hopened⟩ := FileTree.put_of_fits
    ((FileTree.fits_iff_of_put_dropLast hmade hne).mpr (hfits.file start))
  have hstart : opened.file path.target = some start :=
    FileTree.file_eq_some_iff.mpr (by rw [FileTree.get_put hopened, if_pos rfl])
  obtain ⟨final, hfinal⟩ := FileTree.put_of_fits
    (FileTree.fits_of_file hstart (start ++ bytes))
  have hwrite : ({ tree := opened, input := input } : Box).write path.text bytes =
      { tree := final, input := input } := by
    rw [Box.write, path.ofText_text, Option.bind_some, hstart, Option.getD_some, Box.put, hfinal]
    rfl
  refine ⟨{ tree := opened, input := input }, ?_, ?_, fun q hq => ?_⟩
  · rw [Box.openFile, hname, if_neg (by simp), path.ofText_text, Option.bind_some, htree,
      if_pos hdirectory, hold, Box.put, hopened]
    rfl
  · rw [hwrite, fileAt_eq path hname, fileAt_eq path hname]
    exact FileTree.file_eq_some_iff.mpr (by rw [FileTree.get_put hfinal, if_pos rfl])
  · rw [hwrite, FileTree.get_put hfinal, if_neg hq]
    by_cases hleads : q <+: path.target
    · rw [if_pos hleads]
      have habove := hfits.1 q (Path.mem_above.mpr ⟨hleads, hq⟩)
      cases hget : w.tree.get q with
      | none => exact .inr ⟨hleads, rfl, rfl⟩
      | some n =>
        rw [hget] at habove
        cases n with
        | directory => exact .inl rfl
        | file => cases habove
    · have hmade' : ¬ q <+: path.target.dropLast := fun h =>
        hleads (h.trans (List.dropLast_prefix _))
      have hne' : q ≠ path.target.dropLast := fun h => hmade' ⟨[], by rw [List.append_nil, h]⟩
      rw [if_neg hleads, FileTree.get_put hopened, if_neg hq, if_neg hleads,
        FileTree.get_put hmade, if_neg hne', if_neg hmade']
      exact .inl rfl

/-- Where the file is opened, it fits. -/
lemma fits_of_open (hname : Path.namesDirectory path.text = false) {w w' : Box}
    {input : List ℕ} {append : Bool}
    (hopen : ({ tree := madeAbove path w.tree, input := input } : Box).openFile append path.text =
      some w') : w.tree.Fits path.target (.file []) := by
  have hne := target_ne_nil path hname
  rw [Box.openFile, hname, if_neg (by simp), path.ofText_text, Option.bind_some] at hopen
  split at hopen
  · obtain ⟨tree, hput, -⟩ := Option.map_eq_some_iff.mp hopen
    have hfits := (FileTree.fits_of_put hput).file []
    rw [madeAbove_eq path hname] at hfits
    cases hmade : w.tree.put path.target.dropLast .directory with
    | none =>
      rw [hmade] at hfits
      exact hfits
    | some made =>
      rw [hmade] at hfits
      exact (FileTree.fits_iff_of_put_dropLast hmade hne).mp hfits
  · cases hopen

/-- Where no file is opened, there was none that could be written to. -/
lemma fits_of_fileAt (hname : Path.namesDirectory path.text = false) {w : Box} {c : List ℕ}
    (hfile : (madeAbove path w.tree).file path.target = some c) :
    w.tree.Fits path.target (.file []) := by
  have hne := target_ne_nil path hname
  have hfits := FileTree.fits_of_file hfile []
  rw [madeAbove_eq path hname] at hfits
  cases hmade : w.tree.put path.target.dropLast .directory with
  | none =>
    rw [hmade] at hfits
    exact hfits
  | some made =>
    rw [hmade] at hfits
    exact (FileTree.fits_iff_of_put_dropLast hmade hne).mp hfits

/-- The container that the file is opened in. -/
def made (content : Text) (w : Box) : Box :=
  { tree := madeAbove path w.tree, input := Base64.encode (bytesOf content) }

/-- The files that the script leaves, and the commands it has run. -/
lemma runLines_writeFileLines (content : Text) (append : Bool) (vars : CodeText → CodeText)
    (w : Box) :
    (∀ argv ∈ (runLines Box.host (writeFileLines path content append) (initial vars w)).calls,
      argv ∈ ownCalls path (bytesOf content)) ∧
    (runLines Box.host (writeFileLines path content append) (initial vars w)).world.tree =
      match (made path content w).openFile append path.text with
      | none => madeAbove path w.tree
      | some opened => (opened.write path.text (bytesOf content)).tree := by
  obtain ⟨status, hmkdir⟩ := run_mkdir path (initial vars w)
  let first : State Box := { initial vars w with
    world := { tree := madeAbove path w.tree, input := [] }, status := status,
    calls := [[lit "dirname", lit "--", path.text],
      [lit "mkdir", lit "-p", Path.dirname path.text]] }
  have hfirst : runPipeline Box.host [mkdirItems path] [] (initial vars w) = first := hmkdir
  have hwrite := run_write path (bytesOf_lt content) append first
  have hlines : runLines Box.host (writeFileLines path content append) (initial vars w) =
      runPipeline Box.host [chmodItems path] [] (runPipeline Box.host
        [printfItems (Base64.encode (bytesOf content)), base64Items path append] []
        (runPipeline Box.host [mkdirItems path] [] (initial vars w))) := rfl
  rw [hlines, hfirst, hwrite]
  cases hopen : (made path content w).openFile append path.text with
  | none =>
    have hfile : (first.world.feed (Base64.encode (bytesOf content))).openFile append path.text =
        none := hopen
    rw [hfile]
    obtain ⟨status', hchmod⟩ := run_chmod path { first with
      world := first.world.feed (Base64.encode (bytesOf content)), status := 1,
      calls := first.calls ++ [[lit "printf", lit "%s", Base64.encode (bytesOf content)]] }
    rw [hchmod]
    exact ⟨by simp [first, ownCalls], rfl⟩
  | some opened =>
    have hfile : (first.world.feed (Base64.encode (bytesOf content))).openFile append path.text =
        some opened := hopen
    rw [hfile]
    obtain ⟨status', hchmod⟩ := run_chmod path { first with
      world := opened.write path.text (bytesOf content), status := 0,
      calls := first.calls ++ [[lit "printf", lit "%s", Base64.encode (bytesOf content)],
        [lit "base64", lit "-d"]] }
    rw [hchmod]
    exact ⟨by simp [first, ownCalls], rfl⟩

/-- **A file is written where it fits, and the path does not name a directory.**  The script is
read for every content and path, and runs its own commands only. -/
theorem writes_file_iff (content : Text) (append : Bool) (vars : CodeText → CodeText) (w : Box) :
    ∃ lines, readScript (buildWriteFileScript path content append) = some lines ∧
      (∀ argv ∈ (runLines Box.host lines (initial vars w)).calls,
        argv ∈ ownCalls path (bytesOf content)) ∧
      (Wrote path (bytesOf content) append (initial vars w)
          (runLines Box.host lines (initial vars w)) ↔
        Path.namesDirectory path.text = false ∧ w.tree.Fits path.target (.file [])) := by
  obtain ⟨hcalls, htree⟩ := runLines_writeFileLines path content append vars w
  refine ⟨_, readScript_buildWriteFileScript path content append, hcalls, ?_, ?_⟩
  · intro hwrote
    have hcontent := hwrote.content
    have hname : Path.namesDirectory path.text = false := by
      rw [Bool.eq_false_iff]
      intro hname
      rw [Box.fileAt, if_pos hname] at hcontent
      cases hcontent
    refine ⟨hname, ?_⟩
    cases hopen : (made path content w).openFile append path.text with
    | none =>
      rw [hopen] at htree
      rw [fileAt_eq path hname, htree] at hcontent
      exact fits_of_fileAt path hname hcontent
    | some opened => exact fits_of_open path hname hopen
  · rintro ⟨hname, hfits⟩
    obtain ⟨opened, hopen, hcontent, hothers⟩ := exists_write path hname hfits append
      (bytesOf content) (Base64.encode (bytesOf content))
    have hopen' : (made path content w).openFile append path.text = some opened := hopen
    rw [hopen'] at htree
    refine ⟨?_, fun q hq => ?_, hcalls⟩
    · rw [fileAt_eq path hname, htree, ← fileAt_eq path hname]
      exact hcontent
    · rw [htree]
      exact hothers q hq

end Habeny.Logs
