import Habeny.Lib.Checks
import Habeny.Lib.PyJson
import Habeny.Lib.ShellReader
import Habeny.Lib.ShellRun

/-!
# The script of a custom log simulation

The script that writes the lines of a custom log simulation in a container, with the texts of the
request between single quotes.

The shell reads the script as the assignments of these texts, each as one word that is exactly the
text, and then always the same commands (`values_never_run`).  In every run, whatever the commands
do, the commands that are run are those that the script itself names.
-/

namespace Habeny.Logs

open Habeny.Lib Habeny.Lib.CodeText Habeny.Lib.Shell

/-- `str.replace` of one character -/
def replaceChar (c : ℕ) (new s : CodeText) : CodeText :=
  s.flatMap fun d => if d = c then new else [d]

def escapeJsonString (value : CodeText) : CodeText :=
  let value := replaceChar backslash (lit "\\\\") value
  let value := replaceChar doubleQuote (lit "\\\"") value
  let value := replaceChar newline (lit "\\n") value
  let value := replaceChar carriageReturn (lit "\\r") value
  replaceChar tab (lit "\\t") value

def escapeBashSingleQuotes (value : CodeText) : CodeText :=
  replaceChar singleQuote (lit "'\"'\"'") value

/-- A text between single quotes, as it stands in a script. -/
def singleQuoted (value : CodeText) : CodeText :=
  singleQuote :: (escapeBashSingleQuotes value ++ [singleQuote])

end Habeny.Logs

namespace Habeny.Simulations

open Habeny.Lib Habeny.Lib.CodeText Habeny.Lib.Shell Habeny.Logs

variable {F : JsonText.FloatText}

/-- What the script is made of.  The start time is given as `isoformat` writes it. -/
structure CustomLogSimulationRequest (F : JsonText.FloatText) where
  filePath : CodeText
  message : CodeText
  srcIp : CodeText
  destIp : CodeText
  duration : ℕ
  eps : ℕ
  seqStart : ℕ
  startTime : Option CodeText
  extraFields : List (PyKey F × PyValue F)

lemma isPrintable_dumpSeparators :
    ∀ c ∈ lit ", " ++ lit ": ", JsonText.isPrintable c = true := by
  decide

/-- `json.dumps` without options -/
def dumpOptions : DumpOptions where
  sortKeys := false
  ensureAscii := true
  itemSeparator := lit ", "
  keySeparator := lit ": "
  printable := isPrintable_dumpSeparators

/-- The extra fields as they are added to each line.  How deeply they may be nested is `depth`. -/
def extraFragment (depth : ℕ) (extraFields : List (PyKey F × PyValue F)) :
    Except PyError CodeText :=
  if extraFields.isEmpty then .ok []
  else do
    let extraJson ← PyJson.dumps dumpOptions depth (.dict extraFields)
    if extraJson ≠ [] ∧ extraJson ≠ lit "\x7b\x7d" then
      -- without the braces
      return lit "," ++ (extraJson.drop 1).dropLast
    else return []

/-- The lines behind the assignments of the values. -/
def scriptLines : List CodeText :=
  [lit "TOTAL=$((EPS * DURATION))",
    [],
    lit "mkdir -p \"$(dirname \"$FILE_PATH\")\"",
    [],
    lit "if [ -n \"$START_TIME\" ]; then",
    lit "  START_EPOCH=$(date -u -d \"$START_TIME\"" ++ lit " +%s 2>/dev/null || date +%s)",
    lit "else",
    lit "  START_EPOCH=$(date +%s)",
    lit "fi",
    [],
    lit "SEQ=$((SEQ_START - 1))",
    lit "COUNT=0",
    [],
    lit "for s in $(seq 1 \"$DURATION\"); do",
    lit "  TS=$(date -u -d " ++ lit "\"@$((START_EPOCH + s - 1))\"" ++ lit " +%Y-%m-%dT%H:%M:%SZ)",
    lit "  for i in $(seq 1 \"$EPS\"); do",
    lit "    COUNT=$((COUNT + 1))",
    lit "    SEQ=$((SEQ + 1))",
    lit "    printf '\x7b\"timestamp\":\"%s\"," ++ lit "\"date\":\"%s\",\"eps\":%s," ++
      lit "\"duration_seconds\":%s," ++ lit "\"src_ip\":\"%s\",\"dest_ip\":\"%s\"," ++
      lit "\"file_path\":\"%s\"," ++ lit "\"message\":\"%s\",\"count\":%s,\"seq\":%s," ++
      lit "\"simulation_id\":\"%s\"," ++ lit "\"total_count\":%s%s\x7d\\n' \\",
    lit "      \"$TS\" \"$TS\" \"$EPS\" \"$DURATION\"" ++ lit " \"$SRC_IP\" \"$DEST_IP\"" ++
      lit " \"$FILE_PATH\" \"$MESSAGE_ESCAPED\"" ++ lit " \"$COUNT\" \"$SEQ\" \"$SIM_ID\"" ++
      lit " \"$TOTAL\" \"$EXTRA_FRAGMENT\"" ++ lit " >> \"$FILE_PATH\"",
    lit "  done",
    lit "  sleep 1",
    lit "done",
    [],
    lit "echo \"Generated $COUNT custom events\""]

/-- `NAME='value'` -/
def assignText (a : VarName × CodeText) : CodeText := a.1.text ++ equals :: singleQuoted a.2

/-- `NAME=number` -/
def assignNumber (a : VarName × ℕ) : Except PyError CodeText := do
  return a.1.text ++ equals :: (← PyJson.intRepr a.2)

/-- The texts that the script is given. -/
def CustomLogSimulationRequest.texts (config : CustomLogSimulationRequest F)
    (simulationId extra : CodeText) : List (VarName × CodeText) :=
  [(⟨lit "FILE_PATH", by decide⟩, config.filePath),
    (⟨lit "MESSAGE_ESCAPED", by decide⟩, escapeJsonString config.message),
    (⟨lit "SRC_IP", by decide⟩, config.srcIp),
    (⟨lit "DEST_IP", by decide⟩, config.destIp),
    (⟨lit "EXTRA_FRAGMENT", by decide⟩, extra),
    (⟨lit "SIM_ID", by decide⟩, simulationId),
    (⟨lit "START_TIME", by decide⟩, config.startTime.getD [])]

/-- The numbers that the script is given. -/
def CustomLogSimulationRequest.numbers (config : CustomLogSimulationRequest F) :
    List (VarName × ℕ) :=
  [(⟨lit "EPS", by decide⟩, config.eps), (⟨lit "DURATION", by decide⟩, config.duration),
    (⟨lit "SEQ_START", by decide⟩, config.seqStart)]

/-- `_build_custom_log_script`.  Encoding the extra fields (`jsonable_encoder`) is a parameter. -/
def buildCustomLogScript (encode : List (PyKey F × PyValue F) → List (PyKey F × PyValue F))
    (depth : ℕ) (config : CustomLogSimulationRequest F) (simulationId : CodeText) :
    Except PyError CodeText := do
  let extra ← extraFragment depth (encode config.extraFields)
  let numbers ← config.numbers.mapM assignNumber
  let texts := (config.texts simulationId extra).map assignText
  return newline :: (withNewlines (texts ++ numbers) ++ withNewlines scriptLines)

/-! ## What the shell reads -/

/-- The commands that the script names. -/
def ownCommands : List CodeText :=
  [lit "mkdir", lit "dirname", lit "[", lit "date", lit "seq", lit "printf", lit "sleep",
    lit "echo"]

/-- The commands behind the assignments of the values. -/
def scriptCommands : Script := (parse (withNewlines scriptLines)).getD []

def textNames : List CodeText :=
  [lit "FILE_PATH", lit "MESSAGE_ESCAPED", lit "SRC_IP", lit "DEST_IP", lit "EXTRA_FRAGMENT",
    lit "SIM_ID", lit "START_TIME"]

/-- Whether a script runs its own commands only, and no expression in it reads a text that it is
given. -/
def isInert (script : Script) : Bool :=
  scriptRunsOnly ownCommands script &&
    textNames.all fun name => !(scriptNumberVars script).contains name

lemma scriptLines_inert :
    (parse (withNewlines scriptLines)).any isInert = true := by
  decide +kernel

/-- What is found, and what holds of it. -/
lemma eq_some_getD {α : Type} {p : α → Bool} {x : Option α} (d : α) (h : x.any p = true) :
    x = some (x.getD d) ∧ p (x.getD d) = true := by
  cases x with
  | none => exact nomatch h
  | some a => exact ⟨rfl, h⟩

lemma parse_scriptLines : parse (withNewlines scriptLines) = some scriptCommands :=
  (eq_some_getD [] scriptLines_inert).1

lemma isInert_scriptCommands : isInert scriptCommands = true :=
  (eq_some_getD [] scriptLines_inert).2

/-- The assignment of a text that stands between quotes. -/
def quotedAssignment (a : VarName × CodeText) : Assignment := ⟨a.1, quoted a.2⟩

def numberAssignment (a : VarName × ℕ) : Assignment := ⟨a.1, plain (JsonText.intText a.2)⟩

/-- What the script assigns. -/
def CustomLogSimulationRequest.assignments (config : CustomLogSimulationRequest F)
    (simulationId extra : CodeText) : List Assignment :=
  (config.texts simulationId extra).map quotedAssignment ++ config.numbers.map numberAssignment

lemma quotedAssignment_isReadFrom (a : VarName × CodeText) :
    (quotedAssignment a).IsReadFrom (assignText a) := by
  intro ts rest
  have htext : assignText a ++ newline :: rest = a.1.text ++ equals :: singleQuote ::
      (escapeQuotes a.2 ++ singleQuote :: newline :: rest) := by
    rw [assignText, singleQuoted, List.append_assoc, List.cons_append, List.cons_append,
      List.append_assoc]
    rfl
  rw [htext]
  exact Reader.run_assignQuoted ts a.1.isName a.2 rest

lemma isOrdinary_intText {n c : ℕ} (hc : c ∈ JsonText.intText n) : Reader.isOrdinary c = true := by
  obtain ⟨d, hd, rfl⟩ := List.mem_map.mp hc
  have hdigit : d.isDigit = true := Json.isDigit_of_mem_toDigits hd
  have hcode : isDigit d.toNat = true := by
    simp only [Char.isDigit, Bool.and_eq_true, decide_eq_true_eq, ge_iff_le,
      UInt32.le_iff_toNat_le] at hdigit
    exact decide_eq_true hdigit
  rw [Reader.isOrdinary, isNameChar, hcode, Bool.or_true, Bool.true_or]

lemma intText_ne_nil (n : ℕ) : JsonText.intText n ≠ [] := by
  rw [JsonText.intText, ne_eq, List.map_eq_nil_iff]
  exact Json.intText_ne_nil n

lemma numberAssignment_isReadFrom {a : VarName × ℕ} {line : CodeText}
    (h : assignNumber a = .ok line) : (numberAssignment a).IsReadFrom line := by
  intro ts rest
  obtain ⟨digits, hdigits, hline⟩ := Checks.bind_eq_ok_iff.mp h
  have hdigits' : digits = JsonText.intText a.2 := by
    unfold PyJson.intRepr at hdigits
    split_ifs at hdigits
    exact (Except.ok.inj hdigits).symm
  have hline' : line ++ newline :: rest =
      a.1.text ++ equals :: (JsonText.intText a.2 ++ newline :: rest) := by
    rw [← Except.ok.inj hline, hdigits', List.append_assoc, List.cons_append]
  rw [hline']
  exact Reader.run_assignPlain ts a.1.isName (intText_ne_nil a.2)
    (fun c hc => isOrdinary_intText hc) rest

/-- **The script is read as the assignments, whatever the texts are, and then always the same
commands.** -/
lemma parse_buildCustomLogScript
    {encode : List (PyKey F × PyValue F) → List (PyKey F × PyValue F)} {depth : ℕ}
    {config : CustomLogSimulationRequest F} {simulationId extra script : CodeText}
    (hextra : extraFragment depth (encode config.extraFields) = .ok extra)
    (h : buildCustomLogScript encode depth config simulationId = .ok script) :
    parse script = some ((config.assignments simulationId extra).map Assignment.command ++
      scriptCommands) := by
  obtain ⟨extra', hextra', h⟩ := Checks.bind_eq_ok_iff.mp h
  obtain rfl : extra = extra' := Except.ok.inj (hextra.symm.trans hextra')
  obtain ⟨numbers, hnumbers, h⟩ := Checks.bind_eq_ok_iff.mp h
  rw [← Except.ok.inj h]
  refine parse_assignments (List.rel_append ?_ ?_) parse_scriptLines
  · rw [List.forall₂_map_left_iff, List.forall₂_map_right_iff, List.forall₂_same]
    exact fun a _ => quotedAssignment_isReadFrom a
  · rw [List.forall₂_map_right_iff]
    exact ((PyJson.mapM_eq_ok_iff.mp hnumbers).flip).imp fun line a ha =>
      numberAssignment_isReadFrom ha

/-- The assignments run nothing. -/
lemma assignments_runOnly {as : List Assignment} {script : Script}
    (has : ∀ a ∈ as, partsRunOnly ownCommands a.value = true)
    (h : scriptRunsOnly ownCommands script = true) :
    scriptRunsOnly ownCommands (as.map Assignment.command ++ script) = true := by
  induction as with
  | nil => exact h
  | cons a as ih =>
    rw [List.map_cons, List.cons_append, scriptRunsOnly, Bool.and_eq_true]
    exact ⟨has a List.mem_cons_self, ih fun b hb => has b (List.mem_cons_of_mem a hb)⟩

/-- Characters run nothing. -/
lemma partsRunOnly_map {f : ℕ → Part} (hf : ∀ c, (f c).runsOnly ownCommands = true) (s : CodeText) :
    partsRunOnly ownCommands (s.map f) = true := by
  induction s with
  | nil => rfl
  | cons c s ih => rw [List.map_cons, partsRunOnly, hf, ih, Bool.and_self]

/-- **The texts of a request are never run.**  A text between single quotes, its quotes escaped, is
read as one word that is exactly the text, and only the word that is being read is another behind
it.  The script is read as the assignments of the texts and numbers, and then always the same
commands; whatever these do, only the commands that the script names are run, and no expression
reads one of the texts. -/
theorem values_never_run (encode : List (PyKey F × PyValue F) → List (PyKey F × PyValue F))
    (depth : ℕ) (config : CustomLogSimulationRequest F) (simulationId : CodeText) :
    (∀ (r : Reader) (s rest : CodeText), r.mode = .outside →
      r.run (singleQuoted s) = some { r with word := some (r.word.getD [] ++ quoted s) } ∧
      r.run (singleQuoted s ++ rest) =
        { r with word := some (r.word.getD [] ++ quoted s) }.run rest) ∧
    (∀ s : CodeText, tokens (singleQuoted s) = some [.word (quoted s)]) ∧
    ((∃ e, buildCustomLogScript encode depth config simulationId = .error e) ∨
      ∃ script extra program,
        buildCustomLogScript encode depth config simulationId = .ok script ∧
        parse script = some program ∧
        program = (config.assignments simulationId extra).map Assignment.command ++
          scriptCommands ∧
        (∀ (σ : Type) (h : Host σ) (s : State σ), s.calls = [] →
          Runs ownCommands (runScript h program s)) ∧
        ∀ name ∈ textNames, name ∉ scriptNumberVars scriptCommands) := by
  have hquoted : ∀ (r : Reader) (s rest : CodeText), r.mode = .outside →
      r.run (singleQuoted s ++ rest) =
        { r with word := some (r.word.getD [] ++ quoted s) }.run rest := by
    intro r s rest hmode
    rw [singleQuoted, List.cons_append, List.append_assoc]
    exact r.run_singleQuoted hmode s rest
  refine ⟨fun r s rest hmode => ⟨?_, hquoted r s rest hmode⟩, fun s => ?_, ?_⟩
  · rw [← List.append_nil (singleQuoted s)]
    exact hquoted r s [] hmode
  · rw [tokens, ← List.append_nil (singleQuoted s), hquoted Reader.start s [] rfl]
    rfl
  · cases hscript : buildCustomLogScript encode depth config simulationId with
    | error e => exact .inl ⟨e, rfl⟩
    | ok script =>
      obtain ⟨extra, hextra, -⟩ := Checks.bind_eq_ok_iff.mp hscript
      have hinert := isInert_scriptCommands
      rw [isInert, Bool.and_eq_true, List.all_eq_true] at hinert
      refine .inr ⟨script, extra, _, rfl, parse_buildCustomLogScript hextra hscript, rfl, ?_, ?_⟩
      · intro σ h s hcalls
        have has : ∀ a ∈ config.assignments simulationId extra,
            partsRunOnly ownCommands a.value = true := by
          intro a ha
          obtain ha | ha := List.mem_append.mp ha
          · obtain ⟨b, -, rfl⟩ := List.mem_map.mp ha
            exact partsRunOnly_map (fun _ => rfl) b.2
          · obtain ⟨b, -, rfl⟩ := List.mem_map.mp ha
            exact partsRunOnly_map (fun _ => rfl) _
        refine runScript_runs _ s (assignments_runOnly has hinert.1) ?_
        rw [Runs, hcalls]
        exact fun call hcall => absurd hcall List.not_mem_nil
      · intro name hname hmem
        have := hinert.2 name hname
        simp [hmem] at this

end Habeny.Simulations
