import Habeny.Lib.Decimal
import Habeny.Lib.Dict
import Habeny.Lib.Shlex

/-!
# The config file

Reading the config file: lines `KEY=value`, comments, and values with the quotes of a shell.

A value that was quoted for a shell is read back whatever it is.  A value without quotes and
backslashes is split into words and joined with single blanks, and a `#` in it begins a comment even
inside a word, so it is read as written exactly if it is kept by that (`PlainValue.read_eq_iff`).
The whole file is read as written exactly if the last line of each key is one of these
(`parseConfigFile_iff`).
-/

namespace Habeny.Settings

open Habeny.Lib Habeny.Lib.CodeText Habeny.Lib.Shlex
open Habeny.Lib.Shell (pound equals blank tab)

/-- The code points over 127 that may stand in an identifier, none of which is white space. -/
structure Identifiers where
  isStart : ℕ → Bool
  isContinue : ℕ → Bool
  not_space : ∀ c, (isStart c || isContinue c) = true → isSpace c = false

namespace Identifiers

variable (ids : Identifiers)

def starts (c : ℕ) : Bool := Shell.isNameStart c || (decide (128 ≤ c) && ids.isStart c)

def continues (c : ℕ) : Bool := Shell.isNameChar c || (decide (128 ≤ c) && ids.isContinue c)

/-- `str.isidentifier` -/
def isidentifier : CodeText → Bool
  | [] => false
  | c :: s => ids.starts c && s.all ids.continues

end Identifiers

/-- `ConfigError` -/
structure ConfigError where
  message : CodeText

def errorAt (number : ℕ) (problem : CodeText) : ConfigError :=
  ⟨lit "line " ++ decimal number ++ lit ": " ++ problem⟩

def exportWord : CodeText := lit "export "

/-- The line without the word `export` before it. -/
def withoutExport (line : CodeText) : CodeText :=
  if exportWord.isPrefixOf line then (line.drop exportWord.length).dropWhile isSpace else line

variable (ids : Identifiers)

/-- What a line sets, if anything. -/
def parseLine (number : ℕ) (line : CodeText) : Except ConfigError (Option (CodeText × CodeText)) :=
  let line := strip line
  if line = [] ∨ line.head? = some pound then .ok none
  else
    let line := withoutExport line
    -- `line.partition("=")`
    let key := strip (line.takeWhile (· ≠ equals))
    let raw := (line.dropWhile (· ≠ equals)).tail
    if equals ∉ line ∨ ids.isidentifier key = false then
      .error (errorAt number (lit "expected KEY=value"))
    else
      match Shlex.split raw with
      | .error e => .error (errorAt number e.message)
      | .ok parts => .ok (some (key, Shlex.join parts))

def parseLines : ℕ → List CodeText → Dict CodeText CodeText →
    Except ConfigError (Dict CodeText CodeText)
  | _, [], values => .ok values
  | number, line :: lines, values =>
    match parseLine ids number line with
    | .error e => .error e
    | .ok none => parseLines (number + 1) lines values
    | .ok (some (key, value)) => parseLines (number + 1) lines (values.set key value)

/-- `parse_config_file` -/
def parseConfigFile (text : CodeText) : Except ConfigError (Dict CodeText CodeText) :=
  parseLines ids 1 (splitlines text) Dict.empty

/-! ## Config files as they are written -/

/-- A text in one line. -/
abbrev OneLine := {t : CodeText // ∀ c ∈ t, isBreak c = false}

/-- A name that can be set. -/
abbrev Key := {k : CodeText // ids.isidentifier k = true}

def isBlank (c : ℕ) : Bool := decide (c = blank ∨ c = tab)

/-- A value that needs no quotes in an environment file. -/
structure PlainValue where
  text : OneLine
  unquoted : ∀ c ∈ text.val, isUnquoted c = true
  head : ∀ c ∈ text.val.head?, isBlank c = false ∧ c ≠ pound
  last : ∀ c ∈ text.val.getLast?, isBlank c = false
  noComment : ∀ b, isBlank b = true → ¬[b, pound] <:+: text.val

/-- A line that sets nothing: white space, or a comment. -/
abbrev SilentLine := {t : OneLine // strip t.val = [] ∨ (strip t.val).head? = some pound}

inductive ConfigLine where
  | silent (line : SilentLine)
  | plain (key : Key ids) (value : PlainValue)
  | quoted (key : Key ids) (value : OneLine)

variable {ids}

namespace ConfigLine

/-- The line as it stands in the file. -/
def text : ConfigLine ids → CodeText
  | .silent line => line.val.val
  | .plain key value => key.val ++ equals :: value.text.val
  | .quoted key value => key.val ++ equals :: Shlex.quote value.val

def key : ConfigLine ids → Option CodeText
  | .silent _ => none
  | .plain key _ => some key.val
  | .quoted key _ => some key.val

/-- The value that the line gives its key. -/
def value : ConfigLine ids → CodeText
  | .silent _ => []
  | .plain _ value => value.text.val
  | .quoted _ value => value.val

end ConfigLine

/-- A file: lines that end with a newline, and what stands behind the last newline. -/
def fileText (lines : List (ConfigLine ids)) (last : ConfigLine ids) : CodeText :=
  lines.flatMap (fun line => line.text ++ [newline]) ++ last.text

/-- The line that decides about a key. -/
def lastLine (key : CodeText) (lines : List (ConfigLine ids)) : Option (ConfigLine ids) :=
  lines.reverse.find? fun line => decide (line.key = some key)

/-- Whether a value without quotes is read as it is written: it has no `#`, no tab, no two blanks
next to each other and no white space at its end. -/
def PlainValue.Kept (v : PlainValue) : Prop :=
  pound ∉ v.text.val ∧ tab ∉ v.text.val ∧ ¬[blank, blank] <:+: v.text.val ∧
    ∀ c ∈ v.text.val.getLast?, isSpace c = false

/-- What is read for a value without quotes. -/
def PlainValue.read (v : PlainValue) : CodeText :=
  match Shlex.split (v.text.val.rdropWhile isSpace) with
  | .ok parts => Shlex.join parts
  | .error _ => []

def ConfigLine.read : ConfigLine ids → CodeText
  | .silent _ => []
  | .plain _ value => value.read
  | .quoted _ value => value.val

/-! ## One line -/

lemma starts_of_isidentifier (key : Key ids) :
    ∃ c s, key.val = c :: s ∧ ids.starts c = true ∧ s.all ids.continues = true := by
  obtain ⟨key, hkey⟩ := key
  cases key with
  | nil => exact nomatch hkey
  | cons c s =>
    rw [Identifiers.isidentifier, Bool.and_eq_true] at hkey
    exact ⟨c, s, rfl, hkey.1, hkey.2⟩

lemma starts_le_continues {c : ℕ} (h : ids.starts c = true) :
    (Shell.isNameChar c || (decide (128 ≤ c) && (ids.isStart c || ids.isContinue c))) = true := by
  simp only [Identifiers.starts, Bool.or_eq_true, Bool.and_eq_true, Shell.isNameChar] at h ⊢
  tauto

/-- The characters of a key: they are no white space, no equals sign and no `#`. -/
lemma mem_key {key : Key ids} {c : ℕ} (hc : c ∈ key.val) :
    isSpace c = false ∧ c ≠ equals ∧ c ≠ pound := by
  have hchar : (Shell.isNameChar c ||
      (decide (128 ≤ c) && (ids.isStart c || ids.isContinue c))) = true := by
    obtain ⟨d, s, hkey, hd, hs⟩ := starts_of_isidentifier key
    rw [hkey, List.mem_cons] at hc
    obtain rfl | hc := hc
    · exact starts_le_continues hd
    · have := List.all_eq_true.mp hs c hc
      simp only [Identifiers.continues, Bool.or_eq_true, Bool.and_eq_true] at this ⊢
      tauto
  rw [Bool.or_eq_true, Bool.and_eq_true, decide_eq_true_eq] at hchar
  obtain hname | ⟨hlarge, hcont⟩ := hchar
  · have hcode : 48 ≤ c ∧ c ≤ 57 ∨ 65 ≤ c ∧ c ≤ 90 ∨ 97 ≤ c ∧ c ≤ 122 ∨ c = 95 := by
      simp only [Shell.isNameChar, Shell.isNameStart, Shell.isDigit, Bool.or_eq_true,
        decide_eq_true_eq] at hname
      omega
    refine ⟨?_, ?_, ?_⟩
    · simp [isSpace]
      omega
    · unfold equals
      omega
    · unfold pound
      omega
  · refine ⟨ids.not_space c hcont, ?_, ?_⟩
    · unfold equals
      omega
    · unfold pound
      omega

/-- White space at the end is that of the part behind a character that is none. -/
lemma rdropWhile_append {p : ℕ → Bool} {a b : CodeText} {c : ℕ} (hc : p c = false) :
    (a ++ c :: b).rdropWhile p = a ++ c :: b.rdropWhile p := by
  rw [List.rdropWhile, List.rdropWhile, List.reverse_append, List.reverse_cons, List.append_assoc,
    List.dropWhile_append]
  split_ifs with hempty
  · rw [List.isEmpty_iff.mp hempty, List.singleton_append,
      List.dropWhile_cons_of_neg (by simp [hc])]
    simp
  · simp

lemma not_export (key : Key ids) (raw : CodeText) :
    exportWord.isPrefixOf (key.val ++ equals :: raw) = false := by
  rw [← Bool.not_eq_true, List.isPrefixOf_iff_prefix]
  intro hbegin
  have hkey : key.val ++ [equals] <+: key.val ++ equals :: raw := ⟨raw, by simp⟩
  obtain h | h := List.prefix_or_prefix_of_prefix hbegin hkey
  · -- the blank of the word would stand in the key
    have hmem : blank ∈ key.val ++ [equals] := h.subset (by decide)
    rw [List.mem_append, List.mem_singleton] at hmem
    obtain hmem | hmem := hmem
    · exact absurd (mem_key hmem).1 (by decide)
    · exact absurd hmem (by decide)
  · exact absurd (h.subset (List.mem_append_right _ (List.mem_singleton_self equals))) (by decide)

/-- A line that sets a key. -/
lemma parseLine_assignment (number : ℕ) (key : Key ids) (raw : CodeText) :
    parseLine ids number (key.val ++ equals :: raw) =
      match Shlex.split (raw.rdropWhile isSpace) with
      | .error e => .error (errorAt number e.message)
      | .ok parts => .ok (some (key.val, Shlex.join parts)) := by
  obtain ⟨c, s, hkey, -, -⟩ := starts_of_isidentifier key
  have hc : c ∈ key.val := hkey ▸ List.mem_cons_self
  have hstrip : strip (key.val ++ equals :: raw) = key.val ++ equals :: raw.rdropWhile isSpace := by
    rw [strip, hkey, List.cons_append, List.dropWhile_cons_of_neg (by simp [(mem_key hc).1]),
      ← List.cons_append, rdropWhile_append (by decide)]
  have hsilent : ¬(key.val ++ equals :: raw.rdropWhile isSpace = [] ∨
      (key.val ++ equals :: raw.rdropWhile isSpace).head? = some pound) := by
    rw [hkey]
    simpa using (mem_key hc).2.2
  have hequals : ∀ d ∈ key.val, decide (d ≠ equals) = true := fun d hd =>
    decide_eq_true (mem_key hd).2.1
  have htake : (key.val ++ equals :: raw.rdropWhile isSpace).takeWhile (· ≠ equals) = key.val := by
    rw [List.takeWhile_append_of_pos hequals, List.takeWhile_cons_of_neg (by simp),
      List.append_nil]
  have hdrop : ((key.val ++ equals :: raw.rdropWhile isSpace).dropWhile (· ≠ equals)).tail =
      raw.rdropWhile isSpace := by
    rw [List.dropWhile_append_of_pos hequals, List.dropWhile_cons_of_neg (by simp)]
    rfl
  have hkeyStrip : strip key.val = key.val :=
    strip_of_ends (fun d hd => (mem_key (List.mem_of_head? hd)).1)
      fun d hd => (mem_key (List.mem_of_getLast? hd)).1
  have hfound : ¬(equals ∉ key.val ++ equals :: raw.rdropWhile isSpace ∨
      ids.isidentifier (strip key.val) = false) := by
    rw [hkeyStrip, key.property]
    simp
  rw [parseLine, hstrip]
  dsimp only
  rw [if_neg hsilent, withoutExport, not_export, if_neg Bool.false_ne_true, htake, hdrop,
    if_neg hfound, hkeyStrip]

/-- What is read of a line. -/
lemma parseLine_text (number : ℕ) (line : ConfigLine ids) :
    parseLine ids number line.text = .ok (line.key.map fun key => (key, line.read)) := by
  cases line with
  | silent line => exact if_pos line.property
  | plain key value =>
    have hunquoted : ∀ c ∈ value.text.val.rdropWhile isSpace, isUnquoted c = true := fun c hc =>
      value.unquoted c ((List.rdropWhile_prefix _ _).subset hc)
    obtain ⟨ws, hws, -⟩ := split_unquoted hunquoted
    rw [ConfigLine.text, parseLine_assignment, ConfigLine.read, PlainValue.read, hws]
    rfl
  | quoted key value =>
    have hends : (Shlex.quote value.val).rdropWhile isSpace = Shlex.quote value.val := by
      rw [List.rdropWhile_eq_self_iff]
      intro hne h
      rw [getLast_quote (List.getLast?_eq_getLast_of_ne_nil hne)] at h
      exact Bool.false_ne_true h
    rw [ConfigLine.text, parseLine_assignment, hends, split_quote]
    simp [ConfigLine.key, ConfigLine.read, Shlex.join]

/-- **A value without quotes is read as written exactly if it is kept.** -/
lemma PlainValue.read_eq_iff (v : PlainValue) : v.read = v.text.val ↔ v.Kept := by
  by_cases hlast : ∀ c ∈ v.text.val.getLast?, isSpace c = false
  · have hends : v.text.val.rdropWhile isSpace = v.text.val := by
      rw [List.rdropWhile_eq_self_iff]
      intro hne h
      rw [hlast _ (List.getLast?_eq_getLast_of_ne_nil hne)] at h
      exact Bool.false_ne_true h
    obtain ⟨ws, hws, -⟩ := split_unquoted v.unquoted
    have hwhite : (∀ c ∈ v.text.val, isWhite c = true → c = blank) ↔ tab ∉ v.text.val := by
      constructor
      · exact fun h hmem => absurd (h tab hmem (by decide)) (by decide)
      · intro h c hc hwhite
        have hbreak := v.text.property c hc
        have hcases : c = 32 ∨ c = 9 ∨ c = 13 ∨ c = 10 := by simpa [isWhite] using hwhite
        obtain rfl | rfl | rfl | rfl := hcases
        · rfl
        · exact absurd hc h
        · exact absurd hbreak (by decide)
        · exact absurd hbreak (by decide)
    have hblank : v.text.val.getLast? ≠ some blank := fun h =>
      absurd (hlast blank h) (by decide)
    have hhead : v.text.val.head? ≠ some blank := fun h =>
      absurd (v.head blank h).1 (by decide)
    rw [PlainValue.read, hends, hws, join_split_iff v.unquoted hblank hhead hws, hwhite,
      PlainValue.Kept]
    tauto
  · refine iff_of_false (fun h => ?_) fun h => hlast h.2.2.2
    have hshorter : (v.text.val.rdropWhile isSpace).length < v.text.val.length := by
      refine lt_of_le_of_ne (List.rdropWhile_prefix _ _).length_le fun hlength => ?_
      have heq := (List.rdropWhile_prefix isSpace v.text.val).eq_of_length hlength
      refine hlast fun c hc => ?_
      rw [← heq] at hc
      obtain ⟨hne, rfl⟩ := List.mem_getLast?_eq_getLast hc
      exact Bool.eq_false_iff.mpr (List.rdropWhile_last_not _ _ hne)
    have hunquoted : ∀ c ∈ v.text.val.rdropWhile isSpace, isUnquoted c = true := fun c hc =>
      v.unquoted c ((List.rdropWhile_prefix _ _).subset hc)
    obtain ⟨ws, hws, hlength⟩ := split_unquoted hunquoted
    rw [PlainValue.read, hws] at h
    have := congrArg List.length h
    dsimp only at this
    omega

/-! ## The whole file -/

lemma isBreak_text (line : ConfigLine ids) {c : ℕ} (hc : c ∈ line.text) : isBreak c = false := by
  have hkey : ∀ (key : Key ids) (raw : CodeText), (∀ d ∈ raw, isBreak d = false) →
      c ∈ key.val ++ equals :: raw → isBreak c = false := by
    intro key raw hraw hc
    rw [List.mem_append, List.mem_cons] at hc
    obtain hc | rfl | hc := hc
    · have hspace := (mem_key hc).1
      rw [← Bool.not_eq_true] at hspace ⊢
      refine fun h => hspace ?_
      simp [isBreak, isSpace] at h ⊢
      omega
    · decide
    · exact hraw c hc
  cases line with
  | silent line => exact line.val.property c hc
  | plain key value => exact hkey key _ value.text.property hc
  | quoted key value =>
    refine hkey key _ (fun d hd => ?_) hc
    obtain hd | rfl | rfl := mem_quote hd
    · exact value.property d hd
    · decide
    · decide

/-- The lines of a file. -/
lemma splitlines_fileText (lines : List (ConfigLine ids)) (last : ConfigLine ids) :
    splitlines (fileText lines last) =
      lines.map ConfigLine.text ++ if last.text = [] then [] else [last.text] := by
  induction lines with
  | nil =>
    rw [fileText, List.flatMap_nil, List.nil_append, List.map_nil, List.nil_append]
    split_ifs with hempty
    · rw [hempty]
      rfl
    · exact splitlines_of_no_break (fun c hc => isBreak_text last hc) hempty
  | cons line lines ih =>
    have htext : fileText (line :: lines) last = line.text ++ newline :: fileText lines last := by
      simp [fileText]
    have hline : splitlines (line.text ++ [newline]) = [line.text] := by
      by_cases hempty : line.text = []
      · rw [hempty]
        rfl
      · exact splitlines_line (fun c hc => isBreak_text line hc) hempty
    rw [htext, splitlines_append, hline, ih]
    rfl

lemma lastLine_cons (key : CodeText) (line : ConfigLine ids) (lines : List (ConfigLine ids)) :
    lastLine key (line :: lines) =
      (lastLine key lines).or (if line.key = some key then some line else none) := by
  rw [lastLine, List.reverse_cons, List.find?_append, List.find?_singleton]
  simp only [decide_eq_true_eq]
  rfl

/-- The values behind several lines: for each key what its last line is read as. -/
lemma parseLines_lines (lines : List (ConfigLine ids)) (number : ℕ)
    (values : Dict CodeText CodeText) :
    ∃ values', parseLines ids number (lines.map ConfigLine.text) values = .ok values' ∧
      ∀ key, values'.get key = ((lastLine key lines).map ConfigLine.read).or (values.get key) := by
  induction lines generalizing number values with
  | nil => exact ⟨values, rfl, fun key => rfl⟩
  | cons line lines ih =>
    rw [List.map_cons, parseLines, parseLine_text]
    cases hkey : line.key with
    | none =>
      obtain ⟨values', hparse, hget⟩ := ih (number + 1) values
      refine ⟨values', hparse, fun key => ?_⟩
      rw [hget, lastLine_cons, hkey, if_neg (by simp), Option.or_none]
    | some k =>
      obtain ⟨values', hparse, hget⟩ := ih (number + 1) (values.set k line.read)
      refine ⟨values', hparse, fun key => ?_⟩
      rw [hget, lastLine_cons, hkey]
      by_cases hk : k = key
      · rw [if_pos (congrArg some hk), ← hk, Dict.get_set_self]
        cases lastLine k lines <;> rfl
      · rw [if_neg (by simpa using hk), Option.or_none, Dict.get_set_of_ne (fun h => hk h.symm)]

/-- The values behind a whole file. -/
lemma parseConfigFile_fileText (lines : List (ConfigLine ids)) (last : ConfigLine ids) :
    ∃ values, parseConfigFile ids (fileText lines last) = .ok values ∧
      ∀ key, values.get key = (lastLine key (lines ++ [last])).map ConfigLine.read := by
  have hlines : ∃ ls : List (ConfigLine ids),
      splitlines (fileText lines last) = ls.map ConfigLine.text ∧
        ∀ key, lastLine key ls = lastLine key (lines ++ [last]) := by
    by_cases hempty : last.text = []
    · refine ⟨lines, by rw [splitlines_fileText, if_pos hempty, List.append_nil], fun key => ?_⟩
      -- an empty line sets nothing
      have hkey : last.key = none := by
        cases last with
        | silent line => rfl
        | plain key value => exact absurd hempty (by simp [ConfigLine.text])
        | quoted key value => exact absurd hempty (by simp [ConfigLine.text])
      simp [lastLine, hkey]
    · refine ⟨lines ++ [last], ?_, fun key => rfl⟩
      rw [splitlines_fileText, if_neg hempty, List.map_append]
      rfl
  obtain ⟨ls, hsplit, hlast⟩ := hlines
  obtain ⟨values, hparse, hget⟩ := parseLines_lines ls 1 Dict.empty
  refine ⟨values, by rw [parseConfigFile, hsplit, hparse], fun key => ?_⟩
  rw [hget, hlast]
  exact Option.or_none

lemma key_of_lastLine {key : CodeText} {lines : List (ConfigLine ids)} {line : ConfigLine ids}
    (h : lastLine key lines = some line) : line.key = some key := by
  simpa using List.find?_some h

/-- **The file is read as written exactly if** every key whose last line has a value without quotes
has one that is kept: without `#`, tabs, blanks next to each other and white space at the end. -/
theorem parseConfigFile_iff (ids : Identifiers) (lines : List (ConfigLine ids))
    (last : ConfigLine ids) :
    (∃ values, parseConfigFile ids (fileText lines last) = .ok values ∧
      ∀ key, values.get key = (lastLine key (lines ++ [last])).map ConfigLine.value) ↔
    ∀ (key : Key ids) (value : PlainValue),
      lastLine key.val (lines ++ [last]) = some (.plain key value) → value.Kept := by
  obtain ⟨values, hparse, hget⟩ := parseConfigFile_fileText lines last
  constructor
  · rintro ⟨values', hparse', hget'⟩ key value hlast
    obtain rfl : values = values' := Except.ok.inj (hparse.symm.trans hparse')
    have hread := (hget key.val).symm.trans (hget' key.val)
    rw [hlast] at hread
    exact value.read_eq_iff.mp (Option.some.inj hread)
  · intro hkept
    refine ⟨values, hparse, fun key => ?_⟩
    rw [hget]
    cases hlast : lastLine key (lines ++ [last]) with
    | none => rfl
    | some line =>
      have hkey := key_of_lastLine hlast
      cases line with
      | silent line => exact nomatch hkey
      | plain k value =>
        obtain rfl : k.val = key := Option.some.inj hkey
        exact congrArg some (value.read_eq_iff.mpr (hkept k value hlast))
      | quoted k value => rfl

/-- Identifiers of ASCII only. -/
def asciiIdentifiers : Identifiers where
  isStart := fun _ => false
  isContinue := fun _ => false
  not_space := fun _ h => nomatch h

def samplePassword : PlainValue where
  text := ⟨lit "pa#ss", by decide⟩
  unquoted := by decide
  head := by decide
  last := by decide
  noComment := by
    intro b hb hoccurs
    have hmem : b ∈ lit "pa#ss" := hoccurs.subset List.mem_cons_self
    have hcases : b = blank ∨ b = tab := by simpa [isBlank] using hb
    obtain rfl | rfl := hcases
    · exact absurd hmem (by decide)
    · exact absurd hmem (by decide)

def passwordLine : ConfigLine asciiIdentifiers :=
  .plain ⟨lit "HABENY_SMTP_PASSWORD", by decide⟩ samplePassword

/-- A password with a `#` in it is cut off there. -/
theorem password_cut_off :
    (parseConfigFile asciiIdentifiers (fileText [] passwordLine)).toOption.bind
        (·.get (lit "HABENY_SMTP_PASSWORD")) = some (lit "pa") ∧
    ¬∃ values, parseConfigFile asciiIdentifiers (fileText [] passwordLine) = .ok values ∧
      ∀ key, values.get key = (lastLine key [passwordLine]).map ConfigLine.value := by
  have hread : (parseConfigFile asciiIdentifiers (fileText [] passwordLine)).toOption.bind
      (·.get (lit "HABENY_SMTP_PASSWORD")) = some (lit "pa") := by
    decide +kernel
  refine ⟨hread, ?_⟩
  rintro ⟨values, hparse, hget⟩
  rw [hparse] at hread
  have hmeant := (hget (lit "HABENY_SMTP_PASSWORD")).symm.trans hread
  revert hmeant
  decide +kernel

end Habeny.Settings
