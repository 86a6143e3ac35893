import Habeny.Logs.ContainerPath

/-!
# The log paths that a collector watches

After an upload to a container of UTMstack a script adds the path of the upload to the settings
of the collector, a file with a section for the system log and a section for logins.  In the
file as it is installed both sections have their list of paths commented out.

The script looks for a commented list first, and the first one that is left.  So the first path
goes to the section of the system log, and the next one that the file does not have yet to the
section of logins: the scripts do what they are for when they all add the same path, and the
file did not mention it before.
-/

namespace Habeny.Logs

open Habeny.Lib CodeText

/-! ## Lines of the file -/

/-- Whether a text occurs in a line. -/
def contains (word line : CodeText) : Bool := decide (word <:+: line)

/-- Whether a line begins with a word, after any blanks (`^ *word`). -/
def begins (word line : CodeText) : Bool := word.isPrefixOf (line.dropWhile (· == Shell.blank))

/-- `^ *#var\.paths:` -/
def isCommented (line : CodeText) : Bool := begins (lit "#var.paths:") line

/-- `^ *var\.paths:` -/
def isUncommented (line : CodeText) : Bool := begins (lit "var.paths:") line

/-- `enabled: true` -/
def isEnabled (line : CodeText) : Bool := contains (lit "enabled: true") line

def isSyslogHeading (line : CodeText) : Bool := begins (lit "syslog:") line
def isAuthHeading (line : CodeText) : Bool := begins (lit "auth:") line

/-- Whether a line is an entry of a list. -/
def isEntry (line : CodeText) : Bool := begins (lit "- ") line

/-- What an entry lists. -/
def entryOf (line : CodeText) : CodeText := (line.dropWhile (· == Shell.blank)).drop 2

/-- The lines that the script writes. -/
def varPathsLine : CodeText := lit "    var.paths:"
def entryLine (path : CodeText) : CodeText := lit "      - " ++ path

/-- No line begins with two words, if neither of them begins with the other. -/
lemma begins_eq_false {v w line : CodeText} (h : begins v line = true) (hvw : ¬ v <+: w)
    (hwv : ¬ w <+: v) : begins w line = false := by
  rw [Bool.eq_false_iff]
  intro h'
  rw [begins, List.isPrefixOf_iff_prefix] at h h'
  rcases List.prefix_or_prefix_of_prefix h h' with h'' | h''
  · exact hvw h''
  · exact hwv h''

/-! ## The editor -/

/-- A command for the lines that match (`/found/command`). -/
def onMatch (found : CodeText → Bool) (new : CodeText → List CodeText) (line : CodeText) : List CodeText :=
  if found line then new line else [line]

/-- A command on the lines up to and with the first that matches (`sed '0,/found/{command}'`). -/
def upToFirst (found : CodeText → Bool) (command : CodeText → List CodeText) : List CodeText → List CodeText
  | [] => []
  | line :: rest =>
    if found line then command line ++ rest else command line ++ upToFirst found command rest

/-- The command reaches the first line that matches, and no other. -/
lemma upToFirst_eq {found : CodeText → Bool} {new : CodeText → List CodeText} {before after : List CodeText}
    {line : CodeText} (hbefore : ∀ l ∈ before, found l = false) (hline : found line = true) :
    upToFirst found (onMatch found new) (before ++ line :: after) =
      before ++ (new line ++ after) := by
  induction before with
  | nil => simp [upToFirst, onMatch, hline]
  | cons l before ih =>
    have hl : found l = false := hbefore l (by simp)
    simp only [List.cons_append, upToFirst, onMatch, hl, Bool.false_eq_true, if_false,
      List.nil_append, List.cons.injEq, true_and]
    exact ih fun m hm => hbefore m (List.mem_cons_of_mem l hm)

/-! ## The script -/

/-- Take the comment off the list of paths, with one entry in it. -/
def uncomment (path : CodeText) : List CodeText → List CodeText :=
  upToFirst isCommented (onMatch isCommented fun _ => [varPathsLine, entryLine path])

/-- Put an entry below the heading of the list of paths. -/
def appendEntry (path : CodeText) : List CodeText → List CodeText :=
  upToFirst isUncommented (onMatch isUncommented fun line => [line, entryLine path])

/-- Put a list of paths below the line that enables a section. -/
def appendList (path : CodeText) : List CodeText → List CodeText :=
  upToFirst isEnabled (onMatch isEnabled fun line => [line, [], varPathsLine, entryLine path])

/-- Whether a line of the file has the path in it (`grep -qF`). -/
def mentions (path : CodeText) (file : List CodeText) : Bool := file.any (contains path)

/-- What the script makes of a file that does not have the path in it. -/
def addPath (path : CodeText) (file : List CodeText) : List CodeText :=
  if file.any isCommented then uncomment path file
  else if file.any isUncommented then appendEntry path file
  else appendList path file

/-- The script for a path: the file it leaves, if there is one, and what it prints
(`_build_utmstack_filebeat_script`). -/
def buildUtmstackFilebeatScript (path : ContainerPath) :
    Option (List CodeText) → Option (List CodeText) × List CodeText
  | none => (none, [])
  | some file =>
    if mentions path.text file then
      (some file, [lit "Path " ++ path.text ++ lit " already in filebeat config"])
    else
      (some (addPath path.text file),
        [lit "UTMstack filebeat config updated for " ++ path.text])

/-- The file after the scripts for some paths. -/
def runScripts (paths : List ContainerPath) (yml : Option (List CodeText)) : Option (List CodeText) :=
  paths.foldl (fun yml path => (buildUtmstackFilebeatScript path yml).1) yml

/-- The script on a file that is there. -/
def edited (path : CodeText) (file : List CodeText) : List CodeText :=
  if mentions path file then file else addPath path file

lemma buildUtmstackFilebeatScript_some (path : ContainerPath) (file : List CodeText) :
    (buildUtmstackFilebeatScript path (some file)).1 = some (edited path.text file) := by
  show (if mentions path.text file then _ else _ : Option (List CodeText) × List CodeText).1 = _
  unfold edited
  split
  · rfl
  · rfl

lemma runScripts_concat (paths : List ContainerPath) (path : ContainerPath)
    (yml : Option (List CodeText)) :
    runScripts (paths ++ [path]) yml =
      (buildUtmstackFilebeatScript path (runScripts paths yml)).1 := by
  simp [runScripts]

/-! ## Sections -/

/-- The lines below the first heading of a kind. -/
def sectionAfter (heading : CodeText → Bool) (file : List CodeText) : List CodeText :=
  (file.dropWhile fun line => !heading line).tail

/-- The section of the system log. -/
def syslogSection (file : List CodeText) : List CodeText :=
  (sectionAfter isSyslogHeading file).takeWhile fun line => !isAuthHeading line

/-- The section of logins, which comes after it. -/
def authSection (file : List CodeText) : List CodeText :=
  sectionAfter isAuthHeading (sectionAfter isSyslogHeading file)

/-- The paths that the section of the system log lists. -/
def syslogPaths (file : List CodeText) : List CodeText :=
  ((sectionAfter isUncommented (syslogSection file)).takeWhile isEntry).map entryOf

lemma sectionAfter_cons (heading : CodeText → Bool) (line : CodeText) (file : List CodeText) :
    sectionAfter heading (line :: file) =
      if heading line then file else sectionAfter heading file := by
  unfold sectionAfter
  cases h : heading line <;> simp [h]

/-- What is below a heading, with no other of its kind above. -/
lemma sectionAfter_append {heading : CodeText → Bool} {before after : List CodeText} {line : CodeText}
    (hbefore : ∀ l ∈ before, heading l = false) (hline : heading line = true) :
    sectionAfter heading (before ++ line :: after) = after := by
  induction before with
  | nil => simp [sectionAfter_cons, hline]
  | cons l before ih =>
    rw [List.cons_append, sectionAfter_cons, hbefore l (by simp), if_neg (by simp)]
    exact ih fun m hm => hbefore m (List.mem_cons_of_mem l hm)

lemma sectionAfter_eq_nil {heading : CodeText → Bool} {file : List CodeText}
    (h : ∀ l ∈ file, heading l = false) : sectionAfter heading file = [] := by
  induction file with
  | nil => rfl
  | cons l file ih =>
    rw [sectionAfter_cons, h l (by simp), if_neg (by simp)]
    exact ih fun m hm => h m (List.mem_cons_of_mem l hm)

/-! ## Sections never get shorter -/

/-- Whether a line is not the heading of a section. -/
def isPlain (line : CodeText) : Bool := !isSyslogHeading line && !isAuthHeading line

/-- One file comes from another by putting lines in and changing lines, no heading among them. -/
inductive Grown : List CodeText → List CodeText → Prop
  | nil : Grown [] []
  | keep (line : CodeText) {file file' : List CodeText} : Grown file file' →
      Grown (line :: file) (line :: file')
  | change {line line' : CodeText} {file file' : List CodeText} : isPlain line = true →
      isPlain line' = true → Grown file file' → Grown (line :: file) (line' :: file')
  | insert {line' : CodeText} {file file' : List CodeText} : isPlain line' = true → Grown file file' →
      Grown file (line' :: file')

namespace Grown

lemma refl (file : List CodeText) : Grown file file := by
  induction file with
  | nil => exact .nil
  | cons line file ih => exact .keep line ih

lemma length_le {file file' : List CodeText} (h : Grown file file') :
    file.length ≤ file'.length := by
  induction h with
  | nil => exact le_rfl
  | keep _ _ ih => simpa using ih
  | change _ _ _ ih => simpa using ih
  | insert _ _ ih => simp only [List.length_cons]; omega

/-- What is below a heading has grown as well. -/
lemma sectionAfter {heading : CodeText → Bool} (hplain : ∀ l, isPlain l = true → heading l = false)
    {file file' : List CodeText} (h : Grown file file') :
    Grown (sectionAfter heading file) (sectionAfter heading file') := by
  induction h with
  | nil => exact .nil
  | keep line h ih =>
    rw [sectionAfter_cons, sectionAfter_cons]
    by_cases hl : heading line = true
    · simpa [hl] using h
    · simpa [hl] using ih
  | change hline hline' _ ih =>
    rw [sectionAfter_cons, sectionAfter_cons, hplain _ hline, hplain _ hline']
    simpa using ih
  | insert hline' _ ih =>
    rw [sectionAfter_cons, hplain _ hline']
    simpa using ih

/-- The section of logins never gets shorter. -/
lemma authSection_length_le {file file' : List CodeText} (h : Grown file file') :
    (authSection file).length ≤ (authSection file').length := by
  have hsyslog : ∀ l, isPlain l = true → isSyslogHeading l = false := by
    intro l hl
    simp only [isPlain, Bool.and_eq_true, Bool.not_eq_true'] at hl
    exact hl.1
  have hauth : ∀ l, isPlain l = true → isAuthHeading l = false := by
    intro l hl
    simp only [isPlain, Bool.and_eq_true, Bool.not_eq_true'] at hl
    exact hl.2
  exact ((h.sectionAfter hsyslog).sectionAfter hauth).length_le

end Grown

/-- A command that grows the lines that match grows the file. -/
lemma grown_upToFirst {found : CodeText → Bool} {new : CodeText → List CodeText}
    (hnew : ∀ l, found l = true → ∀ file, Grown (l :: file) (new l ++ file)) (file : List CodeText) :
    Grown file (upToFirst found (onMatch found new) file) := by
  induction file with
  | nil => exact .nil
  | cons line file ih =>
    by_cases h : found line = true
    · simpa [upToFirst, onMatch, h] using hnew line h file
    · simpa [upToFirst, onMatch, h] using Grown.keep line ih

/-- A comment, an entry and the heading of a list are not headings of sections. -/
lemma isPlain_of_begins {word line : CodeText} (h : begins word line = true)
    (hsyslog : ¬ word <+: lit "syslog:" ∧ ¬ lit "syslog:" <+: word)
    (hauth : ¬ word <+: lit "auth:" ∧ ¬ lit "auth:" <+: word) : isPlain line = true := by
  unfold isPlain isSyslogHeading isAuthHeading
  rw [begins_eq_false h hsyslog.1 hsyslog.2, begins_eq_false h hauth.1 hauth.2]
  rfl

lemma begins_entryLine (path : CodeText) : begins (lit "- ") (entryLine path) = true := by
  simp [begins, entryLine, lit, Shell.blank]

lemma isPlain_entryLine (path : CodeText) : isPlain (entryLine path) = true :=
  isPlain_of_begins (begins_entryLine path) (by decide) (by decide)

lemma isPlain_varPathsLine : isPlain varPathsLine = true := by decide

/-- The script only grows the file. -/
lemma grown_edited (path : CodeText) (file : List CodeText) : Grown file (edited path file) := by
  unfold edited addPath
  split
  · exact Grown.refl file
  split
  · refine grown_upToFirst (fun l hl file => ?_) file
    have hplain : isPlain l = true := isPlain_of_begins hl (by decide) (by decide)
    exact .change hplain isPlain_varPathsLine (.insert (isPlain_entryLine path) (.refl file))
  split
  · exact grown_upToFirst
      (fun l _ file => .keep l (.insert (isPlain_entryLine path) (.refl file))) file
  · exact grown_upToFirst
      (fun l _ file => .keep l (.insert (by decide) (.insert isPlain_varPathsLine
        (.insert (isPlain_entryLine path) (.refl file))))) file

/-! ## The file as it is installed -/

/-- A file with a section for the system log and a section for logins below it, each with its
list of paths commented out. -/
structure SystemYml where
  head : List CodeText
  syslogHeading : CodeText
  /-- The lines of the first section, above and below the commented list. -/
  top : List CodeText
  commented : CodeText
  rest : List CodeText
  authHeading : CodeText
  auth : List CodeText
  head_plain : ∀ l ∈ head, isSyslogHeading l = false ∧ isCommented l = false
  syslog_heading : isSyslogHeading syslogHeading = true
  syslog_lines : ∀ l ∈ top ++ rest,
    isAuthHeading l = false ∧ isCommented l = false ∧ isUncommented l = false
  syslog_commented : isCommented commented = true
  /-- A list that is commented out has no entries. -/
  syslog_no_entry : ∀ l ∈ rest.head?, isEntry l = false
  auth_heading : isAuthHeading authHeading = true
  auth_commented : auth.any isCommented = true

namespace SystemYml

variable (Y : SystemYml)

/-- The file with given lines in its sections. -/
def layout (syslog auth : List CodeText) : List CodeText :=
  Y.head ++ Y.syslogHeading :: (syslog ++ Y.authHeading :: auth)

/-- The lines of the file. -/
def lines : List CodeText := Y.layout (Y.top ++ Y.commented :: Y.rest) Y.auth

/-- The first section with one path in its list. -/
def listing (path : CodeText) : List CodeText := Y.top ++ varPathsLine :: entryLine path :: Y.rest

/-- The file with one path in the list of the first section. -/
def withPath (path : CodeText) : List CodeText := Y.layout (Y.listing path) Y.auth

variable {Y} {syslog auth : List CodeText}

lemma sectionAfter_layout : sectionAfter isSyslogHeading (Y.layout syslog auth) =
    syslog ++ Y.authHeading :: auth :=
  sectionAfter_append (fun l hl => (Y.head_plain l hl).1) Y.syslog_heading

lemma authSection_layout (h : ∀ l ∈ syslog, isAuthHeading l = false) :
    authSection (Y.layout syslog auth) = auth := by
  rw [authSection, sectionAfter_layout, sectionAfter_append h Y.auth_heading]

lemma syslogSection_layout (h : ∀ l ∈ syslog, isAuthHeading l = false) :
    syslogSection (Y.layout syslog auth) = syslog := by
  rw [syslogSection, sectionAfter_layout,
    List.takeWhile_append_of_pos fun l hl => by simp [h l hl]]
  simp [Y.auth_heading]

/-- What a commented line is not. -/
lemma commented_plain : isAuthHeading Y.commented = false ∧ isUncommented Y.commented = false :=
  ⟨begins_eq_false Y.syslog_commented (by decide) (by decide),
    begins_eq_false Y.syslog_commented (by decide) (by decide)⟩

lemma mem_syslog {l : CodeText} (hl : l ∈ Y.top ++ Y.commented :: Y.rest) :
    isAuthHeading l = false ∧ isUncommented l = false := by
  have hcases : l = Y.commented ∨ l ∈ Y.top ++ Y.rest := by
    simp only [List.mem_append, List.mem_cons] at hl ⊢
    tauto
  rcases hcases with rfl | hl
  · exact Y.commented_plain
  · exact ⟨(Y.syslog_lines l hl).1, (Y.syslog_lines l hl).2.2⟩

lemma mem_listing {path l : CodeText} (hl : l ∈ Y.listing path) :
    isAuthHeading l = false ∧ isCommented l = false := by
  have hcases : l = varPathsLine ∨ l = entryLine path ∨ l ∈ Y.top ++ Y.rest := by
    simp only [listing, List.mem_append, List.mem_cons] at hl ⊢
    tauto
  rcases hcases with rfl | rfl | hl
  · decide
  · exact ⟨begins_eq_false (begins_entryLine path) (by decide) (by decide),
      begins_eq_false (begins_entryLine path) (by decide) (by decide)⟩
  · exact ⟨(Y.syslog_lines l hl).1, (Y.syslog_lines l hl).2.1⟩

@[simp] lemma authSection_lines : authSection Y.lines = Y.auth :=
  authSection_layout fun _ hl => (mem_syslog hl).1

@[simp] lemma authSection_withPath (path : CodeText) : authSection (Y.withPath path) = Y.auth :=
  authSection_layout fun _ hl => (mem_listing hl).1

/-- At first no path is listed. -/
@[simp] lemma syslogPaths_lines : syslogPaths Y.lines = [] := by
  rw [syslogPaths, lines, syslogSection_layout fun l hl => (mem_syslog hl).1,
    sectionAfter_eq_nil fun l hl => (mem_syslog hl).2]
  rfl

/-- Then the one path is. -/
@[simp] lemma syslogPaths_withPath (path : CodeText) : syslogPaths (Y.withPath path) = [path] := by
  have htop : ∀ l ∈ Y.top, isUncommented l = false :=
    fun l hl => (Y.syslog_lines l (List.mem_append_left _ hl)).2.2
  have hrest : Y.rest.takeWhile isEntry = [] := by
    cases hY : Y.rest with
    | nil => rfl
    | cons l rest => simp [Y.syslog_no_entry l (by simp [hY])]
  rw [syslogPaths, withPath, syslogSection_layout fun l hl => (mem_listing hl).1, listing,
    sectionAfter_append htop (by decide)]
  have hentry : isEntry (entryLine path) = true := begins_entryLine path
  rw [List.takeWhile_cons_of_pos hentry, hrest]
  rfl

/-! ## The first path, and the next one -/

/-- The first path goes to the first section. -/
lemma edited_lines {path : CodeText} (h : mentions path Y.lines = false) :
    edited path Y.lines = Y.withPath path := by
  have hsplit : Y.lines = (Y.head ++ Y.syslogHeading :: Y.top) ++
      Y.commented :: (Y.rest ++ Y.authHeading :: Y.auth) := by
    simp [lines, layout]
  have hbefore : ∀ l ∈ Y.head ++ Y.syslogHeading :: Y.top, isCommented l = false := by
    intro l hl
    rcases List.mem_append.mp hl with hl | hl
    · exact (Y.head_plain l hl).2
    rcases List.mem_cons.mp hl with rfl | hl
    · exact begins_eq_false Y.syslog_heading (by decide) (by decide)
    · exact (Y.syslog_lines l (List.mem_append_left _ hl)).2.1
  have hany : Y.lines.any isCommented = true :=
    List.any_eq_true.mpr ⟨Y.commented, by simp [hsplit], Y.syslog_commented⟩
  rw [edited, h, if_neg (by simp), addPath, if_pos hany, uncomment, hsplit,
    upToFirst_eq hbefore Y.syslog_commented]
  simp [withPath, layout, listing]

/-- The path is then in the file. -/
lemma edited_withPath_self (path : CodeText) :
    edited path (Y.withPath path) = Y.withPath path := by
  have hentry : contains path (entryLine path) = true :=
    decide_eq_true (List.suffix_append _ path).isInfix
  have hmem : entryLine path ∈ Y.withPath path := by simp [withPath, layout, listing]
  have h : mentions path (Y.withPath path) = true := List.any_eq_true.mpr ⟨_, hmem, hentry⟩
  rw [edited, h, if_pos rfl]

/-- Another path goes to the second section, whose list is the first commented one now. -/
lemma edited_withPath {path other : CodeText} (h : mentions other (Y.withPath path) = false) :
    Y.auth.length < (authSection (edited other (Y.withPath path))).length := by
  obtain ⟨line, hline⟩ := Option.isSome_iff_exists.mp
    (List.find?_isSome.mpr (List.any_eq_true.mp Y.auth_commented))
  obtain ⟨hcommented, before, after, hauth, hbefore⟩ := List.find?_eq_some_iff_append.mp hline
  have hsplit : Y.withPath path =
      (Y.head ++ Y.syslogHeading :: (Y.listing path ++ Y.authHeading :: before)) ++
        line :: after := by
    simp [withPath, layout, hauth]
  have hnone : ∀ l ∈ Y.head ++ Y.syslogHeading :: (Y.listing path ++ Y.authHeading :: before),
      isCommented l = false := by
    intro l hl
    rcases List.mem_append.mp hl with hl | hl
    · exact (Y.head_plain l hl).2
    rcases List.mem_cons.mp hl with rfl | hl
    · exact begins_eq_false Y.syslog_heading (by decide) (by decide)
    rcases List.mem_append.mp hl with hl | hl
    · exact (mem_listing hl).2
    rcases List.mem_cons.mp hl with rfl | hl
    · exact begins_eq_false Y.auth_heading (by decide) (by decide)
    · simpa using hbefore l hl
  have hany : (Y.withPath path).any isCommented = true :=
    List.any_eq_true.mpr ⟨line, by simp [hsplit], hcommented⟩
  have hedited : edited other (Y.withPath path) = Y.layout (Y.listing path)
      (before ++ ([varPathsLine, entryLine other] ++ after)) := by
    rw [edited, h, if_neg (by simp), addPath, if_pos hany, uncomment, hsplit,
      upToFirst_eq hnone hcommented]
    simp [layout]
  rw [hedited, authSection_layout fun l hl => (mem_listing hl).1, hauth]
  simp only [List.length_append, List.length_cons]
  omega

end SystemYml

/-! ## Runs -/

/-- A script whose path is there leaves the file as it is, and so do many. -/
lemma runScripts_of_fixed {paths : List ContainerPath} {file : List CodeText}
    (h : ∀ p ∈ paths, edited p.text file = file) :
    runScripts paths (some file) = some file := by
  induction paths with
  | nil => rfl
  | cons p paths ih =>
    have hp : (buildUtmstackFilebeatScript p (some file)).1 = some file := by
      rw [buildUtmstackFilebeatScript_some, h p (by simp)]
    show runScripts paths (buildUtmstackFilebeatScript p (some file)).1 = some file
    rw [hp]
    exact ih fun q hq => h q (List.mem_cons_of_mem p hq)

/-- Where the scripts for some paths can have come to. -/
inductive Reached (Y : SystemYml) (paths : List ContainerPath) : List CodeText → Prop
  | start : Reached Y paths Y.lines
  | first (p : ContainerPath) : p ∈ paths → mentions p.text Y.lines = false →
      Reached Y paths (Y.withPath p.text)
  | spilled {file : List CodeText} : Y.auth.length < (authSection file).length →
      Reached Y paths file

/-- One more script. -/
lemma Reached.step {Y : SystemYml} {paths : List ContainerPath} {file : List CodeText}
    (h : Reached Y paths file) (p : ContainerPath) :
    Reached Y (paths ++ [p]) (edited p.text file) := by
  cases h with
  | start =>
    by_cases hp : mentions p.text Y.lines = true
    · rw [edited, if_pos hp]
      exact .start
    · rw [SystemYml.edited_lines (by simpa using hp)]
      exact .first p (by simp) (by simpa using hp)
  | first q hq hstart =>
    by_cases hp : mentions p.text (Y.withPath q.text) = true
    · rw [edited, if_pos hp]
      exact .first q (List.mem_append_left _ hq) hstart
    · exact .spilled (SystemYml.edited_withPath (by simpa using hp))
  | spilled hlt =>
    exact .spilled (lt_of_lt_of_le hlt (grown_edited p.text file).authSection_length_le)

/-- Every run comes to one of these. -/
lemma reached_run (Y : SystemYml) (paths : List ContainerPath) :
    ∃ file, runScripts paths (some Y.lines) = some file ∧ Reached Y paths file := by
  induction paths using List.reverseRecOn with
  | nil => exact ⟨Y.lines, rfl, .start⟩
  | append_singleton paths p ih =>
    obtain ⟨file, hrun, hreached⟩ := ih
    refine ⟨edited p.text file, ?_, hreached.step p⟩
    rw [runScripts_concat, hrun, buildUtmstackFilebeatScript_some]

/-- The scripts for one path, again and again. -/
lemma runScripts_same {Y : SystemYml} {p : ContainerPath} {paths : List ContainerPath}
    (hsame : ∀ q ∈ paths, q = p) (hstart : mentions p.text Y.lines = false) :
    runScripts (p :: paths) (some Y.lines) = some (Y.withPath p.text) := by
  have hfirst : (buildUtmstackFilebeatScript p (some Y.lines)).1 = some (Y.withPath p.text) := by
    rw [buildUtmstackFilebeatScript_some, SystemYml.edited_lines hstart]
  show runScripts paths (buildUtmstackFilebeatScript p (some Y.lines)).1 = _
  rw [hfirst]
  refine runScripts_of_fixed fun q hq => ?_
  rw [hsame q hq, SystemYml.edited_withPath_self]

/-- What the scripts for some paths are for: each path is listed once for the system log, what
was listed stays so, the section of logins stays as it is, and no path is added again. -/
structure Collected (start : List CodeText) (paths : List ContainerPath) (file : List CodeText) :
    Prop where
  listed : ∀ p ∈ paths, (syslogPaths file).count p.text = 1
  kept : ∀ earlier file', earlier <+: paths → runScripts earlier (some start) = some file' →
    (syslogPaths file').Sublist (syslogPaths file)
  logins : authSection file = authSection start
  settled : ∀ p ∈ paths, runScripts [p] (some file) = some file

/-- The scripts for some paths do what they are for. -/
def Collects (start : List CodeText) (paths : List ContainerPath) : Prop :=
  ∃ file, runScripts paths (some start) = some file ∧ Collected start paths file

/-- The scripts do what they are for when all their paths are one, and the file as it is
installed does not have it anywhere. -/
theorem collects_iff (Y : SystemYml) (paths : List ContainerPath) :
    Collects Y.lines paths ↔
      ∀ p ∈ paths, (∀ q ∈ paths, q = p) ∧ mentions p.text Y.lines = false := by
  constructor
  · rintro ⟨file, hrun, hcollected⟩ p hp
    obtain ⟨file', hrun', hreached⟩ := reached_run Y paths
    obtain rfl : file = file' := Option.some_inj.mp (hrun.symm.trans hrun')
    cases hreached with
    | start =>
      have hlisted := hcollected.listed p hp
      simp at hlisted
    | first r hr hstart =>
      have hone : ∀ q ∈ paths, q = r := by
        intro q hq
        have hlisted := hcollected.listed q hq
        rw [SystemYml.syslogPaths_withPath, List.count_singleton] at hlisted
        have htext : r.text = q.text := by
          by_contra hne
          simp [hne] at hlisted
        exact ContainerPath.ext htext.symm
      obtain rfl := hone p hp
      exact ⟨hone, hstart⟩
    | spilled hlt =>
      rw [hcollected.logins, SystemYml.authSection_lines] at hlt
      exact absurd hlt (lt_irrefl _)
  · intro h
    cases paths with
    | nil =>
      refine ⟨Y.lines, rfl, by simp, ?_, rfl, by simp⟩
      intro earlier file' hearlier hrun
      obtain rfl := List.prefix_nil.mp hearlier
      obtain rfl : Y.lines = file' := Option.some_inj.mp hrun
      exact List.Sublist.refl _
    | cons p paths =>
      obtain ⟨hsame, hstart⟩ := h p (by simp)
      have htail : ∀ q ∈ paths, q = p := fun q hq => hsame q (List.mem_cons_of_mem p hq)
      refine ⟨Y.withPath p.text, runScripts_same htail hstart, ?_, ?_, by simp, ?_⟩
      · intro q hq
        rw [hsame q hq]
        simp
      · intro earlier file' hearlier hrun
        cases earlier with
        | nil =>
          obtain rfl : Y.lines = file' := Option.some_inj.mp hrun
          simp
        | cons q earlier =>
          obtain ⟨rfl, hleads⟩ := List.cons_prefix_cons.mp hearlier
          rw [runScripts_same (fun r hr => htail r (hleads.mem hr)) hstart] at hrun
          obtain rfl := Option.some_inj.mp hrun
          exact List.Sublist.refl _
      · intro q hq
        rw [hsame q hq]
        refine runScripts_of_fixed fun r hr => ?_
        rw [List.mem_singleton.mp hr, SystemYml.edited_withPath_self]

/-- The file as the collector's package has it. -/
def defaultSystemYml : SystemYml where
  head := [lit "# Module: system", [], lit "- module: system", lit "  # Syslog"]
  syslogHeading := lit "  syslog:"
  top := [lit "    enabled: true", []]
  commented := lit "    #var.paths:"
  rest := [[], lit "  # Authorization logs"]
  authHeading := lit "  auth:"
  auth := [lit "    enabled: true", [], lit "    #var.paths:"]
  head_plain := by decide
  syslog_heading := by decide
  syslog_lines := by decide
  syslog_commented := by decide
  syslog_no_entry := by decide
  auth_heading := by decide
  auth_commented := by decide

/-- The paths of two uploads. -/
def firstLog : ContainerPath := ⟨lit "/var/log/app.log", by decide⟩
def secondLog : ContainerPath := ⟨lit "/var/log/web.log", by decide⟩

/-- The second of two paths is listed for logins, not for the system log. -/
theorem second_path_misses : ¬ Collects defaultSystemYml.lines [firstLog, secondLog] := by
  rintro ⟨file, hrun, hcollected⟩
  have hcount : (runScripts [firstLog, secondLog] (some defaultSystemYml.lines)).map
      (fun file => (syslogPaths file).count secondLog.text) = some 0 := by
    decide +kernel
  rw [hrun, Option.map_some, hcollected.listed secondLog (by simp)] at hcount
  simp at hcount

end Habeny.Logs
