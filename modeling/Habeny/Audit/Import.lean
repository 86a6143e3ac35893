import Habeny.Audit.Recording
import Habeny.Lib.JsonLimits
import Habeny.Lib.PyRepr

/-!
# Importing the activity files

Earlier versions wrote one JSON object on a line for every action.  The migration that makes the
audit log appends an entry for each of them, file after file.  It hashes the values as they were
read, and the columns of the log hold texts: a number becomes its text there.

The import is intact if it does not raise, has one entry for every object with an action, and the
log then verifies.  `import_intact_iff` says exactly for which files it is.
-/

namespace Habeny.Audit.Import

open Habeny.Lib Habeny.Lib.CodeText Habeny.Audit.Recording

/-- What the import depends on besides the files: the hash, how bytes are decoded with
`errors="replace"`, how deeply values may be nested where they are read, written as JSON and
written by `repr`, what can be printed, and how the database writes a real as a text. -/
structure ImportEnv (F : JsonText.FloatText) where
  sha256 : Text → Text
  decode : ByteArray → CodeText
  loadDepth : ℕ
  dumpDepth : ℕ
  reprDepth : ℕ
  printables : PyRepr.Printables
  realText : PyFloat F → Text

/-- A file beside the database.  Its content is `none` where it cannot be read. -/
structure LegacyFile where
  name : CodeText
  content : Option ByteArray

variable {F : JsonText.FloatText} [DecidablePred F.isFloat] (env : ImportEnv F)

namespace ImportEnv

/-- The log's hash, where all details are texts. -/
def audit : AuditEnv Empty where
  sha256 := env.sha256
  canonicalDetails := fun d => d.elim

def limits : JsonScan.Limits where
  depth := env.loadDepth
  digits := fun k => decide (k ≤ JsonText.maxDigits)

end ImportEnv

/-! ## The lines -/

/-- `activity_*.json` -/
def isActivityFile (f : LegacyFile) : Bool :=
  (lit "activity_").isPrefixOf f.name && (lit ".json").isSuffixOf f.name &&
    decide (14 ≤ f.name.length)

def sortedFiles (files : List LegacyFile) : List LegacyFile :=
  (files.filter isActivityFile).insertionSort fun f g => !decide (g.name < f.name)

def linesOfFile (f : LegacyFile) : List CodeText :=
  match f.content with
  | none => []
  | some bytes => splitlines (universalNewlines (env.decode bytes))

def lines (files : List LegacyFile) : List CodeText := (sortedFiles files).flatMap (linesOfFile env)

def get (e : JsonEntries) (key : String) : Option JsonValue := e.lookup (lit key)

def hasAction (e : JsonEntries) : Bool := (get e "action").any JsonValue.truthy

def isBraced (line : CodeText) : Bool :=
  decide (line.head? = some (JsonText.code '{')) &&
    decide (line.getLast? = some (JsonText.code '}'))

/-- The object of a line, unless the line is passed over. -/
def readLine (line : CodeText) : Except PyError (Option JsonEntries) :=
  let line := strip line
  if isBraced line then
    match JsonScan.loads F env.limits line with
    | .error .value => .ok none
    | .error .recursion => .error .recursionError
    | .ok (.dict e) => .ok (if hasAction e then some e else none)
    | .ok _ => .ok none
  else .ok none

/-! ## The entries -/

def timestamp (e : JsonEntries) : JsonValue := (get e "timestamp").getD (.str [])
def action (e : JsonEntries) : JsonValue := (get e "action").getD .null
def status (e : JsonEntries) : JsonValue := (get e "status").getD (.str (lit "success"))

/-- A value of an object, which may be absent. -/
def valueOf (F : JsonText.FloatText) [DecidablePred F.isFloat] (value : Option JsonValue) :
    PyValue F := (value.map (PyRepr.ofJson F)).getD .none

/-- The details, in an object if they are none. -/
def details (F : JsonText.FloatText) [DecidablePred F.isFloat] (e : JsonEntries) : PyValue F :=
  match get e "details" with
  | some (.dict d) => PyRepr.ofJson F (.dict d)
  | value => .dict [(.str (PyStr.lit "value"), valueOf F value)]

/-- What `append` is given here: the user, the token and the request's id may be any values. -/
structure Row (F : JsonText.FloatText) where
  ts : PyStr
  action : PyStr
  status : PyStr
  user : PyValue F
  token : PyValue F
  requestId : PyValue F
  details : PyValue F

def rowOf (e : JsonEntries) : Except PyError (Row F) := do
  let ts ← PyRepr.str F env.printables env.reprDepth (timestamp e)
  let action ← PyRepr.str F env.printables env.reprDepth (action e)
  let status ← PyRepr.str F env.printables env.reprDepth (status e)
  return { ts, action, status, user := valueOf F (get e "user"), token := valueOf F (get e "token"),
           requestId := valueOf F (get e "request_id"), details := details F e }

/-- What a column of texts holds of a value.  A value that is no scalar cannot be bound. -/
def column : PyValue F → Except Failure (Option PyStr)
  | .none => .ok none
  | .str t => .ok (some t)
  | .bool b => .ok (some (if b then PyStr.lit "1" else PyStr.lit "0"))
  | .int n =>
    if isInt64 n then .ok (some (PyStr.ofText (Json.intText n)))
    else .error (.raised .overflowError)
  | .float .nan => .ok none
  | .float x => .ok (some (PyStr.ofText (env.realText x)))
  | _ => .error .sqlite

/-- The array that the hash is taken of. -/
def link (prevHash : Text) (id : ℤ) (r : Row F) (details : CodeText) : PyValue F :=
  .list [.str (.ofText prevHash), .int id, .str r.ts, .str r.action, .str r.status, r.user, r.token,
    .none, r.requestId, .str (.ofPoints details)]

/-- What the columns beside the texts hold. -/
structure Columns where
  user : Option PyStr
  token : Option PyStr
  requestId : Option PyStr

/-- The row that is inserted, after the hash was taken of `text`. -/
def newRow (log : AuditLog) (r : Row F) (details text : CodeText) (c : Columns) : Entry :=
  { id := log.lastPlace.1 + 1, ts := r.ts.chars, action := r.action.chars,
    status := r.status.chars, user := c.user.map PyStr.chars, token := c.token.map PyStr.chars,
    ip := none, requestId := c.requestId.map PyStr.chars, details := details.map Char.ofNat,
    prevHash := log.lastPlace.2, hash := env.sha256 (text.map Char.ofNat) }

/-- Add one entry (`append`). -/
def append (log : AuditLog) (r : Row F) : Except Failure AuditLog := do
  let details ← (canonicalDetails env.dumpDepth r.details).mapError .raised
  let id := log.lastPlace.1 + 1
  let text ← (PyJson.dumps linkOptions env.dumpDepth
    (link log.lastPlace.2 id r details)).mapError .raised
  if !encodable text then .error (.raised .unicodeEncodeError)
  if !isInt64 id then .error (.raised .overflowError)
  let user ← column env r.user
  let token ← column env r.token
  let requestId ← column env r.requestId
  return insert log (newRow env log r details text { user, token, requestId }) rfl

def importEntry (log : AuditLog) (e : JsonEntries) : Except Failure AuditLog := do
  let r ← (rowOf env e).mapError .raised
  append env log r

def importLine (log : AuditLog) (line : CodeText) : Except Failure AuditLog := do
  let e ← (readLine env line).mapError .raised
  match e with
  | none => return log
  | some e => importEntry env log e

/-- Bring in the files written by earlier versions, oldest first. -/
def importActivityFiles (files : List LegacyFile) : Except Failure AuditLog :=
  (lines env files).foldlM (importLine env) .empty

/-! ## What the import is for -/

/-- The object of a line that is one with an action, however it may be nested. -/
def legacyEntry (F : JsonText.FloatText) (line : CodeText) : Option JsonEntries :=
  match JsonScan.unlimited F (strip line) with
  | some (.dict e) => if hasAction e then some e else none
  | _ => none

/-- The objects of the files, in their order. -/
def legacyEntries (files : List LegacyFile) : List JsonEntries :=
  (lines env files).filterMap (legacyEntry F)

/-- A column holds a string or null as it is; of other values nothing is said. -/
def Holds (stored : Option Text) (value : Option JsonValue) : Prop :=
  match value with
  | none | some .null => stored = none
  | some (.str t) => ∃ s, stored = some s ∧ s.map Char.toNat = (PyStr.ofPoints t).points
  | some _ => True

/-- An entry has what the object says. -/
structure Imported (e : JsonEntries) (entry : Entry) : Prop where
  ts : (PyRepr.str F env.printables env.reprDepth (timestamp e)).map PyStr.points =
    .ok (entry.ts.map Char.toNat)
  action : (PyRepr.str F env.printables env.reprDepth (action e)).map PyStr.points =
    .ok (entry.action.map Char.toNat)
  status : (PyRepr.str F env.printables env.reprDepth (status e)).map PyStr.points =
    .ok (entry.status.map Char.toNat)
  user : Holds entry.user (get e "user")
  token : Holds entry.token (get e "token")
  requestId : Holds entry.requestId (get e "request_id")
  details : canonicalDetails env.dumpDepth (details F e) = .ok (entry.details.map Char.toNat)

/-- The import does not raise, has one entry for every object in their order, and verifies. -/
def Intact (files : List LegacyFile) : Prop :=
  ∃ log, importActivityFiles env files = .ok log ∧
    List.Forall₂ (Imported env) (legacyEntries env files) log.entries ∧
    (log.verify env.audit).ok = true

/-! ## When it is intact -/

/-- A column that is hashed as it is stored: a string that can be encoded, or nothing. -/
def IsTextColumn (value : Option JsonValue) : Prop :=
  value = none ∨ value = some .null ∨ ∃ t, value = some (.str t) ∧ encodable t = true

/-- A value whose text can be written and encoded. -/
def HasText (v : JsonValue) : Prop :=
  PyRepr.fits env.reprDepth v = true ∧ ∀ t, v = .str t → encodable t = true

/-- An object that is stored as it is hashed. -/
structure Storable (e : JsonEntries) : Prop where
  ts : HasText env (timestamp e)
  action : HasText env (action e)
  status : HasText env (status e)
  user : IsTextColumn (get e "user")
  token : IsTextColumn (get e "token")
  requestId : IsTextColumn (get e "request_id")
  details_fit : detailsFit env.dumpDepth (details F e) = true
  details_encodable : encodable (detailsPoints (details F e)) = true

/-- A line whose JSON text is not nested too deep to be read and, if it is an object with an
action, has no integer that is too long. -/
structure WithinLimits (line : CodeText) : Prop where
  shallow : isBraced (strip line) = true →
    JsonScan.loads F env.limits (strip line) ≠ .error .recursion
  short : JsonScan.loads F env.limits (strip line) = .error .value → legacyEntry F line = none

/-- Every line can be read, every object can be stored, and the ids are integers of the
database. -/
structure Importable (files : List LegacyFile) : Prop where
  within : ∀ line ∈ lines env files, WithinLimits env line
  storable : ∀ e ∈ legacyEntries env files, Storable env e
  few : (legacyEntries env files).length < 2 ^ 63

/-! ## Reading lines -/

lemma strip_strip (t : CodeText) : strip (strip t) = strip t :=
  strip_of_ends (fun _ hc => head_strip hc) fun _ hc => last_strip hc

variable {env}

section Hashed

omit [DecidablePred F.isFloat]

/-- An object stands between braces. -/
lemma isBraced_of_legacyEntry {line : CodeText} {e : JsonEntries}
    (h : legacyEntry F line = some e) : isBraced (strip line) = true := by
  unfold legacyEntry at h
  cases hv : JsonScan.unlimited F (strip line) with
  | none => simp [hv] at h
  | some v =>
    cases v with
    | dict es =>
      rw [JsonScan.unlimited] at hv
      cases hloads : JsonScan.loads F ⟨(strip line).length + 1, fun _ => true⟩ (strip line) with
      | error err => simp [hloads, Except.toOption] at hv
      | ok v =>
        simp only [hloads, Except.toOption, Option.some.injEq] at hv
        obtain ⟨hhead, hlast⟩ := JsonScan.braces_of_loads (strip_strip line) (hv ▸ hloads)
        simp [isBraced, hhead, hlast]
    | _ => simp [hv] at h

/-- What is read of a line: nothing, an error, or its object. -/
lemma readLine_cases (env : ImportEnv F) (line : CodeText) :
    (∃ error, readLine env line = .error error) ∨ readLine env line = .ok none ∨
      readLine env line = .ok (legacyEntry F line) := by
  unfold readLine
  dsimp only
  split_ifs with hbraced
  · cases hloads : JsonScan.loads F env.limits (strip line) with
    | error e => cases e <;> simp
    | ok v =>
      refine .inr (.inr ?_)
      rw [legacyEntry, JsonScan.unlimited_of_loads hloads]
      cases v <;> rfl
  · exact .inr (.inl rfl)

/-- **A line within the limits is read as what it is**, and no other. -/
lemma readLine_eq_iff (line : CodeText) :
    readLine env line = .ok (legacyEntry F line) ↔ WithinLimits env line := by
  by_cases hbraced : isBraced (strip line) = true
  · have hread : readLine env line =
        match JsonScan.loads F env.limits (strip line) with
        | .error .value => .ok none
        | .error .recursion => .error .recursionError
        | .ok (.dict e) => .ok (if hasAction e then some e else none)
        | .ok _ => .ok none := if_pos hbraced
    rw [hread]
    cases hloads : JsonScan.loads F env.limits (strip line) with
    | error e =>
      cases e with
      | value =>
        simp only [Except.ok.injEq]
        exact ⟨fun h => ⟨fun _ => by simp [hloads], fun _ => h.symm⟩,
          fun h => (h.short hloads).symm⟩
      | recursion => exact iff_of_false (by simp) fun h => h.shallow hbraced hloads
    | ok v =>
      refine iff_of_true ?_ ⟨fun _ => by simp [hloads], fun herror => by simp [hloads] at herror⟩
      rw [legacyEntry, JsonScan.unlimited_of_loads hloads]
      cases v <;> rfl
  · have hnone : legacyEntry F line = none := by
      cases h : legacyEntry F line with
      | none => rfl
      | some e => exact absurd (isBraced_of_legacyEntry h) hbraced
    have hread : readLine env line = .ok none := if_neg hbraced
    rw [hread, hnone]
    exact iff_of_true rfl ⟨fun h => absurd h hbraced, fun _ => hnone⟩

/-! ## What is hashed -/

/-- Two arrays that are written the same have items that begin the same, after items they share. -/
lemma head_of_bracketed {pre post post' : List CodeText} {x y : CodeText} (hx : x ≠ [])
    (hy : y ≠ [])
    (h : PyJson.bracketed linkOptions '[' ']' (pre ++ x :: post) =
      PyJson.bracketed linkOptions '[' ']' (pre ++ y :: post')) : x.head? = y.head? := by
  obtain ⟨c, x, rfl⟩ := List.exists_cons_of_ne_nil hx
  obtain ⟨d, y, rfl⟩ := List.exists_cons_of_ne_nil hy
  have hjoin : ∀ (t : CodeText) (ts : List CodeText) (rest : CodeText), ∃ rest',
      linkOptions.itemSeparator.intercalate (t :: ts) ++ rest = t ++ rest' := by
    intro t ts rest
    cases ts with
    | nil => exact ⟨rest, by simp⟩
    | cons u ts => exact ⟨_, by rw [List.intercalate_cons_cons, List.append_assoc,
        List.append_assoc]⟩
  have hstrip : linkOptions.itemSeparator.intercalate (pre ++ (c :: x) :: post) ++ [93] =
      linkOptions.itemSeparator.intercalate (pre ++ (d :: y) :: post') ++ [93] :=
    (List.cons.inj h).2
  clear h
  induction pre with
  | nil =>
    obtain ⟨rest, hrest⟩ := hjoin (c :: x) post [93]
    obtain ⟨rest', hrest'⟩ := hjoin (d :: y) post' [93]
    rw [List.nil_append, List.nil_append, hrest, hrest'] at hstrip
    exact congrArg some (List.cons.inj hstrip).1
  | cons p pre ih =>
    have hcons : ∀ (ts : List CodeText), ts ≠ [] →
        linkOptions.itemSeparator.intercalate (p :: ts) ++ [93] =
          (p ++ linkOptions.itemSeparator) ++
            (linkOptions.itemSeparator.intercalate ts ++ [93]) := by
      intro ts hts
      obtain ⟨u, us, rfl⟩ := List.exists_cons_of_ne_nil hts
      rw [List.intercalate_cons_cons, List.append_assoc]
    rw [List.cons_append, List.cons_append, hcons _ (by simp), hcons _ (by simp)] at hstrip
    exact ih (List.append_cancel_left hstrip)

/-- The event whose texts are those that are stored. -/
def storedEvent (r : Row F) (c : Columns) : Event F :=
  { ts := r.ts.chars, action := r.action, status := r.status, user := c.user, token := c.token,
    ip := none, requestId := c.requestId, details := r.details }

lemma dumps_str (depth : ℕ) (t : PyStr) :
    PyJson.dumps linkOptions depth (.str t : PyValue F) = .ok (linkText (some t.points)) := by
  cases depth <;> rfl

lemma ofPoints_points {t : CodeText} (h : ∀ c ∈ t, c < 0x110000) :
    (PyStr.ofPoints t).points = t := by
  rw [PyStr.ofPoints]
  calc (t.map fun c => if c < 0x110000 then c else 0xFFFD) = t.map id :=
        List.map_congr_left fun c hc => if_pos (h c hc)
    _ = t := List.map_id t

/-- The array that is hashed, with the texts of its items. -/
lemma dumps_link {depth : ℕ} {prevHash : Text} {id : ℤ} {r : Row F} {details text : CodeText}
    (hdetails : ∀ c ∈ details, c < 0x110000) :
    PyJson.dumps linkOptions (depth + 1) (link prevHash id r details) = .ok text ↔
      ∃ idText user token requestId, PyJson.intRepr id = .ok idText ∧
        PyJson.dumps linkOptions depth r.user = .ok user ∧
        PyJson.dumps linkOptions depth r.token = .ok token ∧
        PyJson.dumps linkOptions depth r.requestId = .ok requestId ∧
        text = PyJson.bracketed linkOptions '[' ']'
          [linkText (some (prevHash.map Char.toNat)), idText, linkText (some r.ts.points),
            linkText (some r.action.points), linkText (some r.status.points), user, token,
            linkText none, requestId, linkText (some details)] := by
  have hpoints := ofPoints_points hdetails
  have hid : PyJson.dumps linkOptions depth (.int id : PyValue F) = PyJson.intRepr id := by
    cases depth <;> rfl
  have hnone : PyJson.dumps linkOptions depth (.none : PyValue F) = .ok (linkText none) := by
    cases depth <;> rfl
  rw [link, PyJson.dumps_list]
  simp only [PyJson.itemTexts, PyJson.mapM_eq_ok_iff, List.forall₂_cons_left_iff, id_eq,
    List.forall₂_nil_left_iff, hid, hnone, dumps_str, hpoints, PyStr.points_ofText,
    Except.ok.injEq, exists_eq_left', exists_and_left, exists_eq_left]
  constructor
  · rintro ⟨_, ⟨_, ⟨idText, hidText, _, ⟨_, ⟨_, ⟨_, ⟨user, huser, _, ⟨token, htoken, _,
      ⟨_, ⟨requestId, hrequestId, rfl⟩, rfl⟩, rfl⟩, rfl⟩, rfl⟩, rfl⟩, rfl⟩, rfl⟩, rfl⟩, rfl⟩
    exact ⟨idText, hidText, user, huser, token, htoken, requestId, hrequestId, rfl⟩
  · rintro ⟨idText, hidText, user, huser, token, htoken, requestId, hrequestId, rfl⟩
    exact ⟨_, ⟨_, ⟨idText, hidText, _, ⟨_, ⟨_, ⟨_, ⟨user, huser, _, ⟨token, htoken, _,
      ⟨_, ⟨requestId, hrequestId, rfl⟩, rfl⟩, rfl⟩, rfl⟩, rfl⟩, rfl⟩, rfl⟩, rfl⟩, rfl⟩, rfl⟩

/-- A value that is stored as it is hashed. -/
def IsText : PyValue F → Prop
  | .none | .str _ => True
  | _ => False

lemma column_of_isText (env : ImportEnv F) {v : PyValue F} (h : IsText v) :
    ∃ b, column env v = .ok b ∧
      ∀ depth, PyJson.dumps linkOptions depth v = .ok (linkText (b.map PyStr.points)) := by
  cases v with
  | none => exact ⟨none, rfl, fun depth => by cases depth <;> rfl⟩
  | str t => exact ⟨some t, rfl, fun depth => dumps_str depth t⟩
  | _ => exact h.elim

lemma text_of_isText {v : PyValue F} {b : Option PyStr} {depth : ℕ} {text : CodeText}
    (hv : IsText v) (hcolumn : column env v = .ok b)
    (htext : PyJson.dumps linkOptions depth v = .ok text) :
    text = linkText (b.map PyStr.points) := by
  obtain ⟨b', hcolumn', hdumps⟩ := column_of_isText env hv
  rw [hcolumn, Except.ok.injEq] at hcolumn'
  rw [hdumps, Except.ok.injEq] at htext
  rw [← htext, hcolumn']

lemma head_linkText (t : Option CodeText) :
    ∃ c rest, linkText t = c :: rest ∧ (c = 110 ∨ c = 34) := by
  cases t with
  | none => exact ⟨110, _, rfl, .inl rfl⟩
  | some t => exact ⟨34, _, rfl, .inr rfl⟩

/-- The text of a number or a word begins neither as a string does nor as null. -/
lemma head_dumps_of_not_isText {v : PyValue F} {b : Option PyStr} {depth : ℕ} {text : CodeText}
    (hv : ¬IsText v) (hcolumn : column env v = .ok b)
    (htext : PyJson.dumps linkOptions depth v = .ok text) :
    ∃ c rest, text = c :: rest ∧ c ≠ 110 ∧ c ≠ 34 := by
  have hinteger : ∀ {t : CodeText}, JsonText.IsInteger t → ∀ u : CodeText,
      ∃ c rest, t ++ u = c :: rest ∧ c ≠ 110 ∧ c ≠ 34 := by
    intro t ht u
    obtain ⟨c, rest, rfl, hc⟩ := JsonScan.head_integer ht
    exact ⟨c, rest ++ u, rfl, by omega, by omega⟩
  cases v with
  | none => exact absurd trivial hv
  | str t => exact absurd trivial hv
  | bool b =>
    have hword : text = PyJson.word b := by cases depth <;> exact (Except.ok.inj htext).symm
    cases b with
    | true => exact ⟨116, _, hword, by decide, by decide⟩
    | false => exact ⟨102, _, hword, by decide, by decide⟩
  | int n =>
    have hrepr : PyJson.intRepr n = .ok text := by cases depth <;> exact htext
    rw [PyJson.intRepr] at hrepr
    split_ifs at hrepr
    have h := hinteger (JsonText.isInteger_intText n) []
    rwa [List.append_nil, Except.ok.inj hrepr] at h
  | float x =>
    have hrepr : text = PyJson.floatRepr x := by cases depth <;> exact (Except.ok.inj htext).symm
    rcases x with ⟨q, hq⟩ | ⟨_ | _⟩ | _
    · obtain ⟨integer, fraction, exponent, hi, -, -, -, hq⟩ := F.isFloatText q hq
      have h := hinteger hi (fraction ++ exponent)
      rw [← List.append_assoc, ← hq] at h
      rw [hrepr]
      exact h
    · exact ⟨73, _, hrepr, by decide, by decide⟩
    · exact ⟨45, _, hrepr, by decide, by decide⟩
    · exact ⟨78, _, hrepr, by decide, by decide⟩
  | list items => cases hcolumn
  | dict es => cases hcolumn
  | other truthy str => cases hcolumn

/-- In arrays that are written the same, an item that is stored as a text was one. -/
lemma isText_of_bracketed (pre : List CodeText) {post post' : List CodeText} {v : PyValue F}
    {b : Option PyStr} {depth : ℕ} {text : CodeText} (hcolumn : column env v = .ok b)
    (htext : PyJson.dumps linkOptions depth v = .ok text)
    (h : PyJson.bracketed linkOptions '[' ']' (pre ++ text :: post) =
      PyJson.bracketed linkOptions '[' ']' (pre ++ linkText (b.map PyStr.points) :: post')) :
    IsText v ∧ text = linkText (b.map PyStr.points) := by
  have hv : IsText v := by
    by_contra hv
    obtain ⟨c, rest, rfl, hnull, hquote⟩ := head_dumps_of_not_isText hv hcolumn htext
    obtain ⟨d, rest', hd, hcases⟩ := head_linkText (b.map PyStr.points)
    rw [hd] at h
    have hhead := head_of_bracketed (by simp) (by simp) h
    rw [List.head?_cons, List.head?_cons, Option.some.injEq] at hhead
    omega
  exact ⟨hv, text_of_isText hv hcolumn htext⟩

/-- **What is hashed is what verification hashes** exactly if the columns beside the texts are
texts or null. -/
lemma bracketed_eq_payload_iff {depth : ℕ} {prevHash : Text} {idText : CodeText} {r : Row F}
    {details user token requestId : CodeText} {c : Columns}
    (hts : r.ts.encodable = true) (huser : column env r.user = .ok c.user)
    (htoken : column env r.token = .ok c.token)
    (hrequestId : column env r.requestId = .ok c.requestId)
    (huserText : PyJson.dumps linkOptions depth r.user = .ok user)
    (htokenText : PyJson.dumps linkOptions depth r.token = .ok token)
    (hrequestIdText : PyJson.dumps linkOptions depth r.requestId = .ok requestId) :
    PyJson.bracketed linkOptions '[' ']'
        [linkText (some (prevHash.map Char.toNat)), idText, linkText (some r.ts.points),
          linkText (some r.action.points), linkText (some r.status.points), user, token,
          linkText none, requestId, linkText (some details)] =
      payload prevHash idText (storedEvent r c) details ↔
    IsText r.user ∧ IsText r.token ∧ IsText r.requestId := by
  have hpayload : payload prevHash idText (storedEvent r c) details =
      PyJson.bracketed linkOptions '[' ']'
        [linkText (some (prevHash.map Char.toNat)), idText, linkText (some r.ts.points),
          linkText (some r.action.points), linkText (some r.status.points),
          linkText (c.user.map PyStr.points), linkText (c.token.map PyStr.points), linkText none,
          linkText (c.requestId.map PyStr.points), linkText (some details)] := by
    rw [payload, storedEvent, toNat_chars hts]
    rfl
  rw [hpayload]
  constructor
  · intro h
    obtain ⟨huserIs, rfl⟩ := isText_of_bracketed [_, _, _, _, _] huser huserText h
    obtain ⟨htokenIs, rfl⟩ := isText_of_bracketed [_, _, _, _, _, _] htoken htokenText h
    obtain ⟨hrequestIdIs, -⟩ :=
      isText_of_bracketed [_, _, _, _, _, _, _, _] hrequestId hrequestIdText h
    exact ⟨huserIs, htokenIs, hrequestIdIs⟩
  · rintro ⟨huserIs, htokenIs, hrequestIdIs⟩
    rw [text_of_isText huserIs huser huserText, text_of_isText htokenIs htoken htokenText,
      text_of_isText hrequestIdIs hrequestId hrequestIdText]

/-! ## One entry -/

/-- A row that is stored as it is hashed. -/
structure RowFits (env : ImportEnv F) (r : Row F) : Prop where
  ts : r.ts.encodable = true
  action : r.action.encodable = true
  status : r.status.encodable = true
  user : IsText r.user ∧ encodable (PyJson.points r.user) = true
  token : IsText r.token ∧ encodable (PyJson.points r.token) = true
  requestId : IsText r.requestId ∧ encodable (PyJson.points r.requestId) = true
  details_fit : PyJson.fits canonicalOptions env.dumpDepth (orEmpty r.details) = true
  details_encodable : encodable (PyJson.points (orEmpty r.details)) = true
  deep : 0 < env.dumpDepth

lemma linked_insert_iff {audit : AuditEnv Empty} {log : AuditLog} {e : Entry}
    (hid : e.id = log.lastPlace.1 + 1) :
    (insert log e hid).Linked audit ↔ log.Linked audit ∧ Accepts audit log.lastPlace e := by
  have hentries : (insert log e hid).Linked audit ↔
      Chain (Accepts audit) Entry.place log.anchor (log.entries ++ [e]) := Iff.rfl
  rw [hentries, chain_concat, ← AuditLog.lastPlace_eq]
  rfl

lemma encodable_column {v : PyValue F} {b : Option PyStr} (h : column env v = .ok b)
    (hv : encodable (PyJson.points v) = true) :
    encodable ((b.map PyStr.points).getD []) = true := by
  cases v with
  | none => cases h; rfl
  | str t => cases h; exact hv
  | bool b => cases h; cases b <;> exact encodable_text _
  | int n =>
    rw [column] at h
    split_ifs at h
    cases h
    exact encodable_text _
  | float x =>
    cases x with
    | nan => cases h; rfl
    | finite q hq => cases h; exact encodable_text _
    | infinite negative => cases h; exact encodable_text _
  | _ => cases h

/-- What verification hashes for a row. -/
lemma digest_newRow {log : AuditLog} {r : Row F} {details : CodeText} (text : CodeText)
    {c : Columns}
    (htexts : ∀ t ∈ (storedEvent r c).texts, encodable ((t.map PyStr.points).getD []) = true)
    (hdetails : (details.map Char.ofNat).map Char.toNat = details) :
    (newRow env log r details text c).digest env.audit =
      env.sha256 ((payload log.lastPlace.2 (JsonText.intText (log.lastPlace.1 + 1))
        (storedEvent r c) details).map Char.ofNat) := by
  have hback : Char.ofNat ∘ Char.toNat = fun c => c := funext Char.ofNat_toNat
  rw [payload_toNat htexts hdetails, List.map_map, hback, List.map_id']
  rfl

/-- The texts of what is hashed can be encoded if the whole can. -/
lemma encodable_link {prevHash : Text} {id : ℤ} {r : Row F} {details : CodeText}
    (hdetails : ∀ c ∈ details, c < 0x110000) :
    encodable (PyJson.points (link prevHash id r details)) = true ↔
      r.ts.encodable = true ∧ r.action.encodable = true ∧ r.status.encodable = true ∧
        encodable (PyJson.points r.user) = true ∧ encodable (PyJson.points r.token) = true ∧
        encodable (PyJson.points r.requestId) = true ∧ encodable details = true := by
  have hnil : encodable [] = true := rfl
  have hprev : encodable (PyStr.ofText prevHash).points = true := encodable_text prevHash
  simp only [link, PyJson.points, PyJson.itemPoints, encodable_append, hnil, hprev,
    ofPoints_points hdetails, PyStr.encodable, Bool.and_true, Bool.true_and, Bool.and_eq_true]

variable (env)

/-- Where the texts of a row can be encoded, an entry is accepted exactly if what was hashed is
what verification hashes, or both have the same hash. -/
lemma accepts_newRow_iff {log : AuditLog} {r : Row F} {details text : CodeText} {c : Columns}
    (htexts : ∀ t ∈ (storedEvent r c).texts, encodable ((t.map PyStr.points).getD []) = true)
    (hdetails : (details.map Char.ofNat).map Char.toNat = details) :
    Accepts env.audit log.lastPlace (newRow env log r details text c) ↔
      env.sha256 (text.map Char.ofNat) =
        env.sha256 ((payload log.lastPlace.2 (JsonText.intText (log.lastPlace.1 + 1))
          (storedEvent r c) details).map Char.ofNat) := by
  rw [← digest_newRow text htexts hdetails]
  exact ⟨fun h => h.2.2, fun h => ⟨rfl, rfl, h⟩⟩

/-- A row that fits is inserted where the chain ends. -/
lemma append_of_fits {log : AuditLog} {r : Row F} (h : RowFits env r)
    (hid : isInt64 (log.lastPlace.1 + 1) = true) :
    ∃ details text c, append env log r = .ok (insert log (newRow env log r details text c) rfl) ∧
      Accepts env.audit log.lastPlace (newRow env log r details text c) ∧
      canonicalDetails env.dumpDepth r.details = .ok details ∧ encodable details = true ∧
      column env r.user = .ok c.user ∧ column env r.token = .ok c.token ∧
      column env r.requestId = .ok c.requestId := by
  obtain ⟨details, hdetails⟩ := (PyJson.dumps_isOk _ _).mpr h.details_fit
  have hvalid := PyJson.valid_dumps hdetails
  have hencodable : encodable details = true :=
    (PyJson.encodable_dumps rfl hdetails).trans h.details_encodable
  obtain ⟨user, huser, huserText⟩ := column_of_isText env h.user.1
  obtain ⟨token, htoken, htokenText⟩ := column_of_isText env h.token.1
  obtain ⟨requestId, hrequestId, hrequestIdText⟩ := column_of_isText env h.requestId.1
  obtain ⟨depth, hdepth⟩ : ∃ depth, env.dumpDepth = depth + 1 :=
    ⟨env.dumpDepth - 1, (Nat.sub_add_cancel h.deep).symm⟩
  have hidText : PyJson.intRepr (log.lastPlace.1 + 1) =
      .ok (JsonText.intText (log.lastPlace.1 + 1)) := if_pos (fewDigits_of_isInt64 hid)
  let c : Columns := { user, token, requestId }
  obtain ⟨text, htext⟩ : ∃ text, PyJson.dumps linkOptions (depth + 1)
      (link log.lastPlace.2 (log.lastPlace.1 + 1) r details) = .ok text :=
    ⟨_, (dumps_link hvalid).mpr ⟨_, _, _, _, hidText, huserText depth, htokenText depth,
      hrequestIdText depth, rfl⟩⟩
  have htextEncodable : encodable text = true := by
    rw [PyJson.encodable_dumps rfl htext, encodable_link hvalid]
    exact ⟨h.ts, h.action, h.status, h.user.2, h.token.2, h.requestId.2, hencodable⟩
  have htexts : ∀ t ∈ (storedEvent r c).texts, encodable ((t.map PyStr.points).getD []) = true := by
    simp only [storedEvent, Event.texts, List.forall_mem_cons]
    exact ⟨h.action, h.status, encodable_column huser h.user.2, encodable_column htoken h.token.2,
      rfl, encodable_column hrequestId h.requestId.2, fun t ht => absurd ht List.not_mem_nil⟩
  refine ⟨details, text, c, ?_, ?_, hdetails, hencodable, huser, htoken, hrequestId⟩
  · rw [← hdepth] at htext
    simp [append, canonicalDetails, hdetails, htext, htextEncodable, hid, huser, htoken, hrequestId,
      c, Except.mapError, bind, Except.bind, pure, Except.pure]
  · obtain ⟨idText, user', token', requestId', hidText', huser', htoken', hrequestId', rfl⟩ :=
      (dumps_link hvalid).mp htext
    rw [hidText, Except.ok.injEq] at hidText'
    subst hidText'
    rw [accepts_newRow_iff env htexts (toNat_ofNat hvalid hencodable),
      (bracketed_eq_payload_iff (c := c) h.ts huser htoken hrequestId huser' htoken'
        hrequestId').mpr ⟨h.user.1, h.token.1, h.requestId.1⟩]

/-- What an append that returns has done: `details` and `text` are what is stored and hashed. -/
structure Appended (log : AuditLog) (r : Row F) (details text : CodeText) (c : Columns) : Prop where
  details_eq : canonicalDetails env.dumpDepth r.details = .ok details
  text_eq : PyJson.dumps linkOptions env.dumpDepth
    (link log.lastPlace.2 (log.lastPlace.1 + 1) r details) = .ok text
  text_encodable : encodable text = true
  id_fits : isInt64 (log.lastPlace.1 + 1) = true
  user_eq : column env r.user = .ok c.user
  token_eq : column env r.token = .ok c.token
  requestId_eq : column env r.requestId = .ok c.requestId

lemma append_ok {log log' : AuditLog} {r : Row F} (h : append env log r = .ok log') :
    ∃ details text c, Appended env log r details text c ∧
      log' = insert log (newRow env log r details text c) rfl := by
  cases hdetails : canonicalDetails env.dumpDepth r.details with
  | error e => simp [append, hdetails, Except.mapError, bind, Except.bind] at h
  | ok details =>
    cases htext : PyJson.dumps linkOptions env.dumpDepth
        (link log.lastPlace.2 (log.lastPlace.1 + 1) r details) with
    | error e => simp [append, hdetails, htext, Except.mapError, bind, Except.bind] at h
    | ok text =>
      cases hencodable : encodable text with
      | false =>
        simp [append, hdetails, htext, hencodable, Except.mapError, bind, Except.bind] at h
      | true =>
        cases hid : isInt64 (log.lastPlace.1 + 1) with
        | false =>
          simp [append, hdetails, htext, hencodable, hid, Except.mapError, bind, Except.bind] at h
        | true =>
          have hcolumns : append env log r = (do
              let user ← column env r.user
              let token ← column env r.token
              let requestId ← column env r.requestId
              return insert log (newRow env log r details text { user, token, requestId })
                rfl) := by
            simp [append, hdetails, htext, hencodable, hid, Except.mapError, bind, Except.bind]
          rw [hcolumns] at h
          cases huser : column env r.user with
          | error e => simp [huser, bind, Except.bind] at h
          | ok user =>
            cases htoken : column env r.token with
            | error e => simp [huser, htoken, bind, Except.bind] at h
            | ok token =>
              cases hrequestId : column env r.requestId with
              | error e => simp [huser, htoken, hrequestId, bind, Except.bind] at h
              | ok requestId =>
                simp only [huser, htoken, hrequestId, bind, Except.bind, pure, Except.pure,
                  Except.ok.injEq] at h
                exact ⟨details, text, { user, token, requestId },
                  ⟨hdetails, htext, hencodable, hid, huser, htoken, hrequestId⟩, h.symm⟩

namespace Appended

variable {env} {log : AuditLog} {r : Row F} {details text : CodeText} {c : Columns}

lemma deep (h : Appended env log r details text c) : ∃ depth, env.dumpDepth = depth + 1 := by
  have htext := h.text_eq
  cases hdepth : env.dumpDepth with
  | succ depth => exact ⟨depth, rfl⟩
  | zero =>
    rw [hdepth] at htext
    cases htext

/-- Everything that is hashed can be encoded. -/
lemma points (h : Appended env log r details text c) :
    r.ts.encodable = true ∧ r.action.encodable = true ∧ r.status.encodable = true ∧
      encodable (PyJson.points r.user) = true ∧ encodable (PyJson.points r.token) = true ∧
      encodable (PyJson.points r.requestId) = true ∧ encodable details = true :=
  (encodable_link (PyJson.valid_dumps h.details_eq)).mp
    ((PyJson.encodable_dumps rfl h.text_eq).symm.trans h.text_encodable)

/-- The details are stored as they were hashed. -/
lemma toNat_details (h : Appended env log r details text c) :
    (details.map Char.ofNat).map Char.toNat = details :=
  toNat_ofNat (PyJson.valid_dumps h.details_eq) h.points.2.2.2.2.2.2

lemma texts (h : Appended env log r details text c) :
    ∀ t ∈ (storedEvent r c).texts, encodable ((t.map PyStr.points).getD []) = true := by
  obtain ⟨-, haction, hstatus, huser, htoken, hrequestId, -⟩ := h.points
  simp only [storedEvent, Event.texts, List.forall_mem_cons]
  exact ⟨haction, hstatus, encodable_column h.user_eq huser,
    encodable_column h.token_eq htoken, rfl, encodable_column h.requestId_eq hrequestId, fun t ht => absurd ht List.not_mem_nil⟩

/-- What was hashed is what verification hashes exactly if the columns are texts or null. -/
lemma text_eq_payload_iff (h : Appended env log r details text c) :
    text = payload log.lastPlace.2 (JsonText.intText (log.lastPlace.1 + 1)) (storedEvent r c)
        details ↔
      IsText r.user ∧ IsText r.token ∧ IsText r.requestId := by
  obtain ⟨depth, hdepth⟩ := h.deep
  have htext := h.text_eq
  rw [hdepth, dumps_link (PyJson.valid_dumps h.details_eq)] at htext
  obtain ⟨idText, user, token, requestId, hidText, huser, htoken, hrequestId, rfl⟩ := htext
  have hrepr : PyJson.intRepr (log.lastPlace.1 + 1) =
      .ok (JsonText.intText (log.lastPlace.1 + 1)) := if_pos (fewDigits_of_isInt64 h.id_fits)
  rw [hrepr, Except.ok.injEq] at hidText
  subst hidText
  exact bracketed_eq_payload_iff h.points.1 h.user_eq h.token_eq h.requestId_eq huser htoken
    hrequestId

/-- **An entry is accepted if its columns are texts or null, and where hashes do not collide only
then.** -/
lemma accepts_iff (h : Appended env log r details text c) :
    (IsText r.user ∧ IsText r.token ∧ IsText r.requestId →
      Accepts env.audit log.lastPlace (newRow env log r details text c)) ∧
    (Function.Injective env.sha256 →
      Accepts env.audit log.lastPlace (newRow env log r details text c) →
        IsText r.user ∧ IsText r.token ∧ IsText r.requestId) := by
  rw [accepts_newRow_iff env h.texts h.toNat_details, ← h.text_eq_payload_iff]
  refine ⟨fun htext => by rw [← htext], fun hsha hsame => ?_⟩
  -- what was hashed is what is hashed again, text by text
  have hback : ∀ t : Text,
      ((t.map Char.toNat).map Char.ofNat).map Char.toNat = t.map Char.toNat := fun t => by
    simp [Function.comp_def]
  have hpayload : ((payload log.lastPlace.2 (JsonText.intText (log.lastPlace.1 + 1))
      (storedEvent r c) details).map Char.ofNat).map Char.toNat =
      payload log.lastPlace.2 (JsonText.intText (log.lastPlace.1 + 1)) (storedEvent r c)
        details := by
    rw [payload_toNat h.texts h.toNat_details, hback]
  calc text = (text.map Char.ofNat).map Char.toNat :=
        (toNat_ofNat (PyJson.valid_dumps h.text_eq) h.text_encodable).symm
    _ = payload log.lastPlace.2 (JsonText.intText (log.lastPlace.1 + 1)) (storedEvent r c)
        details := by rw [hsha hsame, hpayload]

end Appended

/-- A row that is inserted has an id that the database stores, and where hashes do not collide it
is accepted only if it fits. -/
lemma fits_of_append {log log' : AuditLog} {r : Row F} (h : append env log r = .ok log') :
    ∃ (e : Entry) (hid : e.id = log.lastPlace.1 + 1), log' = insert log e hid ∧
      isInt64 (log.lastPlace.1 + 1) = true ∧
      (Function.Injective env.sha256 → Accepts env.audit log.lastPlace e → RowFits env r) := by
  obtain ⟨details, text, c, happended, rfl⟩ := append_ok env h
  refine ⟨newRow env log r details text c, rfl, rfl, happended.id_fits, fun hsha haccepts => ?_⟩
  obtain ⟨depth, hdepth⟩ := happended.deep
  obtain ⟨hts, haction, hstatus, huser, htoken, hrequestId, hdetails⟩ := happended.points
  obtain ⟨huserIs, htokenIs, hrequestIdIs⟩ := happended.accepts_iff.2 hsha haccepts
  exact ⟨hts, haction, hstatus, ⟨huserIs, huser⟩, ⟨htokenIs, htoken⟩, ⟨hrequestIdIs, hrequestId⟩,
    (PyJson.dumps_isOk _ _).mp ⟨details, happended.details_eq⟩,
    (PyJson.encodable_dumps rfl happended.details_eq).symm.trans hdetails,
    hdepth ▸ Nat.succ_pos depth⟩

end Hashed

/-! ## An object as a row -/

variable (env)

lemma isTextColumn_iff (value : Option JsonValue) : IsTextColumn value ↔
    IsText (valueOf F value) ∧ encodable (PyJson.points (valueOf F value)) = true := by
  cases value with
  | none => exact iff_of_true (.inl rfl) ⟨trivial, rfl⟩
  | some v =>
    cases v with
    | null => exact iff_of_true (.inr (.inl rfl)) ⟨trivial, rfl⟩
    | str t =>
      have hpoints : encodable (PyJson.points (valueOf F (some (.str t)))) = encodable t :=
        PyRepr.encodable_ofPoints t
      rw [hpoints]
      constructor
      · rintro (h | h | ⟨u, hu, hencodable⟩)
        · cases h
        · cases h
        · rw [Option.some.injEq, JsonValue.str.injEq] at hu
          exact ⟨trivial, hu ▸ hencodable⟩
      · exact fun h => .inr (.inr ⟨t, rfl, h.2⟩)
    | _ => exact iff_of_false (by simp [IsTextColumn]) fun h => h.1

/-- The details are an object. -/
lemma details_dict (e : JsonEntries) : ∃ es, details F e = .dict es := by
  unfold details
  split
  · exact ⟨_, by rw [PyRepr.ofJson]⟩
  · exact ⟨_, rfl⟩

lemma rowOf_eq_ok {e : JsonEntries} {r : Row F} : rowOf env e = .ok r ↔
    PyRepr.str F env.printables env.reprDepth (timestamp e) = .ok r.ts ∧
      PyRepr.str F env.printables env.reprDepth (action e) = .ok r.action ∧
      PyRepr.str F env.printables env.reprDepth (status e) = .ok r.status ∧
      r.user = valueOf F (get e "user") ∧ r.token = valueOf F (get e "token") ∧
      r.requestId = valueOf F (get e "request_id") ∧ r.details = details F e := by
  obtain ⟨ts, action, status, user, token, requestId, ds⟩ := r
  rw [rowOf]
  cases PyRepr.str F env.printables env.reprDepth (timestamp e) with
  | error err => simp [bind, Except.bind]
  | ok t =>
    cases PyRepr.str F env.printables env.reprDepth (Import.action e) with
    | error err => simp [bind, Except.bind]
    | ok a =>
      cases PyRepr.str F env.printables env.reprDepth (Import.status e) with
      | error err => simp [bind, Except.bind]
      | ok s =>
        simp only [bind, Except.bind, pure, Except.pure, Except.ok.injEq, Row.mk.injEq]
        constructor
        · rintro ⟨h1, h2, h3, h4, h5, h6, h7⟩
          exact ⟨h1, h2, h3, h4.symm, h5.symm, h6.symm, h7.symm⟩
        · rintro ⟨h1, h2, h3, h4, h5, h6, h7⟩
          exact ⟨h1, h2, h3, h4.symm, h5.symm, h6.symm, h7.symm⟩

lemma hasText_iff (v : JsonValue) : HasText env v ↔
    ∃ t, PyRepr.str F env.printables env.reprDepth v = .ok t ∧ t.encodable = true := by
  rw [HasText, ← PyRepr.str_isOk (F := F) (P := env.printables)]
  constructor
  · rintro ⟨⟨t, ht⟩, hencodable⟩
    exact ⟨t, ht, (PyRepr.encodable_str ht).mpr hencodable⟩
  · rintro ⟨t, ht, hencodable⟩
    exact ⟨⟨t, ht⟩, (PyRepr.encodable_str ht).mp hencodable⟩

/-- **An object can be stored exactly if its row fits.** -/
lemma storable_iff (e : JsonEntries) :
    Storable env e ↔ ∃ r, rowOf env e = .ok r ∧ RowFits env r := by
  obtain ⟨es, hes⟩ := details_dict (F := F) e
  have hfit : detailsFit env.dumpDepth (details F e) =
      PyJson.fits canonicalOptions env.dumpDepth (orEmpty (details F e)) := by
    rw [hes]
    rfl
  have hpoints : detailsPoints (details F e) = PyJson.points (orEmpty (details F e)) := by
    rw [hes]
    rfl
  constructor
  · intro h
    obtain ⟨ts, hts, htsEncodable⟩ := (hasText_iff env _).mp h.ts
    obtain ⟨action, haction, hactionEncodable⟩ := (hasText_iff env _).mp h.action
    obtain ⟨status, hstatus, hstatusEncodable⟩ := (hasText_iff env _).mp h.status
    refine ⟨⟨ts, action, status, _, _, _, _⟩, (rowOf_eq_ok env).mpr
      ⟨hts, haction, hstatus, rfl, rfl, rfl, rfl⟩, ?_⟩
    have hdeep : 0 < env.dumpDepth := by
      refine Nat.pos_of_ne_zero fun hzero => ?_
      -- an object is not written where nothing may be nested
      have hzeroFit := h.details_fit
      rw [hfit, hes, hzero, orEmpty] at hzeroFit
      split_ifs at hzeroFit
      · simp [PyJson.fits] at hzeroFit
      · simp [PyJson.fits] at hzeroFit
    exact ⟨htsEncodable, hactionEncodable, hstatusEncodable, (isTextColumn_iff _).mp h.user,
      (isTextColumn_iff _).mp h.token, (isTextColumn_iff _).mp h.requestId, hfit ▸ h.details_fit,
      hpoints ▸ h.details_encodable, hdeep⟩
  · rintro ⟨⟨ts, action, status, user, token, requestId, ds⟩, hrow, h⟩
    obtain ⟨hts, haction, hstatus, rfl, rfl, rfl, rfl⟩ := (rowOf_eq_ok env).mp hrow
    exact ⟨(hasText_iff env _).mpr ⟨ts, hts, h.ts⟩, (hasText_iff env _).mpr ⟨_, haction, h.action⟩,
      (hasText_iff env _).mpr ⟨_, hstatus, h.status⟩, (isTextColumn_iff _).mpr h.user,
      (isTextColumn_iff _).mpr h.token, (isTextColumn_iff _).mpr h.requestId,
      hfit ▸ h.details_fit, hpoints ▸ h.details_encodable⟩

lemma holds_of_column {value : Option JsonValue} {b : Option PyStr}
    (h : column env (valueOf F value) = .ok b)
    (hencodable : encodable (PyJson.points (valueOf F value)) = true) :
    Holds (b.map PyStr.chars) value := by
  cases value with
  | none => cases h; rfl
  | some v =>
    cases v with
    | null => cases h; rfl
    | str t =>
      cases h
      exact ⟨_, rfl, toNat_chars hencodable⟩
    | _ => trivial

/-- **An object that can be stored is imported.** -/
lemma importEntry_of_storable {log : AuditLog} {e : JsonEntries} (h : Storable env e)
    (hid : isInt64 (log.lastPlace.1 + 1) = true) :
    ∃ (entry : Entry) (hid : entry.id = log.lastPlace.1 + 1),
      importEntry env log e = .ok (insert log entry hid) ∧
        Accepts env.audit log.lastPlace entry ∧ Imported env e entry := by
  obtain ⟨r, hrow, hfits⟩ := (storable_iff env e).mp h
  obtain ⟨hts, haction, hstatus, huserOf, htokenOf, hrequestIdOf, hdetailsOf⟩ :=
    (rowOf_eq_ok env).mp hrow
  obtain ⟨ds, text, c, happend, haccepts, hdetails, hdsEncodable, huser, htoken, hrequestId⟩ :=
    append_of_fits env hfits hid
  refine ⟨_, rfl, ?_, haccepts, ?_⟩
  · simp only [importEntry, hrow, Except.mapError, bind, Except.bind, happend]
  · have hback : (ds.map Char.ofNat).map Char.toNat = ds :=
      toNat_ofNat (PyJson.valid_dumps hdetails) hdsEncodable
    refine ⟨?_, ?_, ?_, ?_, ?_, ?_, ?_⟩
    · rw [hts]
      exact congrArg Except.ok (toNat_chars hfits.ts).symm
    · rw [haction]
      exact congrArg Except.ok (toNat_chars hfits.action).symm
    · rw [hstatus]
      exact congrArg Except.ok (toNat_chars hfits.status).symm
    · exact holds_of_column env (huserOf ▸ huser) (huserOf ▸ hfits.user.2)
    · exact holds_of_column env (htokenOf ▸ htoken) (htokenOf ▸ hfits.token.2)
    · exact holds_of_column env (hrequestIdOf ▸ hrequestId) (hrequestIdOf ▸ hfits.requestId.2)
    · rw [← hdetailsOf, hdetails]
      exact congrArg Except.ok hback.symm

/-- What an import that returns has done. -/
lemma importEntry_ok {log log' : AuditLog} {e : JsonEntries}
    (h : importEntry env log e = .ok log') :
    ∃ (entry : Entry) (hid : entry.id = log.lastPlace.1 + 1), log' = insert log entry hid ∧
      isInt64 (log.lastPlace.1 + 1) = true ∧
      (Function.Injective env.sha256 → Accepts env.audit log.lastPlace entry → Storable env e) := by
  cases hrow : rowOf env e with
  | error err => simp [importEntry, hrow, Except.mapError, bind, Except.bind] at h
  | ok r =>
    simp only [importEntry, hrow, Except.mapError, bind, Except.bind] at h
    obtain ⟨entry, hid, rfl, hid64, hfits⟩ := fits_of_append env h
    exact ⟨entry, hid, rfl, hid64, fun hsha haccepts =>
      (storable_iff env e).mpr ⟨r, hrow, hfits hsha haccepts⟩⟩

/-! ## All lines -/

lemma lastPlace_insert {log : AuditLog} {e : Entry} (hid : e.id = log.lastPlace.1 + 1) :
    (insert log e hid).lastPlace.1 = log.lastPlace.1 + 1 := by
  simp [Recording.insert, AuditLog.lastPlace, Entry.place, hid]

variable {es : List JsonEntries}

/-- Objects that can be stored are imported one after the other. -/
lemma importEntries_of_storable {log : AuditLog} (hes : ∀ e ∈ es, Storable env e)
    (hids : ∀ i < es.length, isInt64 (log.lastPlace.1 + 1 + i) = true)
    (hlinked : log.Linked env.audit) :
    ∃ log' new, es.foldlM (importEntry env) log = .ok log' ∧ log'.entries = log.entries ++ new ∧
      List.Forall₂ (Imported env) es new ∧ log'.Linked env.audit := by
  induction es generalizing log with
  | nil => exact ⟨log, [], rfl, (List.append_nil _).symm, .nil, hlinked⟩
  | cons e es ih =>
    have hfirst : isInt64 (log.lastPlace.1 + 1) = true := by
      simpa using hids 0 (Nat.zero_lt_succ _)
    obtain ⟨entry, hid, himport, haccepts, himported⟩ :=
      importEntry_of_storable env (hes e List.mem_cons_self) hfirst
    have hids' : ∀ i < es.length,
        isInt64 ((insert log entry hid).lastPlace.1 + 1 + i) = true := by
      intro i hi
      have hnext := hids (i + 1) (Nat.succ_lt_succ hi)
      rw [lastPlace_insert hid]
      push_cast at hnext
      rwa [add_assoc _ 1 (i : ℤ), add_comm 1 (i : ℤ)]
    obtain ⟨log', new, hfold, hentries, hall, hlinked'⟩ :=
      ih (fun e' he' => hes e' (List.mem_cons_of_mem e he')) hids'
        ((linked_insert_iff hid).mpr ⟨hlinked, haccepts⟩)
    refine ⟨log', entry :: new, ?_, ?_, .cons himported hall, hlinked'⟩
    · rw [List.foldlM_cons, himport]
      exact hfold
    · rw [hentries]
      exact List.append_assoc log.entries [entry] new

/-- What an import of objects that returns has done. -/
lemma importEntries_ok {log log' : AuditLog} (h : es.foldlM (importEntry env) log = .ok log') :
    ∃ new, log'.entries = log.entries ++ new ∧ log'.anchor = log.anchor ∧
      new.length = es.length ∧ (∀ i < es.length, isInt64 (log.lastPlace.1 + 1 + i) = true) ∧
      (Function.Injective env.sha256 → log'.Linked env.audit → ∀ e ∈ es, Storable env e) := by
  induction es generalizing log with
  | nil =>
    obtain rfl := Except.ok.inj h
    exact ⟨[], (List.append_nil _).symm, rfl, rfl, fun i hi => absurd hi (Nat.not_lt_zero i),
      fun _ _ e he => absurd he List.not_mem_nil⟩
  | cons e es ih =>
    rw [List.foldlM_cons] at h
    cases himport : importEntry env log e with
    | error err => simp [himport, bind, Except.bind] at h
    | ok log₁ =>
      obtain ⟨entry, hid, rfl, hid64, hstorable⟩ := importEntry_ok env himport
      simp only [himport, bind, Except.bind] at h
      obtain ⟨new, hentries, hanchor, hlength, hids, hall⟩ := ih h
      have hentries' : log'.entries = log.entries ++ entry :: new := by
        rw [hentries]
        exact List.append_assoc log.entries [entry] new
      refine ⟨entry :: new, hentries', hanchor, by simp [hlength], ?_, ?_⟩
      · intro i hi
        cases i with
        | zero => simpa using hid64
        | succ i =>
          have hnext := hids i (Nat.lt_of_succ_lt_succ hi)
          rw [lastPlace_insert hid] at hnext
          push_cast
          rwa [add_assoc _ 1 (i : ℤ), add_comm 1 (i : ℤ)] at hnext
      · intro hsha hlinked e' he'
        rcases List.mem_cons.mp he' with rfl | he'
        · -- the chain up to the entry accepts it
          have hchain : Chain (Accepts env.audit) Entry.place log.anchor
              ((log.entries ++ [entry]) ++ new) := by
            have h := hlinked
            rw [AuditLog.Linked, hanchor, hentries] at h
            exact h
          have hprefix : (insert log entry hid).Linked env.audit := (chain_append.mp hchain).1
          exact hstorable hsha ((linked_insert_iff hid).mp hprefix).2
        · exact hall hsha hlinked e' he'

variable {ls : List CodeText}

lemma importLines_eq {log : AuditLog}
    (h : ∀ line ∈ ls, readLine env line = .ok (legacyEntry F line)) :
    ls.foldlM (importLine env) log =
      (ls.filterMap (legacyEntry F)).foldlM (importEntry env) log := by
  induction ls generalizing log with
  | nil => rfl
  | cons line ls ih =>
    have hrest : ∀ log : AuditLog, ls.foldlM (importLine env) log =
        (ls.filterMap (legacyEntry F)).foldlM (importEntry env) log :=
      fun _ => ih fun l hl => h l (List.mem_cons_of_mem line hl)
    rw [List.foldlM_cons, importLine, h line List.mem_cons_self]
    cases hentry : legacyEntry F line with
    | none =>
      rw [List.filterMap_cons_none hentry]
      exact hrest log
    | some e =>
      rw [List.filterMap_cons_some hentry, List.foldlM_cons]
      simp only [Except.mapError, bind, Except.bind]
      cases importEntry env log e with
      | error err => rfl
      | ok log' => exact hrest log'

/-- An import of lines that returns has imported some of their objects, and all of them only if
every line was read as what it is. -/
lemma importLines_ok {log log' : AuditLog} (h : ls.foldlM (importLine env) log = .ok log') :
    ∃ es, es.foldlM (importEntry env) log = .ok log' ∧
      es.length ≤ (ls.filterMap (legacyEntry F)).length ∧
      (es.length = (ls.filterMap (legacyEntry F)).length →
        es = ls.filterMap (legacyEntry F) ∧
          ∀ line ∈ ls, readLine env line = .ok (legacyEntry F line)) := by
  induction ls generalizing log with
  | nil => exact ⟨[], h, le_rfl, fun _ => ⟨rfl, fun line hline => absurd hline List.not_mem_nil⟩⟩
  | cons line ls ih =>
    rw [List.foldlM_cons, importLine] at h
    rcases readLine_cases env line with ⟨error, hread⟩ | hread | hread
    · simp [hread, Except.mapError, bind, Except.bind] at h
    · simp only [hread, Except.mapError, bind, Except.bind, pure, Except.pure] at h
      obtain ⟨es, hes, hle, hall⟩ := ih h
      cases hentry : legacyEntry F line with
      | none =>
        rw [List.filterMap_cons_none hentry]
        refine ⟨es, hes, hle, fun heq => ⟨(hall heq).1, ?_⟩⟩
        rintro l hl
        rcases List.mem_cons.mp hl with rfl | hl
        · rw [hread, hentry]
        · exact (hall heq).2 l hl
      | some e =>
        -- an object was passed over, so there are fewer
        rw [List.filterMap_cons_some hentry, List.length_cons]
        exact ⟨es, hes, hle.trans (Nat.le_succ _), fun heq => absurd heq (by omega)⟩
    · cases hentry : legacyEntry F line with
      | none =>
        simp only [hread, hentry, Except.mapError, bind, Except.bind, pure, Except.pure] at h
        obtain ⟨es, hes, hle, hall⟩ := ih h
        rw [List.filterMap_cons_none hentry]
        refine ⟨es, hes, hle, fun heq => ⟨(hall heq).1, ?_⟩⟩
        rintro l hl
        rcases List.mem_cons.mp hl with rfl | hl
        · exact hread
        · exact (hall heq).2 l hl
      | some e =>
        simp only [hread, hentry, Except.mapError, bind, Except.bind] at h
        cases himport : importEntry env log e with
        | error err => simp [himport] at h
        | ok log₁ =>
          simp only [himport] at h
          obtain ⟨es, hes, hle, hall⟩ := ih h
          rw [List.filterMap_cons_some hentry]
          refine ⟨e :: es, ?_, Nat.succ_le_succ hle, fun heq => ?_⟩
          · rw [List.foldlM_cons, himport]
            exact hes
          · obtain ⟨rfl, hlines⟩ := hall (Nat.succ.inj heq)
            refine ⟨rfl, ?_⟩
            rintro l hl
            rcases List.mem_cons.mp hl with rfl | hl
            · exact hread
            · exact hlines l hl

lemma isInt64_ids (n : ℕ) : (∀ i < n, isInt64 (AuditLog.empty.lastPlace.1 + 1 + (i : ℤ)) = true) ↔
    n < 2 ^ 63 := by
  have hstart : AuditLog.empty.lastPlace.1 = 0 := rfl
  simp only [hstart, isInt64, decide_eq_true_eq]
  constructor
  · intro h
    cases n with
    | zero => exact Nat.two_pow_pos 63
    | succ n =>
      have hlast := (h n (Nat.lt_succ_self n)).2
      omega
  · intro h i hi
    omega

/-- **An import is intact if its files are importable, and where hashes do not collide only
then.** -/
theorem import_intact_iff (env : ImportEnv F) (files : List LegacyFile) :
    (Importable env files → Intact env files) ∧
      (Function.Injective env.sha256 → Intact env files → Importable env files) := by
  constructor
  · intro h
    have hread : ∀ line ∈ lines env files, readLine env line = .ok (legacyEntry F line) :=
      fun line hline => (readLine_eq_iff line).mpr (h.within line hline)
    obtain ⟨log, new, hfold, hentries, hall, hlinked⟩ := importEntries_of_storable env
      h.storable ((isInt64_ids _).mpr h.few) (trivial : AuditLog.empty.Linked env.audit)
    refine ⟨log, ?_, ?_, AuditLog.verify_ok_iff.mpr hlinked⟩
    · rw [importActivityFiles, importLines_eq env hread]
      exact hfold
    · rw [hentries]
      exact hall
  · rintro hsha ⟨log, himport, hall, hverify⟩
    obtain ⟨es, hes, -, hsame⟩ := importLines_ok env himport
    obtain ⟨new, hentries, -, hlength, hids, hstorable⟩ := importEntries_ok env hes
    have hnew : log.entries = new := hentries
    obtain ⟨rfl, hread⟩ := hsame (by rw [← hlength, ← hnew, ← hall.length_eq]; rfl)
    exact ⟨fun line hline => (readLine_eq_iff line).mp (hread line hline),
      hstorable hsha (AuditLog.verify_ok_iff.mp hverify), (isInt64_ids _).mp hids⟩

/-! ## A user that cannot be encoded -/

instance : DecidablePred zeroText.isFloat := fun q => inferInstanceAs (Decidable (q = 0))

lemma not_ascii_of_surrogate (c : ℕ) (hc : isSurrogate c = true) :
    decide (32 ≤ c ∧ c ≤ 126) = false := by
  rw [isSurrogate, decide_eq_true_eq] at hc
  exact decide_eq_false (by omega)

/-- The printable code points of ASCII. -/
def asciiPrintables : PyRepr.Printables :=
  ⟨fun c => decide (32 ≤ c ∧ c ≤ 126), not_ascii_of_surrogate⟩

/-- Files of ASCII, and a hash that does not collide. -/
def sampleImport : ImportEnv zeroText where
  sha256 := id
  decode := fun bytes => bytes.data.toList.map UInt8.toNat
  loadDepth := 900
  dumpDepth := 900
  reprDepth := 900
  printables := asciiPrintables
  realText := fun _ => "0.0".toList

def activityFile (content : String) : LegacyFile where
  name := lit "activity_20260901.json"
  content := some content.toUTF8

/-- A surrogate that was escaped is read, and cannot be hashed: the import raises. -/
theorem import_raises_on_surrogate : ¬Intact sampleImport
    [activityFile "\x7b\"action\": \"login\", \"user\": \"\\ud800\"\x7d\n"] := by
  rintro ⟨log, himport, -⟩
  have hraises : (importActivityFiles sampleImport
      [activityFile "\x7b\"action\": \"login\", \"user\": \"\\ud800\"\x7d\n"]).isOk = false := by
    decide +kernel
  rw [himport] at hraises
  cases hraises

def sampleLine : CodeText := lit "\x7b\"action\": \"login\", \"user\": \"ops\"\x7d"

def sampleFiles : List LegacyFile :=
  [activityFile "\x7b\"action\": \"login\", \"user\": \"ops\"\x7d\n\n\x7bbroken"]

def sampleObject : JsonEntries :=
  [(lit "action", .str (lit "login")), (lit "user", .str (lit "ops"))]

/-- The line is what the earlier version wrote for its object. -/
lemma loads_sampleLine {L : JsonScan.Limits} (hL : L.ReadsWritten) (hdepth : 0 < L.depth) :
    JsonScan.loads zeroText L sampleLine = .ok (.dict sampleObject) := by
  have hdumps : PyJson.dumps lineOptions 1 (.dict [(.str (PyStr.lit "action"),
      .str (PyStr.lit "login")), (.str (PyStr.lit "user"), .str (PyStr.lit "ops"))] :
      PyValue zeroText) = .ok sampleLine := by
    decide +kernel
  have hseparated : JsonScan.Separated lineOptions :=
    ⟨⟨[32], rfl, by decide⟩, ⟨[32], rfl, by decide⟩⟩
  obtain ⟨depth, hdepth⟩ : ∃ depth, L.depth = depth + 1 := ⟨L.depth - 1, by omega⟩
  rw [JsonScan.loads_dumps hseparated hL hdumps, hdepth]
  rfl

/-- One line of three is an object, and is imported. -/
theorem import_intact_sample : Intact sampleImport sampleFiles ∧
    Importable sampleImport sampleFiles := by
  have hlines : lines sampleImport sampleFiles = [sampleLine, [], lit "\x7bbroken"] := by
    decide +kernel
  have hloads := loads_sampleLine (L := sampleImport.limits)
    (fun k hk => decide_eq_true hk) (by decide)
  have hstrip : strip sampleLine = sampleLine := by decide +kernel
  have hobject : legacyEntry zeroText sampleLine = some sampleObject := by
    rw [legacyEntry, hstrip, JsonScan.unlimited_of_loads hloads]
    rfl
  have hnone : ∀ {line : CodeText}, (JsonScan.unlimited zeroText (strip line)).isNone = true →
      legacyEntry zeroText line = none := by
    intro line h
    rw [legacyEntry, Option.isNone_iff_eq_none.mp h]
  have hblank : legacyEntry zeroText [] = none := hnone (by decide +kernel)
  have hbroken : legacyEntry zeroText (lit "\x7bbroken") = none := hnone (by decide +kernel)
  have hentries : legacyEntries sampleImport sampleFiles = [sampleObject] := by
    rw [legacyEntries, hlines, List.filterMap_cons_some hobject, List.filterMap_cons_none hblank,
      List.filterMap_cons_none hbroken, List.filterMap_nil]
  have hintact : Intact sampleImport sampleFiles := by
    refine (import_intact_iff sampleImport sampleFiles).1 ⟨?_, ?_, ?_⟩
    · rw [hlines]
      simp only [List.forall_mem_cons]
      refine ⟨⟨fun _ => ?_, ?_⟩, ⟨fun h => ?_, fun _ => hblank⟩, ⟨fun h => ?_, fun _ => hbroken⟩,
        fun line hline => absurd hline List.not_mem_nil⟩
      · rw [hstrip, hloads]
        simp
      · rw [hstrip, hloads]
        simp
      · exact absurd h (by decide)
      · exact absurd h (by decide)
    · have htext : ∀ {t : CodeText}, encodable t = true → HasText sampleImport (.str t) :=
        fun ht => ⟨rfl, fun u hu => JsonValue.str.inj hu ▸ ht⟩
      rw [hentries, List.forall_mem_singleton]
      exact ⟨htext rfl, htext (by decide), htext (by decide), .inr (.inr ⟨_, rfl, by decide⟩),
        .inl rfl, .inl rfl, by decide +kernel, by decide +kernel⟩
    · rw [hentries]
      decide
  exact ⟨hintact, (import_intact_iff sampleImport sampleFiles).2 Function.injective_id hintact⟩

end Habeny.Audit.Import
