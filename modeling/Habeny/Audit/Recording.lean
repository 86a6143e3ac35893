import Habeny.Audit.Log
import Habeny.Lib.PyJson
import Habeny.Lib.Percent

/-!
# Recording an event

What `record` does with any strings and any details: the canonical text of the details, the hash
of the entry, the insert, and the line in the server log.  Writing the details may raise, encoding
what the hash is taken of may, and the database may fail at each statement; only its own errors
are caught.

An event is kept if recording it returns, its line is in the server log and, where the database
accepts writes, the audit log has one more entry, which is the event's.  `record_keeps_iff` says
exactly which events are.
-/

namespace Habeny.Audit.Recording

open Habeny.Lib PyJson

variable {F : JsonText.FloatText} {D : Type*}

/-- What is recorded. -/
structure Event (F : JsonText.FloatText) where
  ts : Text
  action : PyStr
  status : PyStr
  user : Option PyStr
  token : Option PyStr
  ip : Option PyStr
  requestId : Option PyStr
  details : PyValue F

/-! ## The entry -/

def canonicalOptions : DumpOptions where
  sortKeys := true
  ensureAscii := false
  itemSeparator := CodeText.lit ","
  keySeparator := CodeText.lit ":"
  printable := by decide

def linkOptions : DumpOptions := { canonicalOptions with sortKeys := false }

/-- `details or {}` -/
def orEmpty (details : PyValue F) : PyValue F := if details.truthy then details else .dict []

def canonicalDetails (depth : ℕ) (details : PyValue F) : Except PyError CodeText :=
  dumps canonicalOptions depth (orEmpty details)

/-- The details as they are stored. -/
def detailsText (depth : ℕ) : PyValue F → Except PyError CodeText
  | .str t => .ok t.points
  | details => canonicalDetails depth details

/-- A text or a null in the array that is hashed. -/
def linkText : Option CodeText → CodeText
  | none => CodeText.lit "null"
  | some t => quote linkOptions t

/-- What the hash of an entry is taken of, after the id has been written. -/
def payload (prevHash : Text) (id : CodeText) (e : Event F) (details : CodeText) : CodeText :=
  bracketed linkOptions '[' ']'
    [linkText (some (prevHash.map Char.toNat)), id, linkText (some (e.ts.map Char.toNat)),
      linkText (some e.action.points), linkText (some e.status.points),
      linkText (e.user.map PyStr.points), linkText (e.token.map PyStr.points),
      linkText (e.ip.map PyStr.points), linkText (e.requestId.map PyStr.points),
      linkText (some details)]

/-- The chain link (`entry_hash`), which encodes what it hashes. -/
def entryHash (env : AuditEnv D) (prevHash : Text) (id : ℤ) (e : Event F) (details : CodeText) :
    Except PyError Text := do
  let idText ← intRepr id
  let text := payload prevHash idText e details
  if CodeText.encodable text then
    return env.sha256 (text.map Char.ofNat)
  else .error .unicodeEncodeError

/-- Where the database fails. -/
inductive Fault where
  | connect
  | begin
  | read
  | insert
  | commit
  deriving DecidableEq

/-- Why there is no entry: an error of the database, or another exception. -/
inductive Failure where
  | sqlite
  | raised (error : PyError)
  deriving DecidableEq

/-- The integers that the database stores. -/
def isInt64 (n : ℤ) : Bool := decide (-2 ^ 63 ≤ n ∧ n < 2 ^ 63)

/-- Insert an entry after the last one. -/
def insert (log : AuditLog) (e : Entry) (hid : e.id = log.lastPlace.1 + 1) : AuditLog :=
  { log with entries := log.entries ++ [e], sorted := log.sorted_concat hid }

/-- The row of an event. -/
def row (log : AuditLog) (e : Event F) (details : CodeText) (digest : Text) : Entry :=
  { id := log.lastPlace.1 + 1, ts := e.ts, action := e.action.chars, status := e.status.chars,
    user := e.user.map PyStr.chars, token := e.token.map PyStr.chars, ip := e.ip.map PyStr.chars,
    requestId := e.requestId.map PyStr.chars, details := details.map Char.ofNat,
    prevHash := log.lastPlace.2, hash := digest }

/-- Add one entry (`append`). -/
def append (env : AuditEnv D) (depth : ℕ) (fault : Option Fault) (log : AuditLog) (e : Event F) :
    Except Failure (Place × AuditLog) := do
  let details ← (detailsText depth e.details).mapError .raised
  if fault = some .read then .error .sqlite
  let id := log.lastPlace.1 + 1
  let digest ← (entryHash env log.lastPlace.2 id e details).mapError .raised
  if !isInt64 id then .error (.raised .overflowError)
  if fault = some .insert then .error .sqlite
  return ((id, digest), insert log (row log e details digest) rfl)

/-- The transaction around it. -/
def store (env : AuditEnv D) (depth : ℕ) (fault : Option Fault) (log : AuditLog) (e : Event F) :
    Except Failure (Place × AuditLog) := do
  if fault = some .connect ∨ fault = some .begin then .error .sqlite
  let (place, log') ← append env depth fault log e
  if fault = some .commit then .error .sqlite
  return (place, log')

/-! ## The server log -/

inductive LogLevel where
  | debug
  | info
  | warning
  | error
  deriving DecidableEq

inductive LogFormat where
  | text
  | json
  deriving DecidableEq

/-- The server log: its level and format, and whether its stream writes the surrogates that stand
for bytes. -/
structure ServerLog where
  level : LogLevel
  format : LogFormat
  surrogateescape : Bool

/-- What a request knows (`request_context`). -/
structure RequestContext where
  id : PyStr
  user : Option PyStr
  token : Option PyStr
  ip : Option PyStr

/-- How deeply details may be nested before writing them raises: in the entry and in the log. -/
structure Limits where
  stored : ℕ
  logged : ℕ

def LogLevel.showsInfo : LogLevel → Bool
  | .debug | .info => true
  | .warning | .error => false

/-- Whether the stream writes a code point. -/
def ServerLog.encodes (server : ServerLog) (c : ℕ) : Bool :=
  !CodeText.isSurrogate c || (server.surrogateescape && decide (0xDC80 ≤ c ∧ c ≤ 0xDCFF))

def ServerLog.writes (server : ServerLog) (t : CodeText) : Bool := t.all server.encodes

/-- `f"{action} {status}" + (f" by {user}" if user else "")` -/
def message (e : Event F) : PyStr :=
  let done := e.action ++ PyStr.lit " " ++ e.status
  match e.user with
  | some user => if user.points = [] then done else done ++ PyStr.lit " by " ++ user
  | none => done

def logger : PyStr := PyStr.lit "habeny.audit"

/-- The request id on a line, `-` outside a request. -/
def lineRequestId (ctx : Option RequestContext) : PyStr :=
  (ctx.map RequestContext.id).getD (PyStr.lit "-")

/-- The user of the request on a line, `-` without one. -/
def lineUser (ctx : Option RequestContext) : PyStr :=
  match ctx.bind RequestContext.user with
  | some user => if user.points = [] then PyStr.lit "-" else user
  | none => PyStr.lit "-"

def textLine (time : Text) (ctx : Option RequestContext) (e : Event F) : PyStr :=
  PyStr.ofText time ++ PyStr.lit " INFO    " ++ logger ++ PyStr.lit " [" ++ lineRequestId ctx ++
    PyStr.lit "] " ++ message e

/-- `entry[key] = value` -/
def setEntry (es : List (PyStr × PyValue F)) (e : PyStr × PyValue F) : List (PyStr × PyValue F) :=
  if e.1 ∈ es.map Prod.fst then es.map fun e' => if e'.1 = e.1 then e else e'
  else es ++ [e]

/-- `entry.update(fields)` -/
def update (es fields : List (PyStr × PyValue F)) : List (PyStr × PyValue F) :=
  fields.foldl setEntry es

def orNone : Option PyStr → PyValue F
  | none => .none
  | some t => .str t

/-- The fields that the event adds to its line, the details last. -/
def fields (e : Event F) (place : Option Place) : List (PyStr × PyValue F) :=
  [(PyStr.lit "audit_id", (place.map fun p => PyValue.int p.1).getD .none),
    (PyStr.lit "audit_hash", (place.map fun p => PyValue.str (PyStr.ofText p.2)).getD .none),
    (PyStr.lit "action", .str e.action), (PyStr.lit "status", .str e.status),
    (PyStr.lit "user", orNone e.user), (PyStr.lit "token", orNone e.token)] ++
    [(PyStr.lit "details", e.details)]

/-- The line as a dict. -/
def lineEntry (time : Text) (ctx : Option RequestContext) (e : Event F) (place : Option Place) :
    List (PyStr × PyValue F) :=
  update
    ([(PyStr.lit "time", .str (PyStr.ofText time)), (PyStr.lit "level", .str (PyStr.lit "info")),
      (PyStr.lit "logger", .str logger), (PyStr.lit "message", .str (message e))] ++
      (if lineRequestId ctx = PyStr.lit "-" then []
        else [(PyStr.lit "request_id", .str (lineRequestId ctx))]) ++
      (if lineUser ctx = PyStr.lit "-" then []
        else [(PyStr.lit "user", .str (lineUser ctx))]))
    (fields e place)

def lineOptions : DumpOptions where
  sortKeys := false
  ensureAscii := true
  itemSeparator := CodeText.lit ", "
  keySeparator := CodeText.lit ": "
  printable := by decide

/-- The line, in the format of the log. -/
def formatted (server : ServerLog) (depth : ℕ) (time : Text) (ctx : Option RequestContext)
    (e : Event F) (place : Option Place) : Except PyError CodeText :=
  match server.format with
  | .text => .ok (textLine time ctx e).points
  | .json =>
    dumps lineOptions (depth + 1)
      (.dict ((lineEntry time ctx e place).map fun entry => (PyKey.str entry.1, entry.2)))

/-- The line that `audit_logger.info` writes.  What formatting or writing it raises is not passed
on, and there is no line then. -/
def auditLine (server : ServerLog) (depth : ℕ) (time : Text) (ctx : Option RequestContext)
    (e : Event F) (place : Option Place) : Option CodeText :=
  if server.level.showsInfo then
    match formatted server depth time ctx e place with
    | .ok line => if server.writes line then some line else none
    | .error _ => none
  else none

/-! ## The record -/

/-- What recording leaves: the exception that it raises, the audit log, and the event's line. -/
structure Outcome where
  raised : Option PyError
  log : AuditLog
  line : Option CodeText

/-- `user or ctx.get("user")` -/
def orContext (user : Option PyStr) (ctx : Option RequestContext) : Option PyStr :=
  match user with
  | some user => if user.points = [] then ctx.bind RequestContext.user else some user
  | none => ctx.bind RequestContext.user

/-- The event of an action. -/
def event (ctx : Option RequestContext) (action : PyStr) (details : PyValue F) (status : PyStr)
    (user : Option PyStr) (ts : Text) : Event F :=
  { ts, action, status, user := orContext user ctx, token := ctx.bind RequestContext.token,
    ip := ctx.bind RequestContext.ip, requestId := ctx.map RequestContext.id, details }

/-- Record an action (`record`). -/
def record (env : AuditEnv D) (server : ServerLog) (limits : Limits) (fault : Option Fault)
    (log : AuditLog) (ctx : Option RequestContext) (action : PyStr) (details : PyValue F)
    (status : PyStr) (user : Option PyStr) (ts time : Text) : Outcome :=
  let e := event ctx action details status user ts
  match store env limits.stored fault log e with
  | .ok (place, log') =>
    { raised := none, log := log', line := auditLine server limits.logged time ctx e (some place) }
  | .error .sqlite =>
    { raised := none, log, line := auditLine server limits.logged time ctx e none }
  | .error (.raised error) => { raised := some error, log, line := none }

/-! ## What is kept -/

/-- An entry carries an event: it has the event's texts, and the text of its details. -/
structure Carries (depth : ℕ) (e : Event F) (entry : Entry) : Prop where
  ts : entry.ts = e.ts
  action : entry.action.map Char.toNat = e.action.points
  status : entry.status.map Char.toNat = e.status.points
  user : entry.user.map (List.map Char.toNat) = e.user.map PyStr.points
  token : entry.token.map (List.map Char.toNat) = e.token.map PyStr.points
  ip : entry.ip.map (List.map Char.toNat) = e.ip.map PyStr.points
  requestId : entry.requestId.map (List.map Char.toNat) = e.requestId.map PyStr.points
  details : detailsText depth e.details = .ok (entry.details.map Char.toNat)

/-- The event is kept: recording it returns, its line is written and, where the database accepts
writes, the log has one more entry, which carries it. -/
structure Keeps (depth : ℕ) (fault : Option Fault) (log : AuditLog) (e : Event F) (o : Outcome) :
    Prop where
  returns : o.raised = none
  logged : o.line.isSome = true
  stored : fault = none → ∃ entry, o.log.entries = log.entries ++ [entry] ∧ Carries depth e entry

/-- Details that can be written to an entry. -/
def detailsFit (depth : ℕ) : PyValue F → Bool
  | .str _ => true
  | details => fits canonicalOptions depth (orEmpty details)

def detailsPoints : PyValue F → CodeText
  | .str t => t.points
  | details => points (orEmpty details)

/-- The texts that are stored beside the details. -/
def Event.texts (e : Event F) : List (Option PyStr) :=
  [some e.action, some e.status, e.user, e.token, e.ip, e.requestId]

/-- Whether everything that is stored can be encoded. -/
def encodable (e : Event F) : Bool :=
  (e.texts.all fun t => CodeText.encodable ((t.map PyStr.points).getD [])) &&
    CodeText.encodable (detailsPoints e.details)

/-- Whether an event can be stored, where the database does not fail before. -/
def storable (depth : ℕ) (fault : Option Fault) (log : AuditLog) (e : Event F) : Bool :=
  decide (fault = some .connect ∨ fault = some .begin) ||
    detailsFit depth e.details &&
      (decide (fault = some .read) ||
        encodable e && isInt64 (log.lastPlace.1 + 1))

/-- Whether the line of an event can be written. -/
def loggable (server : ServerLog) (depth : ℕ) (ctx : Option RequestContext) (e : Event F) : Bool :=
  server.level.showsInfo &&
    match server.format with
    | .text =>
      server.writes ((lineRequestId ctx).points ++ e.action.points ++ e.status.points ++
        (e.user.map PyStr.points).getD [])
    | .json => fits lineOptions depth e.details

/-! ## The texts of an entry -/

/-- A text that can be encoded is its characters. -/
lemma toNat_ofNat {t : CodeText} (hvalid : ∀ c ∈ t, c < 0x110000)
    (hencodable : CodeText.encodable t = true) : (t.map Char.ofNat).map Char.toNat = t := by
  rw [encodable_iff] at hencodable
  rw [List.map_map]
  calc t.map (Char.toNat ∘ Char.ofNat) = t.map id := List.map_congr_left fun c hc => ?_
    _ = t := List.map_id t
  have hsurrogate := hencodable c hc
  have hlt := hvalid c hc
  rw [CodeText.isSurrogate, decide_eq_false_iff_not] at hsurrogate
  exact toNat_ofNat_of_valid (by rw [Nat.isValidChar]; omega)

lemma toNat_chars {s : PyStr} (h : s.encodable = true) : s.chars.map Char.toNat = s.points :=
  toNat_ofNat s.valid h

lemma toNat_optional {s : Option PyStr}
    (h : CodeText.encodable ((s.map PyStr.points).getD []) = true) :
    (s.map PyStr.chars).map (List.map Char.toNat) = s.map PyStr.points := by
  cases s with
  | none => rfl
  | some s => exact congrArg some (toNat_chars h)

lemma encodable_text (t : Text) : CodeText.encodable (t.map Char.toNat) = true := by
  rw [encodable_iff]
  intro c hc
  obtain ⟨d, -, rfl⟩ := List.mem_map.mp hc
  rw [CodeText.isSurrogate, decide_eq_false_iff_not]
  rcases d.valid with h | h
  · exact fun hs => absurd (hs.1.trans_lt h) (by decide)
  · exact fun hs => absurd (h.1.trans_le hs.2) (by decide)

lemma encodable_linkText {t : Option CodeText} :
    CodeText.encodable (linkText t) = CodeText.encodable (t.getD []) := by
  cases t with
  | none => rfl
  | some t =>
    rw [linkText, Bool.eq_iff_iff, encodable_iff,
      forall_mem_quote (fun c hc => isSurrogate_of_printable hc)]
    have hlow : ∀ c < 128, CodeText.isSurrogate c = false := by decide
    have hraw : ∀ c, escape linkOptions c = rawEscape c := fun c => rfl
    simp only [hraw, forall_mem_rawEscape (P := fun d => CodeText.isSurrogate d = false) hlow]
    exact encodable_iff.symm

lemma detailsText_isOk_iff {depth : ℕ} {details : PyValue F} :
    (∃ t, detailsText depth details = .ok t) ↔ detailsFit depth details = true := by
  cases details with
  | str t => simp [detailsText, detailsFit]
  | _ => exact dumps_isOk depth _

lemma encodable_detailsText {depth : ℕ} {details : PyValue F} {t : CodeText}
    (h : detailsText depth details = .ok t) :
    CodeText.encodable t = CodeText.encodable (detailsPoints details) := by
  cases details with
  | str t => cases h; rfl
  | _ => exact encodable_dumps rfl h

lemma valid_detailsText {depth : ℕ} {details : PyValue F} {t : CodeText}
    (h : detailsText depth details = .ok t) : ∀ c ∈ t, c < 0x110000 := by
  cases details with
  | str t => cases h; exact t.valid
  | _ => exact valid_dumps h

/-- What is hashed can be encoded exactly if everything that is stored can. -/
lemma encodable_payload {prevHash : Text} {id : ℤ} {idText : CodeText} {e : Event F} {depth : ℕ}
    {details : CodeText} (hid : intRepr id = .ok idText)
    (hdetails : detailsText depth e.details = .ok details) :
    CodeText.encodable (payload prevHash idText e details) = encodable e := by
  have hidText : CodeText.encodable idText = true :=
    encodable_iff.mpr fun c hc => isSurrogate_of_printable (intRepr_eq_ok hid c hc)
  rw [Bool.eq_iff_iff, encodable_iff, payload,
    forall_mem_bracketed (fun c hc => isSurrogate_of_printable hc) (by decide) (by decide)]
  simp only [← encodable_iff, List.forall_mem_cons, encodable_linkText,
    Option.getD_some, encodable_text, hidText, encodable_detailsText hdetails, encodable,
    Event.texts, List.all_cons, List.all_nil, Bool.and_eq_true, Option.map_some]
  tauto

/-! ## The transaction -/

lemma fewDigits_of_isInt64 {n : ℤ} (h : isInt64 n = true) : fewDigits n = true := by
  rw [isInt64, decide_eq_true_eq] at h
  rw [fewDigits, decide_eq_true_eq]
  have hlength : ∀ m < 10 ^ 20, (Nat.toDigits 10 m).length ≤ 20 := fun m hm =>
    (Nat.length_toDigits_le_iff (by decide) (by decide)).mpr hm
  refine (List.length_filter_le _ _).trans ?_
  rw [JsonText.intText, List.length_map, JsonText.maxDigits]
  cases n with
  | ofNat n =>
    have hn : n < 2 ^ 63 := by simpa using h.2
    have := hlength n (by omega)
    rw [Json.intText]
    omega
  | negSucc n =>
    have hn : n + 1 ≤ 2 ^ 63 := by omega
    have := hlength (n + 1) (by omega)
    rw [Json.intText, List.length_cons]
    omega

/-- The record of the log that an event is, with the text of its details. -/
def stored (e : Event F) (details : CodeText) : Record D :=
  { ts := e.ts, action := e.action.chars, status := e.status.chars, user := e.user.map PyStr.chars,
    token := e.token.map PyStr.chars, ip := e.ip.map PyStr.chars,
    requestId := e.requestId.map PyStr.chars, details := .text (details.map Char.ofNat) }

lemma rawEscape_low :
    ∀ n < 128, rawEscape n = (Json.escapeChar (Char.ofNat n)).map Char.toNat := by
  decide

lemma rawEscape_toNat (c : Char) : rawEscape c.toNat = (Json.escapeChar c).map Char.toNat := by
  by_cases hlow : c.toNat < 128
  · rw [rawEscape_low _ hlow, Char.ofNat_toNat]
  · have hne : ∀ d : Char, d.toNat < 128 → c ≠ d := by
      rintro d hd rfl
      exact hlow hd
    have hletter : JsonText.letters.lookup c.toNat = none := by
      cases hlookup : JsonText.letters.lookup c.toNat with
      | none => rfl
      | some e =>
        obtain ⟨before, after, hletters, -⟩ := List.lookup_eq_some_iff.mp hlookup
        exact absurd (letters_low (c.toNat, e) (by simp [hletters])) hlow
    have hshort : Json.shortEscape c = none := by
      unfold Json.shortEscape
      rw [if_neg (hne _ (by decide)), if_neg (hne _ (by decide)), if_neg (hne _ (by decide)),
        if_neg (hne _ (by decide)), if_neg (hne _ (by decide)), if_neg (hne _ (by decide)),
        if_neg (hne _ (by decide))]
    rw [rawEscape, hletter, Json.escapeChar, hshort]
    simp only
    rw [if_neg (by omega), if_neg (by omega), List.map_singleton]

lemma quote_toNat (t : Text) :
    quote linkOptions (t.map Char.toNat) = (Json.quote t).map Char.toNat := by
  rw [quote, Json.quote, List.map_cons, List.map_append, List.map_flatMap, List.flatMap_map]
  simp only [← rawEscape_toNat]
  rfl

lemma linkText_toNat (t : Option Text) :
    linkText (t.map (List.map Char.toNat)) = (Json.scalarText (scalar t)).map Char.toNat := by
  cases t with
  | none => rfl
  | some t => exact quote_toNat t

/-- The array that is hashed is the one of the log. -/
lemma payload_toNat {prevHash : Text} {id : ℤ} {e : Event F} {details : CodeText}
    (htexts : ∀ t ∈ e.texts, CodeText.encodable ((t.map PyStr.points).getD []) = true)
    (hdetails : (details.map Char.ofNat).map Char.toNat = details) :
    payload prevHash (JsonText.intText id) e details =
      (Json.dumps [.text prevHash, .int id, .text e.ts, .text e.action.chars, .text e.status.chars,
        scalar (e.user.map PyStr.chars), scalar (e.token.map PyStr.chars),
        scalar (e.ip.map PyStr.chars), scalar (e.requestId.map PyStr.chars),
        .text (details.map Char.ofNat)]).map Char.toNat := by
  have hoptional : ∀ t ∈ e.texts, linkText (t.map PyStr.points) =
      (Json.scalarText (scalar (t.map PyStr.chars))).map Char.toNat := fun t ht => by
    rw [← toNat_optional (htexts t ht), linkText_toNat]
  simp only [Event.texts, List.forall_mem_cons] at hoptional
  obtain ⟨haction, hstatus, huser, htoken, hip, hrequestId, -⟩ := hoptional
  have htext : ∀ t : Text, linkText (some (t.map Char.toNat)) =
      (Json.scalarText (.text t)).map Char.toNat := fun t => linkText_toNat (some t)
  have hdetailsText : linkText (some details) =
      (Json.scalarText (.text (details.map Char.ofNat))).map Char.toNat := by
    rw [← htext, hdetails]
  have hid : JsonText.intText id = (Json.scalarText (.int id)).map Char.toNat := rfl
  have hseparator : linkOptions.itemSeparator = [','].map Char.toNat := rfl
  simp only [Option.map_some] at haction hstatus
  simp only [payload, bracketed, haction, hstatus, huser, htoken, hip, hrequestId, htext,
    hdetailsText, hid, hseparator, List.intercalate_cons_cons, List.intercalate_singleton,
    Json.dumps, Json.itemsText, scalar, List.map_cons, List.map_append, List.map_nil,
    List.append_assoc, List.cons_append, List.nil_append]

/-- What can be encoded has the hash of the log. -/
lemma entryHash_eq (env : AuditEnv D) (prevHash : Text) {id : ℤ} {e : Event F} {depth : ℕ}
    {details : CodeText} (hid : fewDigits id = true)
    (hdetails : detailsText depth e.details = .ok details) :
    entryHash env prevHash id e details =
      if encodable e then
        .ok (Audit.entryHash env prevHash id e.ts e.action.chars e.status.chars
          (e.user.map PyStr.chars) (e.token.map PyStr.chars) (e.ip.map PyStr.chars)
          (e.requestId.map PyStr.chars) (details.map Char.ofNat))
      else .error .unicodeEncodeError := by
  have hidText : intRepr id = .ok (JsonText.intText id) := if_pos hid
  rw [entryHash, hidText]
  simp only [bind, Except.bind, encodable_payload hidText hdetails]
  split_ifs with hencodable
  · rw [encodable, Bool.and_eq_true, List.all_eq_true] at hencodable
    have htext := toNat_ofNat (valid_detailsText hdetails)
      ((encodable_detailsText hdetails).trans hencodable.2)
    have hback : Char.ofNat ∘ Char.toNat = fun c => c := funext Char.ofNat_toNat
    rw [payload_toNat hencodable.1 htext, List.map_map, hback, List.map_id']
    rfl
  · rfl


/-- The entry of an event carries it. -/
lemma newEntry_carries {env : AuditEnv D} {log : AuditLog} {e : Event F} {depth : ℕ}
    {details : CodeText} (hdetails : detailsText depth e.details = .ok details)
    (hencodable : encodable e = true) :
    Carries depth e (log.newEntry env (stored e details)) := by
  simp only [encodable, Event.texts, List.all_cons, List.all_nil, Bool.and_eq_true, Option.map_some,
    Option.getD_some, and_true] at hencodable
  obtain ⟨⟨haction, hstatus, huser, htoken, hip, hrequestId⟩, hpoints⟩ := hencodable
  have htext := toNat_ofNat (valid_detailsText hdetails)
    ((encodable_detailsText hdetails).trans hpoints)
  exact ⟨rfl, toNat_chars haction, toNat_chars hstatus, toNat_optional huser,
    toNat_optional htoken, toNat_optional hip, toNat_optional hrequestId, hdetails.trans
      (congrArg Except.ok htext.symm)⟩

/-- Details that do not fit raise before the database is read. -/
lemma append_of_not_fit (env : AuditEnv D) {depth : ℕ} (fault : Option Fault) (log : AuditLog)
    {e : Event F} (h : detailsFit depth e.details = false) :
    ∃ error, append env depth fault log e = .error (.raised error) := by
  cases hdetails : detailsText depth e.details with
  | ok details => exact absurd (detailsText_isOk_iff.mp ⟨details, hdetails⟩) (by simp [h])
  | error error => exact ⟨error, by simp [append, hdetails, Except.mapError, bind, Except.bind]⟩

/-- After the database was read, an event that can be encoded is appended to the log. -/
lemma append_of_fit (env : AuditEnv D) {depth : ℕ} {fault : Option Fault} (log : AuditLog)
    {e : Event F} (h : detailsFit depth e.details = true) (hread : fault ≠ some .read) :
    if encodable e && isInt64 (log.lastPlace.1 + 1) then
      ∃ details, Carries depth e (log.newEntry env (stored e details)) ∧
        append env depth fault log e =
          if fault = some .insert then .error .sqlite else .ok (log.append env (stored e details))
    else ∃ error, append env depth fault log e = .error (.raised error) := by
  obtain ⟨details, hdetails⟩ := detailsText_isOk_iff.mpr h
  cases hid : fewDigits (log.lastPlace.1 + 1) with
  | false =>
    have hid64 : isInt64 (log.lastPlace.1 + 1) = false := by
      by_contra hne
      exact absurd (fewDigits_of_isInt64 (Bool.not_eq_false _ ▸ hne)) (by simp [hid])
    have hrepr : intRepr (log.lastPlace.1 + 1) = .error .valueError := by simp [intRepr, hid]
    rw [hid64, Bool.and_false, if_neg Bool.false_ne_true]
    exact ⟨.valueError, by
      simp [append, entryHash, hdetails, hrepr, hread, Except.mapError, bind, Except.bind]⟩
  | true =>
    have hhash := entryHash_eq env log.lastPlace.2 hid hdetails
    cases hencodable : encodable e with
    | false =>
      rw [hencodable, if_neg Bool.false_ne_true] at hhash
      exact ⟨.unicodeEncodeError, by
        simp [append, hdetails, hhash, hread, Except.mapError, bind, Except.bind]⟩
    | true =>
      rw [hencodable, if_pos rfl] at hhash
      cases hid64 : isInt64 (log.lastPlace.1 + 1) with
      | false =>
        exact ⟨.overflowError, by
          simp [append, hdetails, hhash, hread, hid64, Except.mapError, bind, Except.bind]⟩
      | true =>
        refine ⟨details, newEntry_carries hdetails hencodable, ?_⟩
        by_cases hinsert : fault = some .insert
        · simp [append, hdetails, hhash, hid64, hinsert, Except.mapError, bind, Except.bind]
        · simp [append, hdetails, hhash, hread, hid64, hinsert, Except.mapError, bind, Except.bind,
            pure, Except.pure]
          rfl

/-- The database is not read before the details are written. -/
lemma append_of_read {env : AuditEnv D} {depth : ℕ} {log : AuditLog} {e : Event F}
    (h : detailsFit depth e.details = true) :
    append env depth (some .read) log e = .error .sqlite := by
  obtain ⟨details, hdetails⟩ := detailsText_isOk_iff.mpr h
  simp [append, hdetails, Except.mapError, bind, Except.bind]

/-- An event that can be stored is stored, or the database fails. -/
lemma store_of_storable (env : AuditEnv D) {depth : ℕ} {fault : Option Fault} {log : AuditLog}
    {e : Event F} (h : storable depth fault log e = true) :
    if fault = none then
      isInt64 (log.lastPlace.1 + 1) = true ∧
      ∃ details, Carries depth e (log.newEntry env (stored e details)) ∧
        store env depth fault log e = .ok (log.append env (stored e details))
    else store env depth fault log e = .error .sqlite := by
  by_cases hearly : fault = some .connect ∨ fault = some .begin
  · have hfault : fault ≠ none := by rcases hearly with rfl | rfl <;> simp
    rw [if_neg hfault, store, if_pos hearly]
    rfl
  · rw [storable, decide_eq_false hearly, Bool.false_or, Bool.and_eq_true] at h
    obtain ⟨hfit, h⟩ := h
    by_cases hread : fault = some .read
    · rw [hread, if_neg (by simp), store, if_neg (by simp), append_of_read hfit]
      rfl
    · rw [decide_eq_false hread, Bool.false_or] at h
      have happend := append_of_fit env log hfit hread
      rw [h, if_pos rfl] at happend
      obtain ⟨details, hcarries, happend⟩ := happend
      rw [Bool.and_eq_true] at h
      rw [store, if_neg hearly, happend]
      cases fault with
      | none => exact ⟨h.2, details, hcarries, rfl⟩
      | some fault =>
        cases fault with
        | insert => rfl
        | commit => rfl
        | read => exact absurd rfl hread
        | connect => exact absurd (.inl rfl) hearly
        | begin => exact absurd (.inr rfl) hearly

/-- An event that cannot be stored raises. -/
lemma store_of_not_storable (env : AuditEnv D) {depth : ℕ} {fault : Option Fault} {log : AuditLog}
    {e : Event F} (h : storable depth fault log e = false) :
    ∃ error, store env depth fault log e = .error (.raised error) := by
  rw [storable, Bool.or_eq_false_iff, decide_eq_false_iff_not] at h
  obtain ⟨hearly, h⟩ := h
  rw [store, if_neg hearly]
  cases hfit : detailsFit depth e.details with
  | false =>
    obtain ⟨error, happend⟩ := append_of_not_fit env fault log hfit
    exact ⟨error, by rw [happend]; rfl⟩
  | true =>
    rw [hfit, Bool.true_and, Bool.or_eq_false_iff, decide_eq_false_iff_not] at h
    have happend := append_of_fit env log hfit h.1
    rw [h.2, if_neg Bool.false_ne_true] at happend
    obtain ⟨error, happend⟩ := happend
    exact ⟨error, by rw [happend]; rfl⟩

/-! ## The line -/

lemma encodes_of_not_surrogate {server : ServerLog} {c : ℕ} (h : CodeText.isSurrogate c = false) :
    server.encodes c = true := by
  rw [ServerLog.encodes, h]
  rfl

lemma writes_append {server : ServerLog} {s t : CodeText} :
    server.writes (s ++ t) = (server.writes s && server.writes t) :=
  List.all_append

lemma writes_of_encodable {server : ServerLog} {t : CodeText}
    (h : CodeText.encodable t = true) : server.writes t = true :=
  List.all_eq_true.mpr fun c hc => encodes_of_not_surrogate (encodable_iff.mp h c hc)

lemma writes_lit {server : ServerLog} (s : String) : server.writes (PyStr.lit s).points = true :=
  writes_of_encodable (encodable_text s.toList)

lemma writes_message {server : ServerLog} (e : Event F) :
    server.writes (message e).points = (server.writes e.action.points &&
      server.writes e.status.points && server.writes ((e.user.map PyStr.points).getD [])) := by
  have hnil : server.writes [] = true := rfl
  unfold message
  cases e.user with
  | none => simp [writes_append, writes_lit, hnil]
  | some user =>
    by_cases huser : user.points = []
    · simp [writes_append, writes_lit, huser, hnil]
    · simp [writes_append, writes_lit, huser, Bool.and_assoc]

lemma writes_textLine {server : ServerLog} (time : Text) (ctx : Option RequestContext)
    (e : Event F) :
    server.writes (textLine time ctx e).points =
      server.writes ((lineRequestId ctx).points ++ e.action.points ++ e.status.points ++
        (e.user.map PyStr.points).getD []) := by
  have htime : server.writes (PyStr.ofText time).points = true :=
    writes_of_encodable (encodable_text time)
  simp only [textLine, PyStr.points_append, writes_append, writes_lit, htime, writes_message,
    logger, Bool.true_and, Bool.and_true, Bool.and_assoc]

lemma mem_setEntry_self {es : List (PyStr × PyValue F)} (e : PyStr × PyValue F) :
    e ∈ setEntry es e := by
  unfold setEntry
  split_ifs with hmem
  · obtain ⟨e', he', hkey⟩ := List.mem_map.mp hmem
    exact List.mem_map.mpr ⟨e', he', if_pos hkey⟩
  · exact List.mem_append_right _ (List.mem_singleton_self e)

lemma of_mem_setEntry {es : List (PyStr × PyValue F)} {e e' : PyStr × PyValue F}
    (h : e' ∈ setEntry es e) : e' = e ∨ e' ∈ es := by
  unfold setEntry at h
  split_ifs at h with hmem
  · obtain ⟨d, hd, rfl⟩ := List.mem_map.mp h
    split_ifs
    · exact .inl rfl
    · exact .inr hd
  · rw [List.mem_append, List.mem_singleton] at h
    exact h.symm

/-- An update leaves entries from before and from the fields. -/
lemma of_mem_update {es fields : List (PyStr × PyValue F)} {e : PyStr × PyValue F}
    (h : e ∈ update es fields) : e ∈ fields ∨ e ∈ es := by
  induction fields generalizing es with
  | nil => exact .inr h
  | cons field fields ih =>
    rcases ih h with hmem | hmem
    · exact .inl (List.mem_cons_of_mem _ hmem)
    · rcases of_mem_setEntry hmem with rfl | hmem
      · exact .inl List.mem_cons_self
      · exact .inr hmem

lemma mem_update_concat {es fields : List (PyStr × PyValue F)} (e : PyStr × PyValue F) :
    e ∈ update es (fields ++ [e]) := by
  rw [update, List.foldl_concat]
  exact mem_setEntry_self e

/-- Of the entries of the line only the details may fail to be written. -/
lemma fits_lineEntry {depth : ℕ} (time : Text) (ctx : Option RequestContext) {e : Event F}
    {place : Option Place} (hplace : ∀ p ∈ place, fewDigits p.1 = true) :
    (∀ entry ∈ lineEntry time ctx e place, fits lineOptions depth entry.2 = true) ↔
      fits lineOptions depth e.details = true := by
  constructor
  · exact fun h => h _ (mem_update_concat (PyStr.lit "details", e.details))
  · intro hdetails entry hentry
    rcases of_mem_update hentry with hmem | hmem
    · have hid : fits lineOptions depth
          ((place.map fun p => PyValue.int (F := F) p.1).getD .none) = true := by
        cases place with
        | none => simp [fits]
        | some p => simpa [fits] using hplace p rfl
      have hhash : fits lineOptions depth
          ((place.map fun p => PyValue.str (F := F) (PyStr.ofText p.2)).getD .none) = true := by
        cases place <;> simp [fits]
      have hor : ∀ t, fits lineOptions depth (orNone (F := F) t) = true := by
        intro t
        cases t <;> simp [orNone, fits]
      simp only [fields, List.mem_append, List.mem_cons, List.not_mem_nil, or_false] at hmem
      rcases hmem with (rfl | rfl | rfl | rfl | rfl | rfl) | rfl
      · exact hid
      · exact hhash
      · simp [fits]
      · simp [fits]
      · exact hor _
      · exact hor _
      · exact hdetails
    · -- all other entries are strings
      have hstr : ∃ t, entry.2 = .str t := by
        simp only [List.mem_append, List.mem_cons, List.not_mem_nil, or_false] at hmem
        rcases hmem with ((rfl | rfl | rfl | rfl) | hmem) | hmem
        · exact ⟨_, rfl⟩
        · exact ⟨_, rfl⟩
        · exact ⟨_, rfl⟩
        · exact ⟨_, rfl⟩
        · split_ifs at hmem
          · exact absurd hmem List.not_mem_nil
          · exact ⟨_, congrArg Prod.snd (List.mem_singleton.mp hmem)⟩
        · split_ifs at hmem
          · exact absurd hmem List.not_mem_nil
          · exact ⟨_, congrArg Prod.snd (List.mem_singleton.mp hmem)⟩
      obtain ⟨t, ht⟩ := hstr
      rw [ht]
      simp [fits]

lemma formatted_json_isOk (depth : ℕ) (time : Text) (ctx : Option RequestContext) (e : Event F)
    {place : Option Place} (hplace : ∀ p ∈ place, fewDigits p.1 = true) :
    (∃ t, dumps lineOptions (depth + 1) (.dict ((lineEntry time ctx e place).map fun entry =>
      (PyKey.str entry.1, entry.2))) = .ok t) ↔ fits lineOptions depth e.details = true := by
  rw [dumps_isOk, fits, Bool.and_eq_true, and_iff_right (by rfl), entriesFit_iff,
    ← fits_lineEntry time ctx hplace, List.forall_mem_map]
  simp only [keyFits, true_and]

/-- The line is written exactly if it can be. -/
lemma auditLine_isSome (server : ServerLog) (depth : ℕ) (time : Text)
    (ctx : Option RequestContext) (e : Event F) {place : Option Place} (hplace : ∀ p ∈ place, fewDigits p.1 = true) :
    (auditLine server depth time ctx e place).isSome = loggable server depth ctx e := by
  unfold auditLine loggable formatted
  cases server.level.showsInfo with
  | false => rfl
  | true =>
    rw [if_pos rfl, Bool.true_and]
    cases server.format with
    | text =>
      simp only [writes_textLine]
      split_ifs with hwrites
      · exact hwrites.symm
      · exact (Bool.not_eq_true _ ▸ hwrites).symm
    | json =>
      have hok := formatted_json_isOk depth time ctx e hplace
      cases hfits : fits lineOptions depth e.details with
      | false =>
        rw [hfits] at hok
        split
        · next line hline => exact absurd (hok.mp ⟨line, hline⟩) Bool.false_ne_true
        · rfl
      | true =>
        obtain ⟨line, hline⟩ := hok.mpr hfits
        have hwrites : server.writes line = true := writes_of_encodable <|
          encodable_iff.mpr fun c hc =>
            isSurrogate_of_printable (isAsciiText_dumps rfl hline c hc)
        simp only [hline, hwrites, if_true, Option.isSome_some]

/-! ## Which events are kept -/

/-- **An event is kept exactly if it can be stored and its line can be written.**  It can be
stored if its details can be written and everything that is stored can be encoded, unless the
database fails before the one or the other. -/
theorem record_keeps_iff (env : AuditEnv D) (server : ServerLog) (limits : Limits)
    (fault : Option Fault) (log : AuditLog) (ctx : Option RequestContext) (action : PyStr)
    (details : PyValue F) (status : PyStr) (user : Option PyStr) (ts time : Text) :
    let e := event ctx action details status user ts
    Keeps limits.stored fault log e
        (record env server limits fault log ctx action details status user ts time) ↔
      storable limits.stored fault log e = true ∧ loggable server limits.logged ctx e = true := by
  intro e
  change Keeps _ _ _ e (match store env limits.stored fault log e with
    | .ok (place, log') => _
    | .error .sqlite => _
    | .error (.raised error) => _) ↔ _
  cases hstorable : storable limits.stored fault log e with
  | false =>
    obtain ⟨error, hstore⟩ := store_of_not_storable env hstorable
    rw [hstore]
    exact iff_of_false (fun h => absurd h.returns (by simp)) fun h => absurd h.1 Bool.false_ne_true
  | true =>
    have hstore := store_of_storable env hstorable
    by_cases hfault : fault = none
    · rw [if_pos hfault] at hstore
      obtain ⟨hid, written, hcarries, hstore⟩ := hstore
      rw [hstore]
      have hplace : ∀ p ∈ some (log.append env (stored e written)).1, fewDigits p.1 = true := by
        intro p hp
        cases hp
        exact fewDigits_of_isInt64 hid
      have hline := auditLine_isSome server limits.logged time ctx e hplace
      rw [← hline]
      exact ⟨fun h => ⟨rfl, h.logged⟩, fun h => ⟨rfl, h.2, fun _ => ⟨_, rfl, hcarries⟩⟩⟩
    · rw [if_neg hfault] at hstore
      rw [hstore]
      have hplace : ∀ p ∈ (none : Option Place), fewDigits p.1 = true := nofun
      have hline := auditLine_isSome server limits.logged time ctx e hplace
      rw [← hline]
      exact ⟨fun h => ⟨rfl, h.logged⟩, fun h => ⟨rfl, h.2, fun hnone => absurd hnone hfault⟩⟩

/-! ## A container that cannot be encoded -/

/-- Floats, of which only zero is written. -/
def zeroText : JsonText.FloatText where
  isFloat := fun q => q = 0
  repr := fun _ => CodeText.lit "0.0"
  read := fun _ => .finite 0
  isFloatText := fun _ _ =>
    ⟨[JsonText.code '0'], CodeText.lit ".0", [], ⟨[JsonText.code '0'], ⟨by simp, by decide⟩,
      .inl rfl, .inl rfl⟩, .inr ⟨[JsonText.code '0'], ⟨by simp, by decide⟩, rfl⟩, .inl rfl,
      .inl (by decide), by decide⟩
  read_repr := fun _ hq => congrArg JsonFloat.finite hq.symm

/-- A surrogate, as a request may hold it in its JSON text. -/
def surrogate : PyStr where
  points := [0xD800]
  valid := by decide

/-- The details of assigning a container of that name to a group. -/
def assignDetails : PyValue zeroText :=
  .dict [(.str (PyStr.lit "group"), .str (PyStr.lit "lab")),
    (.str (PyStr.lit "containers"), .list [.str surrogate])]

def assignContext : RequestContext where
  id := PyStr.lit "3f9a2c7d10b84e65"
  user := some (PyStr.lit "ops")
  token := none
  ip := some (PyStr.lit "192.0.2.7")

/-- A log at level `info` that is written as text. -/
def textLog : ServerLog := { level := .info, format := .text, surrogateescape := false }

def assignEvent : Event zeroText :=
  event (some assignContext) (PyStr.lit "group_assign") assignDetails (PyStr.lit "success") none
    "2026-01-01T00:00:00+00:00".toList

def assignOutcome : Outcome :=
  record AuditLog.sampleEnv textLog { stored := 900, logged := 900 } none .empty
    (some assignContext) (PyStr.lit "group_assign") assignDetails (PyStr.lit "success") none
    "2026-01-01T00:00:00+00:00".toList "2026-01-01 00:00:00,000".toList

/-- Recording the assignment raises, and there is neither an entry nor a line. -/
theorem surrogate_not_kept :
    assignOutcome.raised = some .unicodeEncodeError ∧ assignOutcome.line = none ∧
      assignOutcome.log.entries = [] ∧ ¬Keeps 900 none .empty assignEvent assignOutcome := by
  have hraised : assignOutcome.raised = some .unicodeEncodeError := by decide +kernel
  refine ⟨hraised, by decide +kernel, by decide +kernel, fun h => ?_⟩
  have hreturns := h.returns
  rw [hraised] at hreturns
  cases hreturns

end Habeny.Audit.Recording
