import Habeny.Audit.Import
import Habeny.Lib.Csv
import Habeny.Lib.JsonLoaded

/-!
# Exporting the audit log

Entries are exported with their hashes, as JSON lines or as CSV, so that a copy can be checked on
its own.  A JSON line has the details as a value, which whoever checks it has to write in the form
in which they were hashed.  A row of CSV has an empty cell for a null.

A log can be checked if every line and every row that it exports gives back the entry, and the
entry its hash.  `export_checks_iff` says exactly for which files that were imported and for which
events that were recorded it can.
-/

namespace Habeny.Audit.Export

open Habeny.Lib Habeny.Lib.CodeText Habeny.Audit.Recording Habeny.Audit.Import

/-- How deeply the details may be nested where they are read, and the entry where it is written. -/
structure ExportLimits where
  load : JsonScan.Limits
  dump : ℕ

variable {F : JsonText.FloatText} [DecidablePred F.isFloat]

/-! ## JSON lines -/

def exportOptions : DumpOptions := { lineOptions with ensureAscii := false }

def orNull (t : Option Text) : PyValue F := orNone (t.map .ofText)

def isNull : PyValue F → Bool
  | .none => true
  | _ => false

/-- The fields of an entry, with the value of its details. -/
def fields (e : Entry) (details : PyValue F) (withHashes : Bool) : List (PyStr × PyValue F) :=
  [(.lit "id", .int e.id), (.lit "timestamp", .str (.ofText e.ts)),
    (.lit "action", .str (.ofText e.action)), (.lit "status", .str (.ofText e.status)),
    (.lit "user", orNull e.user), (.lit "token", orNull e.token), (.lit "ip", orNull e.ip),
    (.lit "request_id", orNull e.requestId), (.lit "details", details)] ++
    if withHashes then
      [(.lit "prev_hash", .str (.ofText e.prevHash)), (.lit "hash", .str (.ofText e.hash))]
    else []

/-- `v is not None or k in ("details",)` -/
def isShown (field : PyStr × PyValue F) : Bool :=
  !isNull field.2 || decide (field.1 = .lit "details")

/-- `json.loads(row["details"])` -/
def loadDetails (limits : ExportLimits) (e : Entry) : Except PyError (PyValue F) :=
  match JsonScan.loads F limits.load (e.details.map Char.toNat) with
  | .ok v => .ok (PyRepr.ofJson F v)
  | .error .value => .error .valueError
  | .error .recursion => .error .recursionError

/-- An entry as it is shown (`_public`). -/
def publicEntry (limits : ExportLimits) (e : Entry) (withHashes : Bool) :
    Except PyError (List (PyStr × PyValue F)) := do
  let details ← loadDetails limits e
  return (fields e details withHashes).filter isShown

def dictOf (fields : List (PyStr × PyValue F)) : PyValue F :=
  .dict (fields.map fun field => (PyKey.str field.1, field.2))

variable (F) in
/-- The line of an entry. -/
def exportLine (limits : ExportLimits) (e : Entry) : Except PyError CodeText := do
  let entry : List (PyStr × PyValue F) ← publicEntry limits e true
  let text ← PyJson.dumps exportOptions limits.dump (dictOf entry)
  return text ++ lit "\n"

variable (F) in
/-- The lines of entries, up to one that raises. -/
def exportJsonl (limits : ExportLimits) : List Entry → List CodeText × Option PyError
  | [] => ([], none)
  | e :: es =>
    match exportLine F limits e with
    | .error error => ([], some error)
    | .ok line =>
      let (lines, error) := exportJsonl limits es
      (line :: lines, error)

/-! ## CSV -/

def columns : List Text :=
  ["id".toList, "timestamp".toList, "action".toList, "status".toList, "user".toList,
    "token".toList, "ip".toList, "request_id".toList, "details".toList, "prev_hash".toList,
    "hash".toList]

/-- `value or ""` -/
def orEmptyText (t : Option Text) : Text := t.getD []

def cells (e : Entry) : List Text :=
  [Json.intText e.id, e.ts, e.action, e.status, orEmptyText e.user, orEmptyText e.token,
    orEmptyText e.ip, orEmptyText e.requestId, e.details, e.prevHash, e.hash]

/-- The rows of entries, after the names of the columns. -/
def exportCsv (entries : List Entry) : List Text :=
  Csv.row columns :: entries.map fun e => Csv.row (cells e)

/-! ## What is read of an export -/

def chars (t : CodeText) : Text := t.map Char.ofNat

def textField (es : JsonEntries) (key : String) : Option Text :=
  match get es key with
  | some (.str t) => some (chars t)
  | _ => none

/-- A key that is missing is null. -/
def nullableField (es : JsonEntries) (key : String) : Option (Option Text) :=
  match get es key with
  | none | some .null => some none
  | some (.str t) => some (some (chars t))
  | some _ => none

def idField (es : JsonEntries) : Option ℤ :=
  match get es "id" with
  | some (.int n) => some n
  | _ => none

variable (F) in
/-- The details in canonical form. -/
def detailsField (depth : ℕ) (es : JsonEntries) : Option Text := do
  let details ← get es "details"
  let text ← (canonicalDetails depth (PyRepr.ofJson F details)).toOption
  return chars text

variable (F) in
def decodeEntry (depth : ℕ) (es : JsonEntries) : Option Entry := do
  return { id := ← idField es, ts := ← textField es "timestamp", action := ← textField es "action",
           status := ← textField es "status", user := ← nullableField es "user",
           token := ← nullableField es "token", ip := ← nullableField es "ip",
           requestId := ← nullableField es "request_id", details := ← detailsField F depth es,
           prevHash := ← textField es "prev_hash", hash := ← textField es "hash" }

variable (F) in
/-- The entry of a line, which ends with its first line feed. -/
def decodeLine (depth : ℕ) (line : CodeText) : Option Entry :=
  match JsonScan.unlimited F (line.takeWhile fun c => decide (c ≠ newline)) with
  | some (.dict es) => decodeEntry F depth es
  | _ => none

/-- An empty cell is null. -/
def nullableCell (t : Text) : Option Text := if t = [] then none else some t

def decodeRow : List Text → Option Entry
  | [id, ts, action, status, user, token, ip, requestId, details, prevHash, hash] =>
    some { id := Json.readInt id, ts, action, status, user := nullableCell user,
           token := nullableCell token, ip := nullableCell ip,
           requestId := nullableCell requestId, details, prevHash, hash }
  | _ => none

/-! ## What an export is for -/

/-- What was read is the entry, and hashing it gives its hash. -/
structure Recomputes (env : ImportEnv F) (e : Entry) (decoded : Option Entry) : Prop where
  decoded_eq : decoded = some e
  digest_eq : e.digest env.audit = e.hash

/-- Whatever entries are exported, each line and each row gives its entry and the hash. -/
structure Checkable (env : ImportEnv F) (limits : ExportLimits) (log : AuditLog) : Prop where
  jsonl : ∀ entries, entries.Sublist log.entries →
    ∃ written rest, entries = written ++ rest ∧
      List.Forall₂ (fun e line => ∃ depth, Recomputes env e (decodeLine F depth line)) written
        (exportJsonl F limits entries).1
  csv : ∀ entries, entries.Sublist log.entries →
    ∃ rows, Csv.rows (exportCsv entries).flatten = columns :: rows ∧
      List.Forall₂ (fun e row => Recomputes env e (decodeRow row)) entries rows

/-! ## How a log is written -/

/-- A call of `record`.  The keys of the details are strings. -/
structure Call (F : JsonText.FloatText) where
  server : ServerLog
  limits : Recording.Limits
  fault : Option Fault
  ctx : Option RequestContext
  action : PyStr
  details : List (PyKey F × PyValue F)
  status : PyStr
  user : Option PyStr
  ts : Text
  time : Text
  keyed : JsonScan.StringKeyed (.dict details)

def Call.event (c : Call F) : Event F :=
  Recording.event c.ctx c.action (.dict c.details) c.status c.user c.ts

inductive Operation (F : JsonText.FloatText) where
  | record (c : Call F)
  | prune (before : Text) (dryRun : Bool)

def step (env : ImportEnv F) (log : AuditLog) : Operation F → Option AuditLog
  | .record c =>
    some (Recording.record env.audit c.server c.limits c.fault log c.ctx c.action
      (.dict c.details) c.status c.user c.ts c.time).log
  | .prune before dryRun => some (log.prune before dryRun).2

/-- Whether an event is stored. -/
def isStored (log : AuditLog) (c : Call F) : Bool :=
  c.fault.isNone && storable c.limits.stored c.fault log c.event

/-- A string that is not empty, or nothing. -/
def IsFilled (t : Option PyStr) : Prop := ∀ s ∈ t, s.points ≠ []

/-- None of the nullable texts of an event is empty. -/
structure Filled (e : Event F) : Prop where
  user : IsFilled e.user
  token : IsFilled e.token
  ip : IsFilled e.ip
  requestId : IsFilled e.requestId

/-- An event is not stored, or has no empty text that may be null. -/
def Clean (log : AuditLog) : Operation F → Prop
  | .record c => isStored log c = true → Filled c.event
  | .prune _ _ => True

/-- The objects that an import appends an entry for. -/
def importedEntries (env : ImportEnv F) (files : List LegacyFile) : List JsonEntries :=
  (lines env files).filterMap fun line => (readLine env line).toOption.bind id

/-- A string that is not empty, or nothing. -/
def IsFilledColumn (value : Option JsonValue) : Prop :=
  value = none ∨ value = some .null ∨ ∃ t, value = some (.str t) ∧ t ≠ []

/-- The texts of an object that may be null are strings that are not empty. -/
structure FilledObject (e : JsonEntries) : Prop where
  user : IsFilledColumn (get e "user")
  token : IsFilledColumn (get e "token")
  requestId : IsFilledColumn (get e "request_id")

/-! ## Rows -/

/-- None of the texts of an entry that may be null is empty. -/
structure FilledEntry (e : Entry) : Prop where
  user : e.user ≠ some []
  token : e.token ≠ some []
  ip : e.ip ≠ some []
  requestId : e.requestId ≠ some []

lemma nullableCell_iff {t : Option Text} : nullableCell (orEmptyText t) = t ↔ t ≠ some [] := by
  cases t with
  | none => exact iff_of_true rfl (by simp)
  | some t => cases t <;> simp [nullableCell, orEmptyText]

/-- **A row gives its entry back exactly if no text that may be null is empty.** -/
lemma decodeRow_cells_iff (e : Entry) : decodeRow (cells e) = some e ↔ FilledEntry e := by
  obtain ⟨id, ts, action, status, user, token, ip, requestId, details, prevHash, hash⟩ := e
  simp only [cells, decodeRow, Option.some.injEq, Entry.mk.injEq, Json.readInt_intText,
    nullableCell_iff, and_true, true_and]
  exact ⟨fun h => ⟨h.1, h.2.1, h.2.2.1, h.2.2.2⟩, fun h => ⟨h.user, h.token, h.ip, h.requestId⟩⟩

lemma rows_exportCsv (entries : List Entry) :
    Csv.rows (exportCsv entries).flatten = columns :: entries.map cells := by
  have hflatten : (exportCsv entries).flatten = (columns :: entries.map cells).flatMap Csv.row := by
    rw [exportCsv, List.flatMap_def, List.map_cons, List.map_map]
    rfl
  rw [hflatten, Csv.rows_flatMap_row]

/-! ## Lines -/

/-- The details of an entry are the canonical text of a dict. -/
def HasDetails (F : JsonText.FloatText) (e : Entry) : Prop :=
  ∃ (depth : ℕ) (es : List (PyKey F × PyValue F)), JsonScan.StringKeyed (.dict es) ∧
    canonicalDetails depth (.dict es) = .ok (e.details.map Char.toNat)

lemma separated_canonical : JsonScan.Separated canonicalOptions :=
  ⟨⟨[], rfl, by simp⟩, ⟨[], rfl, by simp⟩⟩

lemma separated_export : JsonScan.Separated exportOptions :=
  ⟨⟨[32], rfl, by decide⟩, ⟨[32], rfl, by decide⟩⟩

section Fields

omit [DecidablePred F.isFloat]

lemma orEmpty_dict (es : List (PyKey F × PyValue F)) :
    orEmpty (.dict es : PyValue F) = .dict es := by
  cases es <;> rfl

/-- A field is read back if it is shown. -/
lemma lookup_shown {fs : List (PyStr × PyValue F)} (hnodup : (fs.map fun f => f.1.points).Nodup)
    {k : PyStr} {v : PyValue F} (h : (k, v) ∈ fs) :
    ((fs.filter isShown).map fun f => (f.1.points, JsonScan.toJson f.2)).lookup k.points =
      if isShown (k, v) then some (JsonScan.toJson v) else none := by
  induction fs with
  | nil => exact absurd h List.not_mem_nil
  | cons f fs ih =>
    rw [List.map_cons, List.nodup_cons] at hnodup
    obtain ⟨hnew, hnodup⟩ := hnodup
    rcases List.mem_cons.mp h with rfl | h
    · by_cases hshown : isShown (k, v)
      · rw [List.filter_cons_of_pos hshown, List.map_cons, List.lookup_cons, beq_self_eq_true,
          if_pos hshown]
      · rw [List.filter_cons_of_neg hshown, if_neg hshown, List.lookup_eq_none_iff,
          List.forall_mem_map]
        intro f hf
        have hne : k.points ≠ f.1.points := fun heq =>
          hnew (heq ▸ List.mem_map_of_mem (f := fun f => f.1.points) (List.mem_filter.mp hf).1)
        simpa using hne
    · have hne : k.points ≠ f.1.points := fun heq =>
        hnew (heq ▸ List.mem_map_of_mem (f := fun f => f.1.points) h)
      rw [← ih hnodup h]
      by_cases hshown : isShown f
      · rw [List.filter_cons_of_pos hshown, List.map_cons, List.lookup_cons, beq_false_of_ne hne]
      · rw [List.filter_cons_of_neg hshown]

lemma nodup_fields (e : Entry) (details : PyValue F) :
    ((fields e details true).map fun f => f.1.points).Nodup := by
  have hkeys : (fields e details true).map (fun f => f.1.points) =
      [lit "id", lit "timestamp", lit "action", lit "status", lit "user", lit "token", lit "ip",
        lit "request_id", lit "details", lit "prev_hash", lit "hash"] := rfl
  rw [hkeys]
  decide

/-- No line feed is written. -/
lemma newline_not_mem_rawEscape (c : ℕ) : ∀ d ∈ PyJson.rawEscape c, d ≠ newline := by
  have hletters : ∀ l ∈ JsonText.letters, l.2 ≠ newline := by decide
  have hlow : ∀ c < 32, ∀ d ∈ JsonText.unicodeEscape c, d ≠ newline := by decide
  intro d hd
  rw [PyJson.rawEscape] at hd
  cases hlookup : JsonText.letters.lookup c with
  | some e =>
    obtain ⟨before, after, hmem, -⟩ := List.lookup_eq_some_iff.mp hlookup
    simp only [hlookup, List.mem_cons, List.not_mem_nil, or_false] at hd
    rcases hd with rfl | rfl
    · decide
    · exact hletters (c, d) (by simp [hmem])
  | none =>
    simp only [hlookup] at hd
    split_ifs at hd with hc
    · exact hlow c hc d hd
    · rw [List.mem_singleton.mp hd, newline]
      omega

lemma takeWhile_line {v : PyValue F} {depth : ℕ} {t : CodeText}
    (h : PyJson.dumps exportOptions depth v = .ok t) :
    (t ++ lit "\n").takeWhile (fun c => decide (c ≠ newline)) = t := by
  have hnone : ∀ c ∈ t, c ≠ newline := by
    refine (PyJson.forall_mem_dumps (P := fun c => c ≠ newline) ?_ depth v t h).mpr
      fun c _ => newline_not_mem_rawEscape c
    rintro c hc rfl
    exact absurd hc (by decide)
  have hnewline : (lit "\n").takeWhile (fun c => decide (c ≠ newline)) = [] := by decide
  rw [List.takeWhile_append_of_pos fun c hc => decide_eq_true (hnone c hc), hnewline,
    List.append_nil]

end Fields

/-- The details are loaded as the dict in order, and it has the same canonical text. -/
lemma loadDetails_ok {limits : ExportLimits} {e : Entry} (h : HasDetails F e) {details : PyValue F}
    (hload : loadDetails limits e = .ok details) :
    JsonScan.StringKeyed details ∧
      PyRepr.ofJson F (JsonScan.toJson details) = details ∧
      ∃ depth, canonicalDetails depth details = .ok (e.details.map Char.toNat) := by
  obtain ⟨depth, es, hkeyed, hdumps⟩ := h
  rw [canonicalDetails, orEmpty_dict] at hdumps
  have hagain := JsonScan.dumps_again rfl hkeyed hdumps
  have hvalue := JsonScan.unlimited_dumps separated_canonical rfl hkeyed hdumps
  have hback : JsonScan.readBack canonicalOptions (.dict es) = JsonScan.again (.dict es) :=
    if_pos rfl
  have hdetails : details = JsonScan.again (.dict es) := by
    rw [loadDetails] at hload
    cases hloads : JsonScan.loads F limits.load (e.details.map Char.toNat) with
    | error err => cases err <;> simp [hloads] at hload
    | ok v =>
      simp only [hloads, Except.ok.injEq] at hload
      rw [JsonScan.unlimited_of_loads hloads, Option.some.injEq, hback] at hvalue
      rw [← hload, hvalue, JsonScan.ofJson_again hkeyed]
  subst hdetails
  refine ⟨JsonScan.stringKeyed_again hkeyed, JsonScan.ofJson_again hkeyed, depth, ?_⟩
  rw [JsonScan.again_dict] at hagain ⊢
  rw [canonicalDetails, orEmpty_dict]
  exact hagain

lemma chars_toNat (t : Text) : chars (t.map Char.toNat) = t := by
  have hback : Char.ofNat ∘ Char.toNat = fun c => c := funext Char.ofNat_toNat
  rw [chars, List.map_map, hback, List.map_id']

/-- **The fields of an entry are read back**, those that are null by their absence. -/
lemma decodeEntry_shown {e : Entry} {details : PyValue F} {depth : ℕ}
    (hback : PyRepr.ofJson F (JsonScan.toJson details) = details)
    (hdetails : canonicalDetails depth details = .ok (e.details.map Char.toNat)) :
    decodeEntry F depth (((fields e details true).filter isShown).map fun f =>
      (f.1.points, JsonScan.toJson f.2)) = some e := by
  set es := ((fields e details true).filter isShown).map fun f =>
    (f.1.points, JsonScan.toJson f.2)
  have hget : ∀ {k : String} {v : PyValue F}, (PyStr.lit k, v) ∈ fields e details true →
      get es k = if isShown (PyStr.lit k, v) then some (JsonScan.toJson v) else none :=
    lookup_shown (nodup_fields e details)
  have htext : ∀ {k : String} {t : Text}, (PyStr.lit k, .str (.ofText t)) ∈ fields e details true →
      textField es k = some t := by
    intro k t hmem
    have hvalue : get es k = some (.str (t.map Char.toNat)) := hget hmem
    rw [textField, hvalue]
    exact congrArg some (chars_toNat t)
  have hnullable : ∀ {k : String} {t : Option Text}, PyStr.lit k ≠ PyStr.lit "details" →
      (PyStr.lit k, orNull t) ∈ fields e details true → nullableField es k = some t := by
    intro k t hk hmem
    have hvalue := hget hmem
    cases t with
    | none =>
      have hhidden : isShown (PyStr.lit k, (orNull none : PyValue F)) = false := decide_eq_false hk
      rw [hhidden, if_neg Bool.false_ne_true] at hvalue
      rw [nullableField, hvalue]
    | some t =>
      have hvalue : get es k = some (.str (t.map Char.toNat)) := hvalue
      rw [nullableField, hvalue]
      exact congrArg (fun t => some (some t)) (chars_toNat t)
  have hid : idField es = some e.id := by
    have hvalue : get es "id" = some (.int e.id) := hget List.mem_cons_self
    rw [idField, hvalue]
  have hdetailsField : detailsField F depth es = some e.details := by
    have hshown : isShown (PyStr.lit "details", details) = true :=
      Bool.or_eq_true_iff.mpr (.inr (decide_eq_true rfl))
    have hvalue := hget (k := "details") (v := details) (by simp [fields])
    rw [hshown, if_pos rfl] at hvalue
    rw [detailsField, hvalue]
    simp [hback, hdetails, Except.toOption, chars_toNat]
  rw [decodeEntry, hid, htext (k := "timestamp") (t := e.ts) (by simp [fields]),
    htext (k := "action") (t := e.action) (by simp [fields]),
    htext (k := "status") (t := e.status) (by simp [fields]),
    hnullable (k := "user") (t := e.user) (by decide) (by simp [fields]),
    hnullable (k := "token") (t := e.token) (by decide) (by simp [fields]),
    hnullable (k := "ip") (t := e.ip) (by decide) (by simp [fields]),
    hnullable (k := "request_id") (t := e.requestId) (by decide) (by simp [fields]),
    hdetailsField, htext (k := "prev_hash") (t := e.prevHash) (by simp [fields]),
    htext (k := "hash") (t := e.hash) (by simp [fields])]
  rfl

/-- **A line gives its entry back.** -/
lemma decodeLine_exportLine {limits : ExportLimits} {e : Entry} (h : HasDetails F e)
    {line : CodeText} (hline : exportLine F limits e = .ok line) :
    ∃ depth, decodeLine F depth line = some e := by
  cases hload : loadDetails (F := F) limits e with
  | error error => simp [exportLine, publicEntry, hload, bind, Except.bind] at hline
  | ok details =>
    obtain ⟨hkeyed, hback, depth, hdetails⟩ := loadDetails_ok h hload
    cases hdumps : PyJson.dumps exportOptions limits.dump
        (dictOf ((fields e details true).filter isShown)) with
    | error error =>
      simp [exportLine, publicEntry, hload, hdumps, bind, Except.bind, pure, Except.pure] at hline
    | ok text =>
      simp only [exportLine, publicEntry, hload, hdumps, bind, Except.bind, pure, Except.pure,
        Except.ok.injEq] at hline
      subst hline
      have hvalues : ∀ f ∈ fields e details true, JsonScan.StringKeyed f.2 := by
        have hnull : ∀ t : Option Text, JsonScan.StringKeyed (orNull t : PyValue F) := by
          rintro (_ | t)
          · exact .none
          · exact .str _
        simp only [fields, if_true, List.cons_append, List.nil_append, List.forall_mem_cons]
        exact ⟨.int _, .str _, .str _, .str _, hnull _, hnull _, hnull _, hnull _, hkeyed, .str _,
          .str _, fun f hf => absurd hf List.not_mem_nil⟩
      have hdict : JsonScan.StringKeyed (dictOf ((fields e details true).filter isShown)) := by
        refine .dict (List.forall_mem_map.mpr fun f _ => rfl) ?_
          (List.forall_mem_map.mpr fun f hf => hvalues f (List.mem_filter.mp hf).1)
        rw [List.map_map]
        exact (List.filter_sublist.map fun f : PyStr × PyValue F => f.1.points).nodup
          (nodup_fields e details)
      have hread := JsonScan.unlimited_dumps separated_export rfl hdict hdumps
      have hvalue : JsonScan.toJson (JsonScan.readBack exportOptions
          (dictOf ((fields e details true).filter isShown))) =
            .dict (((fields e details true).filter isShown).map fun f =>
              (f.1.points, JsonScan.toJson f.2)) := by
        rw [JsonScan.readBack, if_neg (by decide), dictOf, JsonScan.toJson,
          JsonScan.toJsonEntries_eq, List.map_map]
        rfl
      refine ⟨depth, ?_⟩
      rw [decodeLine, takeWhile_line hdumps, hread, hvalue]
      exact decodeEntry_shown hback hdetails

/-! ## When a log can be checked -/

/-- An entry that is not lost in a row, and was hashed as it is stored. -/
structure Good (env : ImportEnv F) (e : Entry) : Prop where
  filled : FilledEntry e
  digest_eq : e.digest env.audit = e.hash

/-- Lines are written for entries up to one that raises, and give them back. -/
lemma forall₂_exportJsonl (env : ImportEnv F) (limits : ExportLimits) {entries : List Entry}
    (h : ∀ e ∈ entries, HasDetails F e ∧ e.digest env.audit = e.hash) :
    ∃ written rest, entries = written ++ rest ∧
      List.Forall₂ (fun e line => ∃ depth, Recomputes env e (decodeLine F depth line)) written
        (exportJsonl F limits entries).1 := by
  induction entries with
  | nil => exact ⟨[], [], rfl, .nil⟩
  | cons e es ih =>
    obtain ⟨⟨hdetails, hdigest⟩, hes⟩ := List.forall_mem_cons.mp h
    rw [exportJsonl]
    cases hline : exportLine F limits e with
    | error error => exact ⟨[], e :: es, rfl, .nil⟩
    | ok line =>
      obtain ⟨depth, hdecode⟩ := decodeLine_exportLine hdetails hline
      obtain ⟨written, rest, rfl, hall⟩ := ih hes
      exact ⟨e :: written, rest, rfl, .cons ⟨depth, hdecode, hdigest⟩ hall⟩

lemma good_of_checkable {env : ImportEnv F} {limits : ExportLimits} {log : AuditLog}
    (h : Checkable env limits log) {e : Entry} (he : e ∈ log.entries) : Good env e := by
  obtain ⟨rows, hrows, hall⟩ := h.csv [e] (List.singleton_sublist.mpr he)
  rw [rows_exportCsv, List.map_singleton, List.cons.injEq] at hrows
  rw [← hrows.2] at hall
  obtain ⟨hdecoded, hdigest⟩ := (List.forall₂_cons.mp hall).1
  exact ⟨(decodeRow_cells_iff e).mp hdecoded, hdigest⟩

/-- **A log with details in canonical form can be checked exactly if its entries are good.** -/
lemma checkable_iff {env : ImportEnv F} {limits : ExportLimits} {log : AuditLog}
    (h : ∀ e ∈ log.entries, HasDetails F e) :
    Checkable env limits log ↔ ∀ e ∈ log.entries, Good env e := by
  constructor
  · intro hcheck e he
    exact good_of_checkable hcheck he
  · intro hgood
    refine ⟨fun entries hsub => forall₂_exportJsonl env limits fun e he =>
      ⟨h e (hsub.subset he), (hgood e (hsub.subset he)).digest_eq⟩, fun entries hsub => ?_⟩
    refine ⟨entries.map cells, rows_exportCsv entries, ?_⟩
    rw [List.forall₂_map_right_iff, List.forall₂_same]
    intro e he
    have hgood := hgood e (hsub.subset he)
    exact ⟨(decodeRow_cells_iff e).mpr hgood.filled, hgood.digest_eq⟩

/-! ## The import -/

variable (env : ImportEnv F)

section Read

omit [DecidablePred F.isFloat]

variable {env}

/-- An object that was imported was read of a line. -/
lemma regular_of_imported (hdecode : ∀ bytes, (env.decode bytes).IsValid)
    {files : List LegacyFile} {e : JsonEntries} (he : e ∈ importedEntries env files) :
    JsonScan.Regular (.dict e) := by
  obtain ⟨line, hline, hread⟩ := List.mem_filterMap.mp he
  have hvalid : line.IsValid := by
    obtain ⟨f, -, hf⟩ := List.mem_flatMap.mp hline
    rw [linesOfFile] at hf
    cases hcontent : f.content with
    | none => simp [hcontent] at hf
    | some bytes =>
      simp only [hcontent] at hf
      exact valid_splitlines (valid_universalNewlines (hdecode bytes)) hf
  rw [readLine] at hread
  split_ifs at hread with hbraced
  · cases hloads : JsonScan.loads F env.limits (strip line) with
    | error err => cases err <;> simp [hloads, Except.toOption] at hread
    | ok v =>
      have hregular := JsonScan.regular_of_loads (valid_strip hvalid) hloads
      cases v with
      | dict es =>
        simp only [hloads, Except.toOption, Option.bind_some, id_eq] at hread
        split_ifs at hread
        exact Option.some.inj hread ▸ hregular
      | _ => simp [hloads, Except.toOption] at hread
  · simp [Except.toOption] at hread

end Read

lemma mem_of_get {e : JsonEntries} {k : String} {v : JsonValue} (h : get e k = some v) :
    (lit k, v) ∈ e := by
  obtain ⟨before, after, rfl, -⟩ := List.lookup_eq_some_iff.mp h
  simp

/-- The details of an object that was read have strings as keys. -/
lemma keyed_details {e : JsonEntries} (h : JsonScan.Regular (.dict e)) :
    ∃ es, Import.details F e = .dict es ∧ JsonScan.StringKeyed (.dict es) := by
  have hget : ∀ {k : String} {v : JsonValue}, get e k = some v → JsonScan.Regular v := by
    intro k v hv
    cases h with
    | dict _ _ values => exact values _ (mem_of_get hv)
  have hwrapped : ∀ value : Option JsonValue, (∀ v ∈ value, JsonScan.Regular v) →
      JsonScan.StringKeyed (.dict [(.str (PyStr.lit "value"), valueOf F value)]) := by
    intro value hvalue
    refine .dict (List.forall_mem_singleton.mpr rfl) (List.nodup_singleton _)
      (List.forall_mem_singleton.mpr ?_)
    cases value with
    | none => exact .none
    | some v => exact JsonScan.stringKeyed_ofJson (hvalue v rfl)
  cases hdetails : get e "details" with
  | none =>
    exact ⟨_, by rw [Import.details, hdetails], hwrapped none fun v hv => by cases hv⟩
  | some v =>
    have hregular := hget hdetails
    cases v with
    | dict d =>
      refine ⟨PyRepr.ofJsonEntries F d, by simp [Import.details, hdetails, PyRepr.ofJson], ?_⟩
      have hkeyed := JsonScan.stringKeyed_ofJson (F := F) hregular
      rwa [PyRepr.ofJson] at hkeyed
    | _ =>
      exact ⟨_, by rw [Import.details, hdetails],
        hwrapped _ fun w hw => Option.some.inj hw ▸ hregular⟩

/-- A column is text and not empty exactly if the value is a string that is not empty, or null. -/
lemma filledColumn_iff {value : Option JsonValue} {b : Option PyStr}
    (h : column env (valueOf F value) = .ok b) :
    IsFilledColumn value ↔ IsText (valueOf F value) ∧ b.map PyStr.chars ≠ some [] := by
  cases value with
  | none => cases h; exact iff_of_true (.inl rfl) ⟨trivial, by simp⟩
  | some v =>
    cases v with
    | null => cases h; exact iff_of_true (.inr (.inl rfl)) ⟨trivial, by simp⟩
    | str t =>
      cases h
      simp [IsFilledColumn, IsText, valueOf, PyRepr.ofJson, PyStr.chars, PyStr.ofPoints]
    | _ => exact iff_of_false (by simp [IsFilledColumn]) fun h => h.1

/-- What an import of one object that returns has done. -/
lemma importEntry_good {log log' : AuditLog} {e : JsonEntries} (he : JsonScan.Regular (.dict e))
    (h : importEntry env log e = .ok log') :
    ∃ (entry : Entry) (hid : entry.id = log.lastPlace.1 + 1), log' = insert log entry hid ∧
      HasDetails F entry ∧ (FilledObject e → Good env entry) ∧
      (Function.Injective env.sha256 → Good env entry → FilledObject e) := by
  cases hrow : rowOf env e with
  | error err => simp [importEntry, hrow, Except.mapError, bind, Except.bind] at h
  | ok r =>
    simp only [importEntry, hrow, Except.mapError, bind, Except.bind] at h
    obtain ⟨-, -, -, huser, htoken, hrequestId, hdetails⟩ := (rowOf_eq_ok env).mp hrow
    obtain ⟨details, text, c, happended, rfl⟩ := append_ok env h
    obtain ⟨hsame, hcollide⟩ := happended.accepts_iff
    have huserColumn := filledColumn_iff env (huser ▸ happended.user_eq)
    have htokenColumn := filledColumn_iff env (htoken ▸ happended.token_eq)
    have hrequestIdColumn := filledColumn_iff env (hrequestId ▸ happended.requestId_eq)
    refine ⟨newRow env log r details text c, rfl, rfl, ?_, fun hfilled => ?_,
      fun hsha hgood => ?_⟩
    · obtain ⟨es, hes, hkeyed⟩ := keyed_details (F := F) he
      refine ⟨env.dumpDepth, es, hkeyed, ?_⟩
      rw [← hes, ← hdetails, happended.details_eq]
      exact congrArg Except.ok happended.toNat_details.symm
    · have hu := huserColumn.mp hfilled.user
      have ht := htokenColumn.mp hfilled.token
      have hr := hrequestIdColumn.mp hfilled.requestId
      exact ⟨⟨hu.2, ht.2, by simp [newRow], hr.2⟩,
        (hsame ⟨huser ▸ hu.1, htoken ▸ ht.1, hrequestId ▸ hr.1⟩).2.2.symm⟩
    · obtain ⟨hu, ht, hr⟩ := hcollide hsha ⟨rfl, rfl, hgood.digest_eq.symm⟩
      exact ⟨huserColumn.mpr ⟨huser ▸ hu, hgood.filled.user⟩,
        htokenColumn.mpr ⟨htoken ▸ ht, hgood.filled.token⟩,
        hrequestIdColumn.mpr ⟨hrequestId ▸ hr, hgood.filled.requestId⟩⟩

/-- An import of lines that returns has imported the objects that were read. -/
lemma importLines_eq_imported {ls : List CodeText} {log log' : AuditLog}
    (h : ls.foldlM (importLine env) log = .ok log') :
    (ls.filterMap fun line => (readLine env line).toOption.bind id).foldlM (importEntry env) log =
      .ok log' := by
  induction ls generalizing log with
  | nil => exact h
  | cons line ls ih =>
    rw [List.foldlM_cons, importLine] at h
    cases hread : readLine env line with
    | error err => simp [hread, Except.mapError, bind, Except.bind] at h
    | ok e =>
      cases e with
      | none =>
        simp only [hread, Except.mapError, bind, Except.bind, pure, Except.pure] at h
        rw [List.filterMap_cons_none (by rw [hread]; rfl)]
        exact ih h
      | some e =>
        simp only [hread, Except.mapError, bind, Except.bind] at h
        rw [List.filterMap_cons_some (b := e) (by rw [hread]; rfl), List.foldlM_cons]
        cases himport : importEntry env log e with
        | error err => simp [himport] at h
        | ok log₁ =>
          simp only [himport] at h
          exact ih h

/-- Objects that are imported one after the other. -/
lemma importEntries_good {es : List JsonEntries} (hes : ∀ e ∈ es, JsonScan.Regular (.dict e))
    {log log' : AuditLog} (h : es.foldlM (importEntry env) log = .ok log') :
    ∃ new, log'.entries = log.entries ++ new ∧ (∀ entry ∈ new, HasDetails F entry) ∧
      ((∀ e ∈ es, FilledObject e) → ∀ entry ∈ new, Good env entry) ∧
      (Function.Injective env.sha256 → (∀ entry ∈ new, Good env entry) →
        ∀ e ∈ es, FilledObject e) := by
  induction es generalizing log with
  | nil =>
    obtain rfl := Except.ok.inj h
    exact ⟨[], (List.append_nil _).symm, fun _ he => absurd he List.not_mem_nil,
      fun _ _ he => absurd he List.not_mem_nil, fun _ _ _ he => absurd he List.not_mem_nil⟩
  | cons e es ih =>
    rw [List.foldlM_cons] at h
    cases himport : importEntry env log e with
    | error err => simp [himport, bind, Except.bind] at h
    | ok log₁ =>
      obtain ⟨he, hes⟩ := List.forall_mem_cons.mp hes
      obtain ⟨entry, hid, rfl, hdetails, hgood, hfilled⟩ := importEntry_good env he himport
      simp only [himport, bind, Except.bind] at h
      obtain ⟨new, hentries, hall, hgoods, hfilleds⟩ := ih hes h
      refine ⟨entry :: new, ?_, ?_, ?_, ?_⟩
      · rw [hentries]
        exact List.append_assoc log.entries [entry] new
      · exact List.forall_mem_cons.mpr ⟨hdetails, hall⟩
      · rw [List.forall_mem_cons, List.forall_mem_cons]
        exact fun h => ⟨hgood h.1, hgoods h.2⟩
      · rw [List.forall_mem_cons, List.forall_mem_cons]
        exact fun hsha h => ⟨hfilled hsha h.1, hfilleds hsha h.2⟩

/-! ## Recording -/

section Recorded

omit [DecidablePred F.isFloat]

lemma isFilled_iff {s : Option PyStr} {t : Option Text}
    (h : t.map (List.map Char.toNat) = s.map PyStr.points) : IsFilled s ↔ t ≠ some [] := by
  cases s with
  | none =>
    cases t with
    | none => exact iff_of_true (fun s hs => by cases hs) (by simp)
    | some t => cases h
  | some s =>
    cases t with
    | none => cases h
    | some t =>
      have hpoints : t.map Char.toNat = s.points := Option.some.inj h
      simp [IsFilled, ← hpoints]

/-- The texts of an event are those of its entry. -/
lemma filled_iff {depth : ℕ} {e : Event F} {entry : Entry} (h : Carries depth e entry) :
    Filled e ↔ FilledEntry entry :=
  ⟨fun hfilled => ⟨(isFilled_iff h.user).mp hfilled.user, (isFilled_iff h.token).mp hfilled.token,
      (isFilled_iff h.ip).mp hfilled.ip, (isFilled_iff h.requestId).mp hfilled.requestId⟩,
    fun hfilled => ⟨(isFilled_iff h.user).mpr hfilled.user,
      (isFilled_iff h.token).mpr hfilled.token, (isFilled_iff h.ip).mpr hfilled.ip,
      (isFilled_iff h.requestId).mpr hfilled.requestId⟩⟩

/-- A call leaves the log as it is, or adds the entry of its event. -/
lemma step_record (log : AuditLog) (c : Call F) :
    ∃ log', step env log (.record c) = some log' ∧
      if isStored log c then
        ∃ entry, log'.entries = log.entries ++ [entry] ∧ Carries c.limits.stored c.event entry ∧
          entry.digest env.audit = entry.hash
      else log' = log := by
  have hstep : ∀ outcome, store env.audit c.limits.stored c.fault log c.event = outcome →
      step env log (.record c) = some (outcome.toOption.elim log Prod.snd) := by
    intro outcome hstore
    have hevent : event c.ctx c.action (.dict c.details) c.status c.user c.ts = c.event := rfl
    rw [step, record, hevent, hstore]
    rcases outcome with (_ | error) | ⟨place, log'⟩
    · rfl
    · rfl
    · rfl
  refine ⟨_, hstep _ rfl, ?_⟩
  rw [isStored]
  cases hstorable : storable c.limits.stored c.fault log c.event with
  | false =>
    obtain ⟨error, hstore⟩ := store_of_not_storable env.audit hstorable
    rw [Bool.and_false, if_neg Bool.false_ne_true, hstore]
    rfl
  | true =>
    have hstore := store_of_storable env.audit hstorable
    rw [Bool.and_true]
    cases hfault : c.fault with
    | some fault =>
      rw [hfault, if_neg (by simp)] at hstore
      rw [hstore]
      rfl
    | none =>
      rw [hfault, if_pos rfl] at hstore
      obtain ⟨-, details, hcarries, hstore⟩ := hstore
      rw [hstore]
      exact ⟨_, rfl, hcarries, rfl⟩

/-- The details of a call are stored in canonical form. -/
lemma hasDetails_of_carries {c : Call F} {entry : Entry}
    (h : Carries c.limits.stored c.event entry) : HasDetails F entry :=
  ⟨c.limits.stored, c.details, c.keyed, h.details⟩

/-- Every entry has details in canonical form, and is good. -/
def Sound (log : AuditLog) : Prop := ∀ e ∈ log.entries, HasDetails F e ∧ Good env e

/-- A clean step keeps the log sound. -/
lemma sound_step {log log' : AuditLog} {op : Operation F} (hsound : Sound env log)
    (hclean : Clean log op) (hstep : step env log op = some log') : Sound env log' := by
  cases op with
  | record c =>
    obtain ⟨log₁, hlog₁, hentries⟩ := step_record env log c
    obtain rfl : log₁ = log' := Option.some.inj (hlog₁.symm.trans hstep)
    split_ifs at hentries with hstored
    · obtain ⟨entry, hentries, hcarries, hdigest⟩ := hentries
      rw [Sound, hentries, List.forall_mem_append, List.forall_mem_singleton]
      exact ⟨hsound, hasDetails_of_carries hcarries,
        (filled_iff hcarries).mp (hclean hstored), hdigest⟩
    · exact hentries ▸ hsound
  | prune before dryRun =>
    obtain rfl : (log.prune before dryRun).2 = log' := Option.some.inj hstep
    have hsub : ∀ e ∈ (log.prune before dryRun).2.entries, e ∈ log.entries := by
      intro e he
      rw [AuditLog.prune] at he
      cases hlast : log.lastBefore before with
      | none => simpa [hlast] using he
      | some last =>
        cases dryRun with
        | true => simpa [hlast] using he
        | false =>
          simp only [hlast] at he
          exact (List.mem_filter.mp he).1
    exact fun e he => hsound e (hsub e he)

end Recorded

variable {env}

/-- A step after which the log can be checked is clean. -/
lemma clean_of_checkable {limits : ExportLimits} {log log' : AuditLog} {op : Operation F}
    (hstep : step env log op = some log') (h : Checkable env limits log') : Clean log op := by
  cases op with
  | prune before dryRun => exact trivial
  | record c =>
    intro hstored
    obtain ⟨log₁, hlog₁, hentries⟩ := step_record env log c
    obtain rfl : log₁ = log' := Option.some.inj (hlog₁.symm.trans hstep)
    rw [if_pos hstored] at hentries
    obtain ⟨entry, hentries, hcarries, -⟩ := hentries
    have hmem : entry ∈ log₁.entries := by
      rw [hentries]
      exact List.mem_append_right _ (List.mem_singleton_self entry)
    exact (filled_iff hcarries).mpr (good_of_checkable h hmem).filled

/-- **Every log of a run can be checked if the user, the token and the request id of every object
that was imported, and these and the address of every event that is stored, are null or not empty,
and strings.**  Where they are not, the log cannot be checked after the import, unless hashes
collide, or after the event was recorded. -/
theorem export_checks_iff (env : ImportEnv F) (limits : ExportLimits)
    (hdecode : ∀ bytes, (env.decode bytes).IsValid) {files : List LegacyFile} {log₀ : AuditLog}
    (himport : importActivityFiles env files = .ok log₀) :
    ((∀ e ∈ importedEntries env files, FilledObject e) →
      ∀ {ops log}, Run (step env) Clean log₀ ops log → Checkable env limits log) ∧
    (Function.Injective env.sha256 → Checkable env limits log₀ →
      ∀ e ∈ importedEntries env files, FilledObject e) ∧
    ∀ {log op log'}, step env log op = some log' → Checkable env limits log' → Clean log op := by
  obtain ⟨new, hentries, hdetails, hgood, hfilled⟩ := importEntries_good env
    (fun e he => regular_of_imported hdecode he) (importLines_eq_imported env himport)
  have hnew : log₀.entries = new := hentries
  refine ⟨fun hobjects ops log hrun => ?_, fun hsha hcheck => hfilled hsha fun entry hentry =>
    good_of_checkable hcheck (hnew ▸ hentry), fun hstep hcheck => clean_of_checkable hstep hcheck⟩
  have hstart : Sound env log₀ := by
    rw [Sound, hnew]
    exact fun entry hentry => ⟨hdetails entry hentry, hgood hobjects entry hentry⟩
  have hsound : Sound env log := hrun.invariant
    (fun hsound hclean hstep => sound_step env hsound hclean hstep) hstart
  exact (checkable_iff fun e he => (hsound e he).1).mpr fun e he => (hsound e he).2

/-! ## A token without a name -/

def sampleLimits : ExportLimits where
  load := { depth := 900, digits := fun k => decide (k ≤ JsonText.maxDigits) }
  dump := 900

/-- A call in a request with an API token of some name. -/
def tokenCall (name : String) : Call zeroText where
  server := textLog
  limits := { stored := 900, logged := 900 }
  fault := none
  ctx := some
    { id := .lit "3f9a2c7d10b84e65", user := some (.lit "ops"), token := some (.lit name),
      ip := some (.lit "192.0.2.7") }
  action := .lit "group_created"
  details := [(.str (.lit "group"), .str (.lit "lab"))]
  status := .lit "success"
  user := none
  ts := "2026-10-01T08:30:00+00:00".toList
  time := "2026-10-01 08:30:00,000".toList
  keyed := .dict (List.forall_mem_singleton.mpr rfl) (List.nodup_singleton _)
    (List.forall_mem_singleton.mpr (.str _))

/-- `habeny token create ops ""` makes a token without a name.  In the row of what is done with it
the token is null. -/
theorem row_loses_unnamed_token : ∃ log, step sampleImport .empty (.record (tokenCall "")) =
    some log ∧ (log.entries.map fun e => (e.token, (decodeRow (cells e)).map Entry.token)) =
      [(some [], some none)] ∧ ¬Checkable sampleImport sampleLimits log := by
  refine ⟨_, rfl, by decide +kernel, fun h => ?_⟩
  have hclean : Clean AuditLog.empty (.record (tokenCall "")) := clean_of_checkable rfl h
  have hstored : isStored .empty (tokenCall "") = true := by decide +kernel
  exact (hclean hstored).token (.lit "") rfl rfl

/-- A line that was imported and what is done with a token that has a name can be checked. -/
theorem export_checks_sample : ∃ log₀ log, importActivityFiles sampleImport sampleFiles = .ok log₀ ∧
    step sampleImport log₀ (.record (tokenCall "ci")) = some log ∧ log.entries.length = 2 ∧
    (exportJsonl zeroText sampleLimits log.entries).1.length = 2 ∧
    Checkable sampleImport sampleLimits log := by
  have hread : importedEntries sampleImport sampleFiles = [sampleObject] := by
    have hlines : lines sampleImport sampleFiles = [sampleLine, [], lit "\x7bbroken"] := by
      decide +kernel
    have hstrip : strip sampleLine = sampleLine := by decide +kernel
    have hbraced : isBraced sampleLine = true := by decide +kernel
    have hobject : readLine sampleImport sampleLine = .ok (some sampleObject) := by
      rw [readLine, hstrip, if_pos hbraced, loads_sampleLine (fun k hk => decide_eq_true hk)
        (by decide)]
      rfl
    have hnone : ∀ line : CodeText, isBraced (strip line) = false →
        (readLine sampleImport line).toOption.bind id = none := by
      intro line h
      rw [readLine, h]
      rfl
    have hblank := hnone [] (by decide)
    have hbroken := hnone (lit "\x7bbroken") (by decide)
    rw [importedEntries, hlines,
      List.filterMap_cons_some (b := sampleObject) (by rw [hobject]; rfl),
      List.filterMap_cons, hblank]
    dsimp only
    rw [List.filterMap_cons, hbroken]
    rfl
  have hfilled : ∀ e ∈ importedEntries sampleImport sampleFiles, FilledObject e := by
    rw [hread, List.forall_mem_singleton]
    exact ⟨.inr (.inr ⟨_, rfl, by decide⟩), .inl rfl, .inl rfl⟩
  have hsizes : ((importActivityFiles sampleImport sampleFiles).toOption.bind fun log₀ =>
      (step sampleImport log₀ (.record (tokenCall "ci"))).map fun log =>
        (log.entries.length, (exportJsonl zeroText sampleLimits log.entries).1.length)) =
      some (2, 2) := by decide +kernel
  cases himport : importActivityFiles sampleImport sampleFiles with
  | error error => rw [himport] at hsizes; cases hsizes
  | ok log₀ =>
    have hdecode : ∀ bytes, (sampleImport.decode bytes).IsValid := by
      intro bytes c hc
      obtain ⟨b, -, rfl⟩ := List.mem_map.mp hc
      exact b.toNat_lt.trans (by decide)
    have hclean : Clean log₀ (.record (tokenCall "ci")) := by
      have hfilled : ∀ {s : String}, s.toList ≠ [] → IsFilled (some (.lit s)) := by
        intro s hs t ht
        obtain rfl := Option.some.inj ht
        simpa [PyStr.lit] using hs
      exact fun _ => ⟨hfilled (by decide), hfilled (by decide), hfilled (by decide),
        hfilled (by decide)⟩
    rw [himport] at hsizes
    have hsizes := Prod.mk.inj (Option.some.inj hsizes)
    exact ⟨log₀, _, rfl, rfl, hsizes.1, hsizes.2, (export_checks_iff sampleImport sampleLimits
      hdecode himport).1 hfilled (.cons hclean rfl (.nil _))⟩

end Habeny.Audit.Export
