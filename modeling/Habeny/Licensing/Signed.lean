import Habeny.Lib.Base64
import Habeny.Lib.JsonOrder
import Habeny.Licensing.Install

/-!
# Signed licences, and files of any bytes

`sign` writes a payload as JSON with its keys in order, in base64 for URLs, under the vendor's
signature.  The file of a server may hold any bytes, and `readStatus` is the licensing state that
a server reports with it.

A file never allows more than the trial does unless it is a signed licence of this server.  The
state raises where the bytes are no UTF-8, where a JSON text is nested too deep to be read, and
where the trial would end after the last day of the calendar.  A payload is decoded as it was
signed unless it is nested too deep, has integers too long to be written, or has a high surrogate
just before a low one (`licence_status_iff`).
-/

namespace Habeny.Licensing

open Habeny.Lib Habeny.Lib.CodeText Habeny.Lib.JsonScan

/-! ## Values of JSON as payloads have them -/

mutual

def ofJson : JsonValue → PyValue
  | .null => .null
  | .bool b => .bool b
  | .int n => .int n
  | .float (.finite q) => .float (some q)
  | .float _ => .float none
  | .str t => .str t
  | .list items => .list (ofJsonItems items)
  | .dict es => .dict (ofJsonEntries es)

def ofJsonItems : List JsonValue → List PyValue
  | [] => []
  | v :: vs => ofJson v :: ofJsonItems vs

def ofJsonEntries : List (CodeText × JsonValue) → List (CodeText × PyValue)
  | [] => []
  | (k, v) :: es => (k, ofJson v) :: ofJsonEntries es

end

lemma lookup_ofJsonEntries (es : JsonEntries) (k : CodeText) :
    (ofJsonEntries es).lookup k = (es.lookup k).map ofJson := by
  induction es with
  | nil => rfl
  | cons e es ih =>
    obtain ⟨k', v⟩ := e
    rw [ofJsonEntries, List.lookup_cons, List.lookup_cons, ih]
    cases k == k' <;> rfl

/-! ## Checks do not depend on the order of keys -/

namespace InstallEnv

variable (env : InstallEnv)

/-- A checked value, where the keys of the value may be put in order. -/
def OrderFree {α : Type} (check : Option PyValue → α) : Prop :=
  ∀ value : Option JsonValue, check ((value.map sortKeys).map ofJson) = check (value.map ofJson)

lemma orderFree_isOne : OrderFree fun value => value.any PyValue.isOne := by
  rintro (- | v)
  · rfl
  · cases v <;> rfl

lemma orderFree_date (name : String) : OrderFree fun value => env.date value name := by
  rintro (- | v)
  · rfl
  · cases v with
    | float x => cases x <;> rfl
    | _ => rfl

lemma orderFree_optionalDate (name : String) :
    OrderFree fun value => env.optionalDate value name := by
  rintro (- | v)
  · rfl
  · cases v with
    | float x => cases x <;> rfl
    | _ => rfl

lemma orderFree_containerLimit : OrderFree containerLimit := by
  rintro (- | v)
  · rfl
  · cases v with
    | float x => cases x <;> rfl
    | _ => rfl

lemma mapM_sortKeys {f : PyValue → Option CodeText}
    (hf : ∀ v, f (ofJson (sortKeys v)) = f (ofJson v)) (vs : List JsonValue) :
    (ofJsonItems (sortKeysItems vs)).mapM f = (ofJsonItems vs).mapM f := by
  induction vs with
  | nil => rfl
  | cons v vs ih =>
    rw [sortKeysItems, ofJsonItems, ofJsonItems, List.mapM_cons, List.mapM_cons, ih, hf]

lemma orderFree_featureList : OrderFree featureList := by
  rintro (- | v)
  · rfl
  · cases v with
    | float x => cases x <;> rfl
    | list items =>
      simp only [Option.map_some, sortKeys, ofJson, featureList]
      rw [mapM_sortKeys]
      -- only a string is taken, and it stays the same
      rintro (- | b | n | (q | - | -) | t | vs | es) <;> rfl
    | _ => rfl

lemma orderFree_requiredText {es : JsonEntries} (hnodup : (es.map Prod.fst).Nodup)
    (name label : String) :
    requiredText (ofJsonEntries (byKey (sortKeysEntries es))) name label =
      requiredText (ofJsonEntries es) name label := by
  rw [requiredText, requiredText, get, get, lookup_ofJsonEntries, lookup_ofJsonEntries,
    lookup_byKey hnodup]
  cases es.lookup (lit name) with
  | none => rfl
  | some v =>
    cases v with
    | float x => cases x <;> rfl
    | _ => rfl

/-- **A payload passes its checks with its keys in any order.** -/
theorem checkPayload_sortKeys {es : JsonEntries} (hnodup : (es.map Prod.fst).Nodup) :
    env.checkPayload (ofJson (sortKeys (.dict es))) = env.checkPayload (ofJson (.dict es)) := by
  have hget : ∀ name, get (ofJsonEntries (byKey (sortKeysEntries es))) name =
      ((es.lookup (lit name)).map sortKeys).map ofJson := by
    intro name
    rw [get, lookup_ofJsonEntries, lookup_byKey hnodup]
  have hget' : ∀ name, get (ofJsonEntries es) name = (es.lookup (lit name)).map ofJson := by
    intro name
    rw [get, lookup_ofJsonEntries]
  simp only [sortKeys, ofJson, checkPayload, orderFree_requiredText hnodup, hget, hget',
    orderFree_isOne _, env.orderFree_date _ _, env.orderFree_optionalDate _ _,
    orderFree_containerLimit _, orderFree_featureList _]

/-! ## Checks raise nothing but a `LicenseError` -/

/-- What is refused is refused with a message. -/
def Plain {α : Type} (r : Checked α) : Prop := r ≠ .error .other

section Plain

variable {α β : Type}

lemma plain_ok (a : α) : Plain (.ok a : Checked α) := fun h => by cases h

lemma plain_refuse (message : CodeText) : Plain (refuse message : Checked α) := fun h => by cases h

lemma Plain.bind {r : Checked α} {f : α → Checked β} (hr : Plain r) (hf : ∀ a, Plain (f a)) :
    Plain (r >>= f) := by
  cases r with
  | ok a => exact hf a
  | error failure =>
    intro h
    exact hr (congrArg Except.error (Except.error.inj h))

lemma plain_requiredText (fields : List (CodeText × PyValue)) (name label : String) :
    Plain (requiredText fields name label) := by
  rw [requiredText]
  split
  · exact plain_ok _
  · exact plain_refuse _

lemma plain_date (value : Option PyValue) (name : String) : Plain (env.date value name) := by
  rw [date.eq_def]
  split
  · split
    · exact plain_ok _
    · exact plain_refuse _
  · exact plain_refuse _

lemma plain_optionalDate (value : Option PyValue) (name : String) :
    Plain (env.optionalDate value name) := by
  rw [optionalDate.eq_def]
  split
  · exact plain_ok _
  · exact plain_ok _
  · intro h
    cases hdate : env.date (some ‹PyValue›) name with
    | ok d =>
      rw [hdate] at h
      cases h
    | error failure =>
      rw [hdate] at h
      exact env.plain_date _ name (hdate.trans (congrArg Except.error (Except.error.inj h)))

lemma plain_containerLimit (value : Option PyValue) : Plain (containerLimit value) := by
  rw [containerLimit.eq_def]
  split
  · exact plain_ok _
  · exact plain_ok _
  · exact plain_ok _
  · exact plain_refuse _

lemma plain_featureList (value : Option PyValue) : Plain (featureList value) := by
  rw [featureList.eq_def]
  split
  · exact plain_ok _
  · split
    · exact plain_ok _
    · exact plain_refuse _
  · exact plain_refuse _

end Plain

lemma plain_checkPayload (payload : PyValue) : Plain (env.checkPayload payload) := by
  rw [checkPayload.eq_def]
  dsimp only
  split
  · split_ifs
    · exact plain_refuse _
    · exact (plain_requiredText _ _ _).bind fun _ => (plain_requiredText _ _ _).bind fun _ =>
        (plain_requiredText _ _ _).bind fun _ => (env.plain_date _ _).bind fun _ =>
        (env.plain_optionalDate _ _).bind fun _ => (plain_containerLimit _).bind fun _ =>
        (plain_featureList _).bind fun _ => plain_ok _
  · exact plain_refuse _

end InstallEnv

/-! ## Reading -/

/-- What reading a licence depends on: the limits of `json.loads` and how it takes bytes for a
text, and besides the text and the day what installing depends on. -/
structure Reader (F : JsonText.FloatText) where
  limits : Limits
  readsWritten : limits.ReadsWritten
  decodeJson : Bytes → Option CodeText
  decodeJson_ascii : ∀ t, JsonText.IsAsciiText t → decodeJson t = some t
  publicKeys : List CodeText
  keyOf : CodeText → Option ℕ
  verify : ℕ → Bytes → CodeText → Bool
  fromIsoformat : CodeText → Option ℤ
  serverId : Text
  trialStart : Option ℤ

/-- `bytes.decode`, of UTF-8. -/
def decodeUtf8 (bytes : ByteArray) : Option CodeText :=
  (String.fromUTF8? bytes).map fun s => s.toList.map Char.toNat

namespace Reader

variable {F : JsonText.FloatText} (r : Reader F)

/-- `json.loads` of bytes. -/
def loads (bytes : Bytes) : Except ScanError JsonValue :=
  match r.decodeJson bytes with
  | none => .error .value
  | some t => JsonScan.loads F r.limits t

def env : InstallEnv where
  publicKeys := r.publicKeys
  keyOf := r.keyOf
  verify := r.verify
  urlsafeB64decode := Base64.urlsafeDecode
  jsonLoads := fun bytes =>
    match r.loads bytes with
    | .ok v => .ok (ofJson v)
    | .error .value => .error .value
    | .error .recursion => .error .other
  fromIsoformat := r.fromIsoformat
  serverId := r.serverId
  trialStart := r.trialStart

/-- The last day of the trial. -/
def trialEnd (today : ℤ) : ℤ := r.trialStart.getD today + trialDays

/-- A report stands, but without a licence that counts the trial has to end on a day of the
calendar. -/
def endTrial (today : ℤ) (report : InstallEnv.Report) : Option InstallEnv.Report :=
  if report.2.isNone ∧ InstallEnv.maxDay < r.trialEnd today then none else some report

/-- `status_info` with a file of any bytes.  `none` when it raises. -/
def readStatus (file : Option ByteArray) (today : ℤ) : Option InstallEnv.Report :=
  if r.env.enforced = false then r.env.status none today
  else
    match file with
    | none => (r.env.status none today).bind (r.endTrial today)
    | some bytes => do
      let text ← decodeUtf8 bytes
      let report ← r.env.status (some text) today
      r.endTrial today report

/-! ## When the state is reported -/

/-- The JSON text of a licence is nested too deep to be read. -/
def TooDeep (text : CodeText) : Prop :=
  ∃ body signature signatureBytes bytes,
    (InstallEnv.token text).splitOn InstallEnv.dot = [InstallEnv.formatPrefix, body, signature] ∧
      r.env.b64decode signature = some signatureBytes ∧ r.env.b64decode body = some bytes ∧
      r.loads bytes = .error .recursion

/-- The file is a signed licence of this server. -/
def IsLicence (file : Option ByteArray) : Prop :=
  ∃ bytes ∈ file, ∃ text ∈ decodeUtf8 bytes, ∃ p,
    r.env.decode (universalNewlines text) = .ok p ∧ r.env.isOwn p = true

/-- What the state needs of a file, and of the day where no licence counts. -/
structure Readable (file : Option ByteArray) (today : ℤ) : Prop where
  utf8 : ∀ bytes ∈ file, (decodeUtf8 bytes).isSome = true
  shallow : ∀ bytes ∈ file, ∀ text ∈ decodeUtf8 bytes, ¬r.TooDeep text
  onCalendar : r.IsLicence file ∨ r.trialEnd today ≤ InstallEnv.maxDay

lemma decodeParts_eq_other {body signature : CodeText} :
    r.env.decodeParts body signature = .error .other ↔
      ∃ signatureBytes bytes, r.env.b64decode signature = some signatureBytes ∧
        r.env.b64decode body = some bytes ∧ r.loads bytes = .error .recursion := by
  rw [InstallEnv.decodeParts]
  cases hsignature : r.env.b64decode signature with
  | none => simp [InstallEnv.damaged, refuse]
  | some signatureBytes =>
    cases hbody : r.env.b64decode body with
    | none => simp [InstallEnv.damaged, refuse]
    | some bytes =>
      have hjson : r.env.jsonLoads bytes =
          match r.loads bytes with
          | .ok v => .ok (ofJson v)
          | .error .value => .error .value
          | .error .recursion => .error .other := rfl
      dsimp only
      rw [hjson]
      cases hloads : r.loads bytes with
      | error e => cases e <;> simp [InstallEnv.damaged, refuse, hloads]
      | ok v =>
        have hplain := r.env.plain_checkPayload (ofJson v)
        have hbad : InstallEnv.badSignature ≠ .error .other := fun h => by cases h
        dsimp only
        split_ifs
        · exact iff_of_false hplain (by simp [hloads])
        · exact iff_of_false hbad (by simp [hloads])

/-- Decoding raises another exception only where a text is nested too deep. -/
lemma decode_eq_other {text : CodeText} :
    r.env.decode text = .error .other ↔ r.TooDeep text := by
  have hnot : InstallEnv.notALicense ≠ .error .other := fun h => by cases h
  rw [InstallEnv.decode]
  constructor
  · intro h
    split at h
    · rename_i start body signature hparts
      split_ifs at h with hstart
      · obtain ⟨signatureBytes, bytes, hall⟩ := r.decodeParts_eq_other.mp h
        exact ⟨body, signature, signatureBytes, bytes, hstart ▸ hparts, hall⟩
      · exact absurd h hnot
    · exact absurd h hnot
  · rintro ⟨body, signature, signatureBytes, bytes, hparts, hall⟩
    rw [hparts]
    exact (if_pos rfl).trans (r.decodeParts_eq_other.mpr ⟨signatureBytes, bytes, hall⟩)

lemma tooDeep_universalNewlines (text : CodeText) :
    r.TooDeep (universalNewlines text) ↔ r.TooDeep text := by
  rw [TooDeep, TooDeep, InstallEnv.token_universalNewlines]

lemma status_none (hon : r.env.enforced = true) (today : ℤ) :
    r.env.status none today = some (statusInfo (r.env.server none today), none) := by
  rw [InstallEnv.status, if_neg (by simp [hon])]

/-- The three ways in which a file that is a text is read. -/
lemma status_cases (hon : r.env.enforced = true) (text : CodeText) (today : ℤ) :
    (r.TooDeep text ∧ r.env.status (some text) today = none) ∨
    (∃ p, r.env.decode (universalNewlines text) = .ok p ∧ r.env.isOwn p = true ∧
      r.env.status (some text) today = some (r.env.reportOf p today)) ∨
    ∃ problem, (∀ p, r.env.decode (universalNewlines text) = .ok p → r.env.isOwn p = false) ∧
      ¬r.TooDeep text ∧
      r.env.status (some text) today = some (r.env.problemReport problem today) := by
  rw [← r.tooDeep_universalNewlines, ← r.decode_eq_other, InstallEnv.status,
    if_neg (by simp [hon])]
  cases hdecode : r.env.decode (universalNewlines text) with
  | error failure =>
    cases failure with
    | other => exact .inl ⟨rfl, rfl⟩
    | licenseError message =>
      exact .inr (.inr ⟨InstallEnv.characters message, fun p h => (by cases h),
        fun h => (by cases h), rfl⟩)
  | ok p =>
    cases hown : r.env.isOwn p with
    | true => exact .inr (.inl ⟨p, rfl, hown, by simp [hown]⟩)
    | false =>
      refine .inr (.inr ⟨_, fun p' h => ?_, fun h => (by cases h), by simp [hown]; rfl⟩)
      exact Except.ok.inj h ▸ hown

/-- What `status_info` does with a file while licensing is on. -/
lemma readStatus_some (hon : r.env.enforced = true) {bytes : ByteArray} {text : CodeText}
    (htext : decodeUtf8 bytes = some text) (today : ℤ) :
    r.readStatus (some bytes) today =
      (r.env.status (some text) today).bind (r.endTrial today) := by
  rw [readStatus, if_neg (by simp [hon])]
  simp only [htext]
  rfl

lemma readStatus_undecodable (hon : r.env.enforced = true) {bytes : ByteArray}
    (htext : decodeUtf8 bytes = none) (today : ℤ) : r.readStatus (some bytes) today = none := by
  rw [readStatus, if_neg (by simp [hon])]
  simp only [htext]
  rfl

lemma readStatus_none (hon : r.env.enforced = true) (today : ℤ) :
    r.readStatus none today =
      r.endTrial today (statusInfo (r.env.server none today), none) := by
  rw [readStatus, if_neg (by simp [hon]), r.status_none hon, Option.bind_some]

lemma isLicence_iff {bytes : ByteArray} {text : CodeText} (htext : decodeUtf8 bytes = some text) :
    r.IsLicence (some bytes) ↔
      ∃ p, r.env.decode (universalNewlines text) = .ok p ∧ r.env.isOwn p = true := by
  simp [IsLicence, htext]

lemma readable_iff {bytes : ByteArray} {text : CodeText} (htext : decodeUtf8 bytes = some text)
    (today : ℤ) : r.Readable (some bytes) today ↔
      ¬r.TooDeep text ∧ (r.IsLicence (some bytes) ∨ r.trialEnd today ≤ InstallEnv.maxDay) := by
  constructor
  · intro h
    exact ⟨h.shallow bytes rfl text htext, h.onCalendar⟩
  · rintro ⟨hshallow, hcalendar⟩
    refine ⟨?_, ?_, hcalendar⟩
    · intro _ hbytes
      rw [← Option.mem_some_iff.mp hbytes, htext]
      rfl
    · intro _ hbytes text' htext'
      rw [← Option.mem_some_iff.mp hbytes, htext, Option.mem_some_iff] at htext'
      exact htext' ▸ hshallow

/-- **The state is reported exactly if the file can be read.** -/
lemma readStatus_isSome_iff (file : Option ByteArray) (today : ℤ) :
    (r.readStatus file today).isSome = true ↔
      (r.env.enforced = true → r.Readable file today) := by
  cases hon : r.env.enforced with
  | false =>
    have hstatus : r.readStatus file today = r.env.status none today := if_pos hon
    rw [hstatus, InstallEnv.status, if_pos hon]
    simp
  | true =>
    rw [imp_iff_right rfl]
    cases file with
    | none =>
      rw [r.readStatus_none hon]
      have hreadable : r.Readable none today ↔ r.trialEnd today ≤ InstallEnv.maxDay := by
        constructor
        · rintro ⟨-, -, ⟨bytes, hbytes, -⟩ | h⟩
          · cases hbytes
          · exact h
        · exact fun h => ⟨fun bytes hb => (by cases hb), fun bytes hb => (by cases hb), .inr h⟩
      rw [hreadable, ← not_lt, endTrial]
      by_cases hend : InstallEnv.maxDay < r.trialEnd today <;> simp [hend]
    | some bytes =>
      cases htext : decodeUtf8 bytes with
      | none =>
        rw [r.readStatus_undecodable hon htext]
        exact iff_of_false (by simp) fun h => absurd (h.utf8 bytes rfl) (by simp [htext])
      | some text =>
        rw [r.readStatus_some hon htext, r.readable_iff htext, r.isLicence_iff htext]
        rcases r.status_cases hon text today with ⟨hdeep, hstatus⟩ | ⟨p, hdecode, hown, hstatus⟩ |
          ⟨problem, hother, hshallow, hstatus⟩
        · rw [hstatus]
          exact iff_of_false (by simp) fun h => h.1 hdeep
        · rw [hstatus]
          have hshallow : ¬r.TooDeep text := by
            rw [← r.tooDeep_universalNewlines, ← r.decode_eq_other, hdecode]
            exact fun h => by cases h
          exact iff_of_true (by simp [endTrial, InstallEnv.reportOf])
            ⟨hshallow, .inl ⟨p, hdecode, hown⟩⟩
        · rw [hstatus, Option.bind_some, ← not_lt]
          have hnone : ¬∃ p, r.env.decode (universalNewlines text) = .ok p ∧
              r.env.isOwn p = true := by
            rintro ⟨p, hdecode, hown⟩
            exact absurd ((hother p hdecode).symm.trans hown) Bool.false_ne_true
          by_cases hend : InstallEnv.maxDay < r.trialEnd today
          · simp [endTrial, InstallEnv.problemReport, hend, hnone]
          · simp [endTrial, InstallEnv.problemReport, hend, hshallow]

/-! ## What a file allows -/

lemma trialInfo_limits (problem problem' : Option Text) (start today : ℤ) :
    (trialInfo problem start today).allowsNewWork = (trialInfo problem' start today).allowsNewWork ∧
      (trialInfo problem start today).maxContainers =
        (trialInfo problem' start today).maxContainers := by
  unfold trialInfo
  dsimp only
  split_ifs <;> exact ⟨rfl, rfl⟩

/-- With a file that has a problem the state allows what it does without a file. -/
lemma problemReport_limits (hon : r.env.enforced = true) (problem : Text) (today : ℤ) :
    (r.env.problemReport problem today).1.allowsNewWork =
        (statusInfo (r.env.server none today)).allowsNewWork ∧
      (r.env.problemReport problem today).1.maxContainers =
        (statusInfo (r.env.server none today)).maxContainers := by
  have hinfo : ∀ file : Option (Except Text Payload), ∀ problem : Option Text,
      installed (r.env.server file today) = (none, problem) →
        statusInfo (r.env.server file today) =
          trialInfo problem (r.trialStart.getD today) today := by
    intro file problem hinstalled
    have henforced : (r.env.server file today).enforced = true := hon
    rw [statusInfo, henforced, hinstalled]
    rfl
  rw [InstallEnv.problemReport, hinfo _ (some problem) rfl, hinfo none none rfl]
  exact trialInfo_limits _ _ _ today

/-- **A file that is no licence of this server allows what the trial does.** -/
lemma readStatus_of_not_licence {file : Option ByteArray} {today : ℤ} {report : InstallEnv.Report}
    (hfile : ¬r.IsLicence file) (h : r.readStatus file today = some report) :
    ∃ trial, r.readStatus none today = some trial ∧
      report.1.allowsNewWork = trial.1.allowsNewWork ∧
      report.1.maxContainers = trial.1.maxContainers := by
  cases hon : r.env.enforced with
  | false =>
    have hstatus : ∀ file, r.readStatus file today = r.env.status none today := fun _ => if_pos hon
    rw [hstatus] at h ⊢
    exact ⟨report, h, rfl, rfl⟩
  | true =>
    cases file with
    | none => exact ⟨report, h, rfl, rfl⟩
    | some bytes =>
      cases htext : decodeUtf8 bytes with
      | none =>
        rw [r.readStatus_undecodable hon htext] at h
        cases h
      | some text =>
        rw [r.isLicence_iff htext] at hfile
        rw [r.readStatus_some hon htext] at h
        rcases r.status_cases hon text today with ⟨-, hstatus⟩ | ⟨p, hdecode, hown, -⟩ |
          ⟨problem, -, -, hstatus⟩
        · simp [hstatus] at h
        · exact absurd ⟨p, hdecode, hown⟩ hfile
        · rw [hstatus, Option.bind_some, endTrial] at h
          rw [r.readStatus_none hon, endTrial]
          by_cases hend : InstallEnv.maxDay < r.trialEnd today
          · simp [InstallEnv.problemReport, hend] at h
          · rw [if_neg fun hboth => hend hboth.2] at h ⊢
            obtain rfl := Option.some.inj h
            exact ⟨_, rfl, r.problemReport_limits hon problem today⟩

/-! ## The payload of a licence -/

/-- The payload that `decode` returns, as it stands in the licence. -/
def decodedParts (body signature : CodeText) : Option JsonValue := do
  let signatureBytes ← r.env.b64decode signature
  let bytes ← r.env.b64decode body
  let payload ← (r.loads bytes).toOption
  if r.env.signedByVendor signatureBytes (InstallEnv.formatPrefix ++ InstallEnv.dot :: body) ∧
      (r.env.checkPayload (ofJson payload)).isOk then some payload
  else none

def decoded (text : CodeText) : Option JsonValue :=
  match (InstallEnv.token text).splitOn InstallEnv.dot with
  | [start, body, signature] =>
    if start = InstallEnv.formatPrefix then r.decodedParts body signature else none
  | _ => none

/-- What decodes is a payload that passes its checks, and `decode` is of what it checked. -/
lemma decode_eq_ok {text : CodeText} {p : LicensePayload} :
    r.env.decode text = .ok p ↔
      ∃ v, r.decoded text = some v ∧ r.env.checkPayload (ofJson v) = .ok p := by
  have hparts : ∀ body signature, r.env.decodeParts body signature = .ok p ↔
      ∃ v, r.decodedParts body signature = some v ∧ r.env.checkPayload (ofJson v) = .ok p := by
    intro body signature
    rw [InstallEnv.decodeParts, decodedParts]
    cases r.env.b64decode signature with
    | none => simp [InstallEnv.damaged, refuse]
    | some signatureBytes =>
      cases r.env.b64decode body with
      | none => simp [InstallEnv.damaged, refuse]
      | some bytes =>
        have hjson : r.env.jsonLoads bytes =
            match r.loads bytes with
            | .ok v => .ok (ofJson v)
            | .error .value => .error .value
            | .error .recursion => .error .other := rfl
        dsimp only
        rw [hjson]
        cases hloads : r.loads bytes with
        | error e => cases e <;> simp [InstallEnv.damaged, refuse, Except.toOption, hloads]
        | ok v =>
          cases hsigned : r.env.signedByVendor signatureBytes
            (InstallEnv.formatPrefix ++ InstallEnv.dot :: body) with
          | false => simp [InstallEnv.badSignature, refuse, Except.toOption, hloads, hsigned]
          | true =>
            cases hcheck : r.env.checkPayload (ofJson v) with
            | error e => simp [Except.toOption, Except.isOk, Except.toBool, hloads, hcheck]
            | ok p' => simp [Except.toOption, Except.isOk, Except.toBool, hloads, hsigned, hcheck]
  rw [InstallEnv.decode, decoded]
  generalize (InstallEnv.token text).splitOn InstallEnv.dot = parts
  split
  · rename_i start body signature
    by_cases hstart : start = InstallEnv.formatPrefix
    · simp only [if_pos hstart]
      exact hparts _ _
    · simp [InstallEnv.notALicense, refuse, hstart]
  · simp [InstallEnv.notALicense, refuse]

end Reader

/-! ## Signing -/

/-- How `sign` has `json.dumps` write a payload. -/
lemma isPrintable_separators : ∀ c ∈ lit "," ++ lit ":", JsonText.isPrintable c = true := by
  decide

def signOptions : DumpOptions where
  sortKeys := true
  ensureAscii := true
  itemSeparator := lit ","
  keySeparator := lit ":"
  printable := isPrintable_separators

def b64encode (bytes : Bytes) : CodeText := Base64.strip (Base64.urlsafeEncode bytes)

/-- What the vendor signs. -/
def signedText (body : CodeText) : CodeText := InstallEnv.formatPrefix ++ InstallEnv.dot :: body

variable {F : JsonText.FloatText} {r : Reader F}

/-- The vendor of the licences that a server reads: how deep it can write, and the signatures of
its key, which is one of those built in. -/
structure Vendor (r : Reader F) where
  depth : ℕ
  signature : CodeText → Bytes
  isByte : ∀ t, ∀ b ∈ signature t, b < 256
  isKnown : ∃ keyText ∈ r.publicKeys, ∃ key, r.keyOf keyText = some key ∧
    ∀ t, r.verify key (signature t) t = true

/-- The license text for a payload.  `none` when it raises. -/
def Vendor.sign (vendor : Vendor r) (payload : Lib.PyValue F) : Option CodeText :=
  match r.env.checkPayload (ofJson (toJson payload)),
      PyJson.dumps signOptions vendor.depth payload with
  | .ok _, .ok text =>
    let signed := signedText (b64encode text)
    some (signed ++ InstallEnv.dot :: b64encode (vendor.signature signed))
  | _, _ => none

/-! ## Decoding what was signed -/

/-- A code point that stands in a licence as it is. -/
def IsPlain (c : ℕ) : Prop := isBreak c = false ∧ isSpace c = false ∧ c ≠ InstallEnv.dot ∧ c < 128

lemma isPlain_letter : ∀ c ∈ Base64.alphabet, IsPlain (Base64.toUrlsafe c) := by
  unfold IsPlain
  decide +kernel

lemma isPlain_b64encode {bytes : Bytes} (h : ∀ b ∈ bytes, b < 256) {c : ℕ}
    (hc : c ∈ b64encode bytes) : IsPlain c := by
  obtain ⟨letters, hstrip, hletters, -⟩ := Base64.strip_urlsafeEncode h
  rw [b64encode, hstrip] at hc
  obtain ⟨d, hd, rfl⟩ := List.mem_map.mp hc
  exact isPlain_letter d (hletters d hd)

lemma b64decode_b64encode {env : InstallEnv} (henv : env.urlsafeB64decode = Base64.urlsafeDecode)
    {bytes : Bytes} (h : ∀ b ∈ bytes, b < 256) : env.b64decode (b64encode bytes) = some bytes := by
  have hpadded : b64encode bytes ++ List.replicate ((4 - (b64encode bytes).length % 4) % 4)
      InstallEnv.equalsSign = Base64.pad (b64encode bytes) := rfl
  have hascii : (Base64.pad (b64encode bytes)).all (fun c => decide (c < 128)) = true := by
    refine List.all_eq_true.mpr fun c hc => decide_eq_true ?_
    rcases List.mem_append.mp hc with hc | hc
    · exact (isPlain_b64encode h hc).2.2.2
    · rw [List.eq_of_mem_replicate hc]
      decide
  rw [InstallEnv.b64decode, hpadded, if_pos hascii, henv]
  exact Base64.urlsafeDecode_stripped h

/-- A licence of plain code points is read from a text of its own. -/
lemma token_of_plain {t : CodeText} (hne : t ≠ []) (hhead : t.head? ≠ some InstallEnv.hash)
    (h : ∀ c ∈ t, isBreak c = false ∧ isSpace c = false) : InstallEnv.token t = t := by
  have hlines : splitlines t = [t] := splitlines_of_no_break (fun c hc => (h c hc).1) hne
  have hstrip : strip t = t := strip_of_ends (fun c hc => (h c (List.mem_of_mem_head? hc)).2)
    fun c hc => (h c (List.mem_of_getLast? hc)).2
  have hcounts : InstallEnv.counts t = true := (InstallEnv.counts_iff t).mpr ⟨hne, hhead⟩
  rw [InstallEnv.token, hlines, List.map_singleton, hstrip, List.filter_cons_of_pos hcounts,
    List.filter_nil, List.flatten_singleton]

section Sign

variable (vendor : Vendor r)

/-- The vendor's signature is one of a key that is built in. -/
lemma signedByVendor_signature (t : CodeText) :
    r.env.signedByVendor (vendor.signature t) t = true := by
  obtain ⟨keyText, hmem, key, hkey, hverify⟩ := vendor.isKnown
  exact List.any_eq_true.mpr ⟨key, List.mem_filterMap.mpr ⟨keyText, hmem, hkey⟩, hverify t⟩

/-- Signed, a text has three parts. -/
lemma splitOn_token_signed {bytes signature : Bytes} (hbytes : ∀ b ∈ bytes, b < 256)
    (hsignature : ∀ b ∈ signature, b < 256) :
    (InstallEnv.token (signedText (b64encode bytes) ++
      InstallEnv.dot :: b64encode signature)).splitOn InstallEnv.dot =
      [InstallEnv.formatPrefix, b64encode bytes, b64encode signature] := by
  have hplain : ∀ c ∈ InstallEnv.formatPrefix, IsPlain c := by
    unfold IsPlain
    decide
  have hdot : isBreak InstallEnv.dot = false ∧ isSpace InstallEnv.dot = false := by decide
  have hjoin : signedText (b64encode bytes) ++ InstallEnv.dot :: b64encode signature =
      [InstallEnv.dot].intercalate
        [InstallEnv.formatPrefix, b64encode bytes, b64encode signature] := by
    simp [signedText, List.intercalate, List.intersperse]
  have htoken : InstallEnv.token (signedText (b64encode bytes) ++
      InstallEnv.dot :: b64encode signature) =
      signedText (b64encode bytes) ++ InstallEnv.dot :: b64encode signature := by
    refine token_of_plain (by simp [signedText]) ?_ fun c hc => ?_
    · rw [signedText, List.append_assoc, List.head?_append_of_ne_nil _ (by decide)]
      decide
    · simp only [signedText, List.mem_append, List.mem_cons] at hc
      rcases hc with (hc | rfl | hc) | rfl | hc
      · exact ⟨(hplain c hc).1, (hplain c hc).2.1⟩
      · exact hdot
      · exact ⟨(isPlain_b64encode hbytes hc).1, (isPlain_b64encode hbytes hc).2.1⟩
      · exact hdot
      · exact ⟨(isPlain_b64encode hsignature hc).1, (isPlain_b64encode hsignature hc).2.1⟩
  rw [htoken, hjoin, List.splitOn_intercalate _ _ (by simp)]
  intro l hl
  simp only [List.mem_cons, List.not_mem_nil, or_false] at hl
  rcases hl with rfl | rfl | rfl
  · exact fun hmem => (hplain _ hmem).2.2.1 rfl
  · exact fun hmem => (isPlain_b64encode hbytes hmem).2.2.1 rfl
  · exact fun hmem => (isPlain_b64encode hsignature hmem).2.2.1 rfl

lemma separated_signOptions : Separated signOptions where
  item := ⟨[], rfl, fun _ hc => absurd hc List.not_mem_nil⟩
  key := ⟨[], rfl, fun _ hc => absurd hc List.not_mem_nil⟩

/-- What is decoded from a signed payload. -/
lemma decoded_sign {payload : Lib.PyValue F} {p : LicensePayload} {text : CodeText}
    (hcheck : r.env.checkPayload (ofJson (toJson payload)) = .ok p)
    (hdumps : PyJson.dumps signOptions vendor.depth payload = .ok text) :
    ∃ licence, vendor.sign payload = some licence ∧
      r.decoded licence = ((reads signOptions r.limits.depth payload).toOption.filter fun v =>
        (r.env.checkPayload (ofJson v)).isOk) := by
  have hascii : JsonText.IsAsciiText text := PyJson.isAsciiText_dumps rfl hdumps
  have hbytes : ∀ b ∈ text, b < 256 := by
    intro b hb
    have hprintable := hascii b hb
    rw [JsonText.isPrintable, decide_eq_true_eq] at hprintable
    omega
  have hsignature := vendor.isByte (signedText (b64encode text))
  have hloads : r.loads text = reads signOptions r.limits.depth payload := by
    rw [Reader.loads, r.decodeJson_ascii text hascii]
    exact loads_dumps separated_signOptions r.readsWritten hdumps
  refine ⟨_, by rw [Vendor.sign, hcheck, hdumps], ?_⟩
  rw [Reader.decoded, splitOn_token_signed hbytes hsignature]
  simp only [if_true, Reader.decodedParts]
  rw [b64decode_b64encode rfl hsignature, b64decode_b64encode rfl hbytes]
  simp only [Option.bind_eq_bind, Option.bind_some, hloads]
  have hsigned : r.env.signedByVendor (vendor.signature (signedText (b64encode text)))
      (InstallEnv.formatPrefix ++ InstallEnv.dot :: b64encode text) = true :=
    signedByVendor_signature vendor (signedText (b64encode text))
  simp only [hsigned, true_and]
  cases (reads signOptions r.limits.depth payload).toOption with
  | none => rfl
  | some v => simp [Option.filter]

/-- A payload that passes its checks is an object. -/
lemma checkPayload_dict {env : InstallEnv} {v : JsonValue} {p : LicensePayload}
    (h : env.checkPayload (ofJson v) = .ok p) : ∃ es, v = .dict es := by
  cases v with
  | dict es => exact ⟨es, rfl⟩
  | float x => cases x <;> cases h
  | _ => cases h

/-- No key of a JSON object occurs twice. -/
lemma nodup_of_isJson {es : JsonEntries} {payload : Lib.PyValue F} (hjson : IsJson payload)
    (h : toJson payload = .dict es) : (es.map Prod.fst).Nodup := by
  cases payload with
  | dict entries =>
    rw [toJson, JsonValue.dict.injEq] at h
    rw [← h, toJsonEntries_eq, List.map_map]
    exact hjson.1
  | _ => simp [toJson] at h

/-- **When a payload is decoded as it was signed.** -/
lemma decoded_sign_iff {payload : Lib.PyValue F} {p : LicensePayload} (hjson : IsJson payload)
    (hcheck : r.env.checkPayload (ofJson (toJson payload)) = .ok p) :
    (∃ licence, vendor.sign payload = some licence ∧
      r.decoded licence = some (sortKeys (toJson payload))) ↔
      PyJson.fits signOptions vendor.depth payload = true ∧
        PyJson.fits signOptions r.limits.depth payload = true ∧ AllJoined (toJson payload) := by
  cases hdumps : PyJson.dumps signOptions vendor.depth payload with
  | error e =>
    have hfits : ¬PyJson.fits signOptions vendor.depth payload = true := by
      rw [← PyJson.dumps_isOk, hdumps]
      rintro ⟨t, h⟩
      cases h
    refine iff_of_false ?_ fun h => hfits h.1
    rintro ⟨licence, hsign, -⟩
    rw [Vendor.sign, hcheck, hdumps] at hsign
    cases hsign
  | ok text =>
    have hfits : PyJson.fits signOptions vendor.depth payload = true :=
      (PyJson.dumps_isOk _ _).mp ⟨text, hdumps⟩
    obtain ⟨licence, hsign, hdecoded⟩ := decoded_sign vendor hcheck hdumps
    have hreads : reads signOptions r.limits.depth payload = .ok (sortKeys (toJson payload)) ↔
        AllJoined (toJson payload) ∧ PyJson.fits signOptions r.limits.depth payload = true :=
      reads_eq_iff rfl rfl hjson hfits
    rw [and_iff_right hfits, and_comm, ← hreads]
    constructor
    · rintro ⟨licence', hsign', hdecoded'⟩
      rw [hsign, Option.some.injEq] at hsign'
      rw [← hsign', hdecoded, Option.filter_eq_some_iff] at hdecoded'
      cases hresult : reads signOptions r.limits.depth payload with
      | error e => rw [hresult] at hdecoded'; cases hdecoded'.1
      | ok v =>
        rw [hresult] at hdecoded'
        exact congrArg Except.ok (Option.some.inj hdecoded'.1)
    · intro hread
      obtain ⟨es, hes⟩ := checkPayload_dict hcheck
      -- in order the payload passes the checks again
      have hagain : r.env.checkPayload (ofJson (sortKeys (toJson payload))) = .ok p := by
        rw [hes, r.env.checkPayload_sortKeys (nodup_of_isJson hjson hes), ← hes, hcheck]
      refine ⟨licence, hsign, ?_⟩
      rw [hdecoded, hread]
      simp [Except.toOption, Option.filter, hagain, Except.isOk, Except.toBool]

end Sign

/-- **The state of a licence**: it is reported exactly if licensing is off or the file can be
read; with a file that is no licence of this server it allows what the trial does; and a payload
is decoded as it was signed exactly if its signed text can be written and read, and no string of
it has a high surrogate just before a low one. -/
theorem licence_status_iff (r : Reader F) :
    (∀ file today, (r.readStatus file today).isSome = true ↔
      (r.env.enforced = true → r.Readable file today)) ∧
    (∀ file today report, ¬r.IsLicence file → r.readStatus file today = some report →
      ∃ trial, r.readStatus none today = some trial ∧
        report.1.allowsNewWork = trial.1.allowsNewWork ∧
        report.1.maxContainers = trial.1.maxContainers) ∧
    ∀ (vendor : Vendor r) (payload : Lib.PyValue F) (p : LicensePayload), IsJson payload →
      r.env.checkPayload (ofJson (toJson payload)) = .ok p →
        ((∃ licence, vendor.sign payload = some licence ∧
            r.decoded licence = some (sortKeys (toJson payload))) ↔
          PyJson.fits signOptions vendor.depth payload = true ∧
            PyJson.fits signOptions r.limits.depth payload = true ∧
            AllJoined (toJson payload)) :=
  ⟨r.readStatus_isSome_iff, fun _ _ _ hfile h => r.readStatus_of_not_licence hfile h,
    fun vendor _ _ hjson hcheck => decoded_sign_iff vendor hjson hcheck⟩

/-! ## A file that is no UTF-8 -/

lemma isFloatText_noFloat (_ : ℚ) (h : False) : JsonText.IsFloatText [] := h.elim

lemma read_noFloat (q : ℚ) (h : False) : JsonFloat.nan = .finite q := h.elim

/-- Floats, of which none is written. -/
def noFloats : JsonText.FloatText where
  isFloat := fun _ => False
  repr := fun _ => []
  read := fun _ => .nan
  isFloatText := isFloatText_noFloat
  read_repr := read_noFloat

/-- Decoding bytes of ASCII. -/
def decodeAscii (bytes : Bytes) : Option CodeText :=
  if bytes.all (fun b => decide (b < 128)) then some bytes else none

lemma decodeAscii_of_ascii {t : CodeText} (ht : JsonText.IsAsciiText t) : decodeAscii t = some t := by
  refine if_pos (List.all_eq_true.mpr fun c hc => decide_eq_true ?_)
  have hprintable := ht c hc
  rw [JsonText.isPrintable, decide_eq_true_eq] at hprintable
  omega

/-- A server with one key, and the text of ASCII bytes. -/
def sampleReader : Reader noFloats where
  limits := ⟨990, fun k => decide (k ≤ 4300)⟩
  readsWritten := fun _ hk => decide_eq_true hk
  decodeJson := decodeAscii
  decodeJson_ascii := fun _ ht => decodeAscii_of_ascii ht
  publicKeys := [InstallEnv.sampleKey]
  keyOf := fun t => if t = InstallEnv.sampleKey then some 1 else none
  verify := fun key signature _ => decide (key = 1 ∧ signature = InstallEnv.sampleSignatureBytes)
  fromIsoformat := fun t => if t = lit "2026-01-01" then some 739617 else none
  serverId := InstallEnv.sampleServerId
  trialStart := none

def sampleVendor : Vendor sampleReader where
  depth := 990
  signature := fun _ => InstallEnv.sampleSignatureBytes
  isByte := fun _ => by decide
  isKnown := ⟨InstallEnv.sampleKey, List.mem_singleton_self _, 1, by decide,
    fun _ => by simp [sampleReader]⟩

/-- The state raises where the file is one byte that is no UTF-8. -/
theorem status_raises_on_no_utf8 : sampleReader.env.enforced = true ∧
    sampleReader.readStatus (some ⟨#[0xff]⟩) 739700 = none := by
  refine ⟨rfl, sampleReader.readStatus_undecodable rfl ?_ 739700⟩
  decide +kernel

/-- A payload with a customer of two lines. -/
def samplePy : Lib.PyValue noFloats :=
  .dict [(.str (PyStr.lit "v"), .int 1), (.str (PyStr.lit "id"), .str (PyStr.lit "L-1")),
    (.str (PyStr.lit "customer"), .str (PyStr.lit "Example\nCorp")),
    (.str (PyStr.lit "server_id"), .str (PyStr.ofText InstallEnv.sampleServerId)),
    (.str (PyStr.lit "issued"), .str (PyStr.lit "2026-01-01"))]

lemma sample_checkPayload :
    sampleReader.env.checkPayload (ofJson (toJson samplePy)) = .ok InstallEnv.sampleDecoded := by
  decide +kernel

/-- A text is read as a file without a licence, and the payload is decoded as it was signed. -/
theorem licence_status_sample :
    (sampleReader.readStatus (some ⟨#[0x2d]⟩) 739700).isSome = true ∧
      ∃ licence, sampleVendor.sign samplePy = some licence ∧
        sampleReader.decoded licence = some (sortKeys (toJson samplePy)) := by
  obtain ⟨hreported, -, hsigned⟩ := licence_status_iff sampleReader
  constructor
  · refine (hreported _ _).mpr fun _ => ?_
    have htext : decodeUtf8 ⟨#[0x2d]⟩ = some [45] := by decide +kernel
    refine (sampleReader.readable_iff htext _).mpr ⟨?_, .inr (by decide)⟩
    rintro ⟨body, signature, signatureBytes, bytes, hparts, -⟩
    -- the text is one part
    have hlength := congrArg List.length hparts
    have hone : InstallEnv.token [45] = [45] := by decide +kernel
    rw [length_splitOn, hone] at hlength
    exact absurd hlength (by simp [InstallEnv.dot])
  · refine (hsigned sampleVendor samplePy _ ?_ sample_checkPayload).mpr ⟨?_, ?_, ?_⟩
    · refine ⟨by decide +kernel, ?_⟩
      simp [EntriesAreJson, IsJson, PyJson.str?]
    · decide +kernel
    · decide +kernel
    · simp only [samplePy, toJson, toJsonEntries, AllJoined, EntriesJoined, JsonText.IsJoined,
        and_true]
      decide +kernel

end Habeny.Licensing
