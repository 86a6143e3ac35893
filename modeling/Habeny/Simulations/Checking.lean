import Habeny.Audit.Import
import Habeny.Lib.JsonScan
import Habeny.Simulations.Answer

/-!
# Whether a check reaches a result

A check marks the simulation's detection as being checked, asks the SIEM, and writes what was found
or the `DetectionError` that it was; then it records the check in the audit log.  Any other
exception ends it, and the mark stays.

`check_ends_iff` says of which addresses, other ends and answers a check comes to a result.
-/

namespace Habeny.Simulations.Answer

open Habeny.Lib CodeText Search Audit
open Hosts.Reachability (Peer)
open Audit.Recording hiding Failure

/-! ## Checking -/

/-- A simulation.  `others` are the fields that a check does not read. -/
structure Simulation where
  id : Text
  profileId : Option CodeText
  targetAgents : List CodeText
  startedAt : Option CodeText
  detection : JsonEntries
  others : JsonEntries

/-- What a check depends on: the profiles of the managers, the clock, the other ends of the two
requests, and where the check is recorded. -/
structure Site (D : Type*) extends AnswerEnv where
  profiles : CodeText → Option Manager
  now : Time
  checkedAt : CodeText
  alertsPeer : Peer
  eventsPeer : Peer
  audit : AuditEnv D
  server : ServerLog
  limits : Limits
  log : AuditLog
  ctx : Option RequestContext
  ts : Text
  time : Text

section Check

variable (F : JsonText.FloatText) [DecidablePred F.isFloat] {D : Type*} (site : Site D)

/-- The events received from the containers (`_ingestion`), with the error in their place if they
cannot be asked for. -/
def ingestion (start : Time) (m : Manager) (index : Text) : Except Failure JsonValue :=
  match search F site.toSearchEnv site.eventsPeer m index with
  | .error (.detection text) => .ok (.dict [(lit "error", .str text)])
  | .error .other => .error .other
  | .ok payload =>
    match ingested F site.toAnswerEnv start payload with
    | none => .error .other
    | some events => .ok events

/-- When a simulation started, or now if it does not say. -/
def startOf (sim : Simulation) : Time :=
  (timeOf F site.toAnswerEnv (textOrNull sim.startedAt)).getD site.now

/-- What is asked about a simulation. -/
def question (sim : Simulation) (m : Manager) (b : Backend) : Question where
  containers := sim.targetAgents
  expected := (expectedRules m.siemType sim.profileId).map Prod.fst
  start := startOf F site sim
  siem := m.siemType
  backend := b
  rules := expectedRules m.siemType sim.profileId
  finish := site.checkedAt
  ids := rfl

/-- What the SIEM detected (`check`). -/
def check (sim : Simulation) (m : Manager) (b : Backend) : Except Failure Found :=
  match parseTime F site.toAnswerEnv (textOrNull sim.startedAt) with
  | none => .error .other
  | some _ =>
    match search F site.toSearchEnv site.alertsPeer m b.index with
    | .error f => .error f
    | .ok payload =>
      match analyse F site.toAnswerEnv (question F site sim m b) payload with
      | none => .error .other
      | some found =>
        match b.eventsIndex with
        | none => .ok found
        | some index =>
          match ingestion F site (startOf F site sim) m index with
          | .error f => .error f
          | .ok events =>
            .ok { found with entries := found.entries ++ [(lit "ingestion", events)] }

/-- Change the detection of a simulation (`_set_detection`). -/
def setDetection (sim : Simulation) (values : JsonEntries) : Simulation :=
  { sim with detection := sim.detection.merge values }

/-- The profile of a check: the one that is asked for, or else the one of the last check. -/
def profileOf (sim : Simulation) (managerProfileId : Option CodeText) : Option CodeText :=
  match managerProfileId.filter (· ≠ []) with
  | some id => some id
  | none => (sim.detection.lookup (lit "manager_profile_id")).bind JsonValue.text?

/-- The manager that is asked, if it can be. -/
def asked (profileId : Option CodeText) : Option (Manager × Backend) := do
  let id ← profileId.filter (· ≠ [])
  let m ← site.profiles id
  let b ← backend m
  return (m, b)

/-- What is recorded of a check. -/
structure Noted where
  rate : JsonValue
  alerts : JsonValue
  error : Option CodeText

def Noted.details (sim : Simulation) (m : Manager) (n : Noted) : PyValue F :=
  .dict [(.str (.lit "simulation_id"), .str (.ofText sim.id)),
    (.str (.lit "profile"), orNone (sim.profileId.map .ofPoints)),
    (.str (.lit "siem"), .str (.ofPoints m.siemType)),
    (.str (.lit "detection_rate"), PyRepr.ofJson F n.rate),
    (.str (.lit "alerts"), PyRepr.ofJson F n.alerts),
    (.str (.lit "error"), orNone (n.error.map .ofPoints))]

def Noted.status (n : Noted) : PyStr := if n.error = none then .lit "success" else .lit "error"

/-- What a check that found something or raised a `DetectionError` writes and what it records. -/
def resultOf (profileId : Option CodeText) (m : Manager) :
    Except Failure Found → Option (JsonEntries × Noted)
  | .error .other => none
  | .error (.detection text) =>
    some ([(lit "status", .str (lit "error")),
        (lit "manager_profile_id", textOrNull profileId),
        (lit "checked_at", .str site.checkedAt), (lit "error", .str text)],
      { rate := .null, alerts := .null, error := some text })
  | .ok found =>
    some ([(lit "status", .str (lit "done")),
        (lit "manager_profile_id", textOrNull profileId), (lit "manager_name", .str m.name),
        (lit "checked_at", .str site.checkedAt), (lit "error", .null)] ++ found.entries,
      { rate := number found.rate, alerts := found.alerts, error := none })

/-- What a check leaves: the simulation, and the result if it returns one. -/
structure Outcome where
  sim : Simulation
  result : Option JsonEntries

/-- Record a check; nothing when that raises (`log_activity`). -/
def logActivity (sim : Simulation) (m : Manager) (n : Noted) : Option AuditLog :=
  let recorded := record site.audit site.server site.limits none site.log site.ctx
    (.lit "simulation_detection_checked") (n.details F sim m) n.status none site.ts site.time
  if recorded.raised = none then some recorded.log else none

/-- Check a simulation (`run_detection_check`).  What announcing the result raises is caught. -/
def runDetectionCheck (sim : Simulation) (managerProfileId : Option CodeText) : Outcome :=
  let profileId := profileOf sim managerProfileId
  match asked site profileId with
  | none =>
    let values := [(lit "status", .str (lit "error")),
      (lit "manager_profile_id", textOrNull profileId),
      (lit "error", .str (lit
        "The manager profile has no detection API set (Managers page, admins)"))]
    { sim := setDetection sim values, result := some values }
  | some (m, b) =>
    let checking := setDetection sim [(lit "status", .str (lit "checking")),
      (lit "manager_profile_id", textOrNull profileId)]
    match resultOf site profileId m (check F site sim m b) with
    | none => { sim := checking, result := none }
    | some (values, noted) =>
      { sim := setDetection checking values
        result := (logActivity F site sim m noted).map fun _ => values }

/-! ## Coming to a result -/

/-- A check returns, with the status of the detection at done or error, and every other field of
the simulation as it was. -/
structure Ends (sim : Simulation) (o : Outcome) : Prop where
  returns : o.result.isSome = true
  status : o.sim.detection.lookup (lit "status") = some (.str (lit "done")) ∨
    o.sim.detection.lookup (lit "status") = some (.str (lit "error"))
  others : o.sim = { sim with detection := o.sim.detection }

/-- A check can be recorded: what the request knows and the profile can be encoded, details may be
nested, and there is an id for the entry. -/
structure Recordable (sim : Simulation) : Prop where
  depth : 0 < site.limits.stored
  id : isInt64 (site.log.lastPlace.1 + 1) = true
  context : ∀ ctx ∈ site.ctx, ∀ t ∈ [ctx.user, ctx.token, ctx.ip, some ctx.id],
    CodeText.encodable ((t.map PyStr.points).getD []) = true
  profile : CodeText.encodable (sim.profileId.getD []) = true

/-- What a check needs to come to a result.  The searches and the answers are such that nothing
but a `DetectionError` is raised; a reason for which a search is refused can be encoded where it is
quoted; and a number of alerts that is recorded has not too many digits. -/
structure Answerable (sim : Simulation) (m : Manager) (b : Backend) : Prop where
  search : SearchHandled site.toSearchEnv site.alertsPeer m b.index
  answer : ∀ v, Finds site.toSearchEnv site.alertsPeer m b.index v →
    AnswerShape F site.toAnswerEnv (question F site sim m b).toAsked v
  eventsSearch : ∀ v, Finds site.toSearchEnv site.alertsPeer m b.index v →
    ∀ index ∈ b.eventsIndex, SearchHandled site.toSearchEnv site.eventsPeer m index
  events : ∀ v, Finds site.toSearchEnv site.alertsPeer m b.index v →
    ∀ index ∈ b.eventsIndex, ∀ w, Finds site.toSearchEnv site.eventsPeer m index w →
      EventsShape F site.toAnswerEnv (startOf F site sim) w
  recordable : Recordable site sim
  refused : ∀ a text, Answers site.toSearchEnv site.alertsPeer m b.index a →
    Refuses F site.toSearchEnv a text → CodeText.encodable (text.take 200) = true
  total : ∀ v, Finds site.toSearchEnv site.alertsPeer m b.index v →
    (∀ c ∈ countsOf F site.toAnswerEnv (question F site sim m b).toAsked v,
      c.integer?.isSome = true) →
    PyJson.fewDigits
      (integers (countsOf F site.toAnswerEnv (question F site sim m b).toAsked v)) = true

/-! ## What is recorded -/

variable {F site}

omit [DecidablePred F.isFloat] in
/-- Where the database does not fail, recording raises nothing exactly if the event can be stored. -/
lemma record_raised_iff {action status : PyStr} {details : PyValue F} {user : Option PyStr} :
    (record site.audit site.server site.limits none site.log site.ctx action details status user
        site.ts site.time).raised = none ↔
      storable site.limits.stored none site.log
        (event site.ctx action details status user site.ts) = true := by
  rw [record]
  set e := event site.ctx action details status user site.ts
  cases hstorable : storable site.limits.stored none site.log e with
  | false =>
    obtain ⟨error, hstore⟩ := store_of_not_storable site.audit hstorable
    rw [hstore]
    simp
  | true =>
    have hstore := store_of_storable site.audit hstorable
    rw [if_pos rfl] at hstore
    obtain ⟨-, written, -, hstore⟩ := hstore
    rw [hstore]
    simp

/-- A number, or nothing. -/
inductive IsNumber : JsonValue → Prop
  | null : IsNumber .null
  | int (n : ℤ) : IsNumber (.int n)
  | float (x : JsonFloat) : IsNumber (.float x)

lemma fits_of_isNumber {o : DumpOptions} {depth : ℕ} {v : JsonValue} (h : IsNumber v) :
    PyJson.fits o depth (PyRepr.ofJson F v) = true ↔ ∀ n, v = .int n → PyJson.fewDigits n = true := by
  cases h with
  | null => simp [PyRepr.ofJson, PyJson.fits]
  | int n => simp [PyRepr.ofJson, PyJson.fits]
  | float x => simp [PyRepr.ofJson, PyJson.fits]

lemma points_of_isNumber {v : JsonValue} (h : IsNumber v) :
    PyJson.points (PyRepr.ofJson F v) = [] := by
  cases h <;> simp [PyRepr.ofJson, PyJson.points]

omit [DecidablePred F.isFloat] in
lemma points_orNone (t : Option CodeText) :
    CodeText.encodable (PyJson.points (F := F) (orNone (t.map .ofPoints))) =
      CodeText.encodable (t.getD []) := by
  cases t with
  | none => rfl
  | some t => exact PyRepr.encodable_ofPoints t

omit [DecidablePred F.isFloat] in
lemma fits_orNone {o : DumpOptions} {depth : ℕ} (t : Option PyStr) :
    PyJson.fits (F := F) o depth (orNone t) = true := by
  cases t <;> simp [orNone, PyJson.fits]

/-- The numbers that are recorded. -/
structure Noted.Numbers (n : Noted) : Prop where
  rate : n.rate = .null ∨ ∃ q, n.rate = number q
  alerts : IsNumber n.alerts

/-- Details can be written if the alerts are no integer with too many digits. -/
lemma detailsFit_details {sim : Simulation} {m : Manager} {n : Noted} (hn : n.Numbers) {depth : ℕ}
    (hdepth : 0 < depth) :
    detailsFit depth (n.details F sim m) = true ↔
      ∀ k, n.alerts = .int k → PyJson.fewDigits k = true := by
  obtain ⟨depth, rfl⟩ : ∃ d, depth = d + 1 := ⟨depth - 1, by omega⟩
  have hrate : PyJson.fits canonicalOptions depth (PyRepr.ofJson F n.rate) = true := by
    rcases hn.rate with h | ⟨q, h⟩
    · simp [h, PyRepr.ofJson, PyJson.fits]
    · simp [h, number, PyRepr.ofJson, PyJson.fits]
  have halerts : PyJson.fits canonicalOptions depth (PyRepr.ofJson F n.alerts) = true ↔
      ∀ k, n.alerts = .int k → PyJson.fewDigits k = true := fits_of_isNumber hn.alerts
  rw [← halerts]
  simp [detailsFit, Noted.details, Recording.orEmpty, PyValue.truthy, PyJson.fits,
    PyJson.entriesFit, PyJson.keyFits, PyJson.comparable, PyJson.str?, fits_orNone, hrate]

lemma encodable_append (s t : CodeText) :
    CodeText.encodable (s ++ t) = (CodeText.encodable s && CodeText.encodable t) := by
  rw [CodeText.encodable, List.all_append]
  rfl

/-- Details can be encoded if the profile and what is quoted can. -/
lemma encodable_details {sim : Simulation} {m : Manager} {n : Noted} (hn : n.Numbers)
    (hsiem : CodeText.encodable m.siemType = true) :
    CodeText.encodable (detailsPoints (n.details F sim m)) =
      (CodeText.encodable (sim.profileId.getD []) && CodeText.encodable (n.error.getD [])) := by
  have hrate : PyJson.points (PyRepr.ofJson F n.rate) = [] := by
    refine points_of_isNumber ?_
    rcases hn.rate with h | ⟨q, h⟩
    · exact h ▸ .null
    · exact h ▸ .float _
  have hkey : ∀ k : String, CodeText.encodable (PyStr.lit k).points = true :=
    fun k => encodable_text k.toList
  have hid : CodeText.encodable (PyStr.ofText sim.id).points = true := encodable_text sim.id
  have hsiem' : CodeText.encodable (PyStr.ofPoints m.siemType).points = true :=
    (PyRepr.encodable_ofPoints m.siemType).trans hsiem
  have hnil : CodeText.encodable [] = true := rfl
  have hpoints : detailsPoints (n.details F sim m) = PyJson.points (n.details F sim m) := rfl
  rw [hpoints]
  simp only [Noted.details, PyJson.points, PyJson.entryPoints, PyJson.keyPoints, encodable_append,
    points_orNone, hrate, points_of_isNumber hn.alerts, hkey, hid, hsiem', hnil, Bool.true_and,
    Bool.and_true]

omit [DecidablePred F.isFloat] in
/-- What a check stores beside the details can be encoded if what the request knows can. -/
lemma encodable_texts {details : PyValue F} {status : PyStr}
    (hstatus : CodeText.encodable status.points = true) :
    ((event site.ctx (.lit "simulation_detection_checked") details status none site.ts).texts.all
        fun t => CodeText.encodable ((t.map PyStr.points).getD [])) = true ↔
      ∀ ctx ∈ site.ctx, ∀ t ∈ [ctx.user, ctx.token, ctx.ip, some ctx.id],
        CodeText.encodable ((t.map PyStr.points).getD []) = true := by
  have haction : CodeText.encodable (PyStr.lit "simulation_detection_checked").points = true :=
    encodable_text "simulation_detection_checked".toList
  have hnil : CodeText.encodable [] = true := rfl
  cases hctx : site.ctx with
  | none => simp [event, Event.texts, orContext, haction, hstatus, hnil]
  | some ctx => simp [event, Event.texts, orContext, haction, hstatus]

/-- **What can be recorded of a check.** -/
lemma isSome_logActivity {sim : Simulation} {m : Manager} {n : Noted} (hn : n.Numbers)
    (hsiem : CodeText.encodable m.siemType = true) :
    (logActivity F site sim m n).isSome = true ↔
      Recordable site sim ∧ (∀ k, n.alerts = .int k → PyJson.fewDigits k = true) ∧
        CodeText.encodable (n.error.getD []) = true := by
  have hstatus : CodeText.encodable n.status.points = true := by
    rw [Noted.status]
    split_ifs
    · exact encodable_text "success".toList
    · exact encodable_text "error".toList
  have hraised : (logActivity F site sim m n).isSome = true ↔ storable site.limits.stored none
      site.log (event site.ctx (.lit "simulation_detection_checked") (n.details F sim m) n.status
        none site.ts) = true := by
    rw [← record_raised_iff, logActivity]
    split_ifs with h
    · exact iff_of_true rfl h
    · exact iff_of_false Bool.false_ne_true h
  rw [hraised, storable, Recording.encodable, Bool.or_eq_true, Bool.and_eq_true, Bool.or_eq_true,
    Bool.and_eq_true, Bool.and_eq_true, encodable_texts hstatus]
  simp only [reduceCtorEq, or_self, decide_false, Bool.false_eq_true, false_or]
  show detailsFit site.limits.stored (n.details F sim m) = true ∧
    (_ ∧ CodeText.encodable (detailsPoints (n.details F sim m)) = true) ∧ _ ↔ _
  rw [encodable_details hn hsiem, Bool.and_eq_true]
  rcases Nat.eq_zero_or_pos site.limits.stored with hzero | hpos
  · rw [hzero]
    exact iff_of_false (fun h => absurd h.1 Bool.false_ne_true) fun h => by
      have hdepth := h.1.depth
      omega
  · rw [detailsFit_details hn hpos]
    constructor
    · rintro ⟨hfew, ⟨hcontext, hprofile, herror⟩, hid⟩
      exact ⟨⟨hpos, hid, hcontext, hprofile⟩, hfew, herror⟩
    · rintro ⟨hrecordable, hfew, herror⟩
      exact ⟨hfew, ⟨hrecordable.context, hrecordable.profile, herror⟩, hrecordable.id⟩

/-! ## What a check finds -/

/-- The time of a simulation's start is read, or there is none. -/
lemma parseTime_start (F : JsonText.FloatText) [DecidablePred F.isFloat] (site : Site D)
    (sim : Simulation) :
    ∃ t, parseTime F site.toAnswerEnv (textOrNull sim.startedAt) = some t := by
  cases sim.startedAt with
  | none => exact ⟨none, rfl⟩
  | some t => exact ⟨_, rfl⟩

lemma ingestion_handled {start : Time} {m : Manager} {index : Text} :
    Handled (ingestion F site start m index) ↔
      SearchHandled site.toSearchEnv site.eventsPeer m index ∧
        ∀ w, Finds site.toSearchEnv site.eventsPeer m index w →
          EventsShape F site.toAnswerEnv start w := by
  rw [← search_handled (F := F), ingestion]
  simp only [← search_eq_ok_iff (F := F), ← isSome_ingested]
  cases search F site.toSearchEnv site.eventsPeer m index with
  | error f => cases f <;> simp [Handled]
  | ok payload =>
    simp only [Except.ok.injEq, forall_eq', Handled, ne_eq, reduceCtorEq, not_false_eq_true,
      true_and]
    cases ingested F site.toAnswerEnv start payload <;> simp

lemma ingestion_not_detection {start : Time} {m : Manager} {index : Text} {t : CodeText} :
    ingestion F site start m index ≠ .error (.detection t) := by
  rw [ingestion]
  cases search F site.toSearchEnv site.eventsPeer m index with
  | error f => cases f <;> simp
  | ok payload =>
    dsimp only
    cases ingested F site.toAnswerEnv start payload <;> simp

variable {sim : Simulation} {m : Manager} {b : Backend}

/-- What a check needs to find something or to raise a `DetectionError`. -/
lemma check_handled :
    Handled (check F site sim m b) ↔
      SearchHandled site.toSearchEnv site.alertsPeer m b.index ∧
        ∀ v, Finds site.toSearchEnv site.alertsPeer m b.index v →
          AnswerShape F site.toAnswerEnv (question F site sim m b).toAsked v ∧
            ∀ index ∈ b.eventsIndex, Handled (ingestion F site (startOf F site sim) m index) := by
  obtain ⟨t, hstart⟩ := parseTime_start F site sim
  rw [← search_handled (F := F), check, hstart]
  simp only [← search_eq_ok_iff (F := F)]
  cases search F site.toSearchEnv site.alertsPeer m b.index with
  | error f => cases f <;> simp [Handled]
  | ok payload =>
    simp only [Except.ok.injEq, forall_eq', ← isSome_analyse F site.toAnswerEnv]
    have hok : Handled (.ok payload : Except Failure JsonValue) := by simp [Handled]
    rw [and_iff_right hok]
    cases analyse F site.toAnswerEnv (question F site sim m b) payload with
    | none => simp [Handled]
    | some found =>
      cases b.eventsIndex with
      | none => simp [Handled]
      | some index =>
        simp only [Option.mem_some_iff, forall_eq', Option.isSome_some, true_and]
        cases ingestion F site (startOf F site sim) m index with
        | error f => cases f <;> simp [Handled]
        | ok events => simp [Handled]

/-- What is found is what an answer says, maybe with the events. -/
lemma check_eq_ok {found : Found} (h : check F site sim m b = .ok found) :
    ∃ v found', Finds site.toSearchEnv site.alertsPeer m b.index v ∧
      analyse F site.toAnswerEnv (question F site sim m b) v = some found' ∧
      found.alerts = found'.alerts ∧
      (found.entries = found'.entries ∨
        ∃ events, found.entries = found'.entries ++ [(lit "ingestion", events)]) := by
  obtain ⟨t, hstart⟩ := parseTime_start F site sim
  rw [check, hstart] at h
  dsimp only at h
  cases hsearch : search F site.toSearchEnv site.alertsPeer m b.index with
  | error f => rw [hsearch] at h; cases h
  | ok payload =>
    rw [hsearch] at h
    dsimp only at h
    cases hanalyse : analyse F site.toAnswerEnv (question F site sim m b) payload with
    | none => rw [hanalyse] at h; cases h
    | some found' =>
      rw [hanalyse] at h
      refine ⟨payload, found', search_eq_ok_iff.mp hsearch, hanalyse, ?_⟩
      dsimp only at h
      cases hindex : b.eventsIndex with
      | none =>
        rw [hindex] at h
        obtain rfl := Except.ok.inj h
        exact ⟨rfl, .inl rfl⟩
      | some index =>
        rw [hindex] at h
        dsimp only at h
        cases hevents : ingestion F site (startOf F site sim) m index with
        | error f => rw [hevents] at h; cases h
        | ok events =>
          rw [hevents] at h
          obtain rfl := Except.ok.inj h
          exact ⟨rfl, .inr ⟨events, rfl⟩⟩

/-- A `DetectionError` is one of the first search. -/
lemma check_eq_detection {t : CodeText} (h : check F site sim m b = .error (.detection t)) :
    search F site.toSearchEnv site.alertsPeer m b.index = .error (.detection t) := by
  obtain ⟨s, hstart⟩ := parseTime_start F site sim
  rw [check, hstart] at h
  dsimp only at h
  cases hsearch : search F site.toSearchEnv site.alertsPeer m b.index with
  | error f =>
    rw [hsearch] at h
    obtain rfl := Except.error.inj h
    rfl
  | ok payload =>
    rw [hsearch] at h
    dsimp only at h
    cases hanalyse : analyse F site.toAnswerEnv (question F site sim m b) payload with
    | none => rw [hanalyse] at h; cases h
    | some found' =>
      rw [hanalyse] at h
      dsimp only at h
      cases hindex : b.eventsIndex with
      | none => rw [hindex] at h; cases h
      | some index =>
        rw [hindex] at h
        dsimp only at h
        cases hevents : ingestion F site (startOf F site sim) m index with
        | error f =>
          rw [hevents] at h
          obtain rfl := Except.error.inj h
          exact absurd hevents ingestion_not_detection
        | ok events => rw [hevents] at h; cases h

/-! ## When a check ends -/

lemma setDetection_others (sim : Simulation) (values : JsonEntries) :
    setDetection sim values = { sim with detection := (setDetection sim values).detection } := rfl

/-- The keys of what was found. -/
lemma report_keys (env : AnswerEnv) (q : Question) (perContainer : List Row) (rules : List RuleRow)
    (alerts : JsonValue) :
    (report env q perContainer rules alerts).entries.map Prod.fst =
      [lit "siem", lit "window", lit "containers", lit "detected", lit "detection_rate",
        lit "ttd_seconds", lit "alerts", lit "rules", lit "expected", lit "missed",
        lit "per_container", lit "basis"] := rfl

lemma analyse_keys {env : AnswerEnv} {q : Question} {v : JsonValue} {found : Found}
    (h : analyse F env q v = some found) : lit "status" ∉ found.entries.map Prod.fst := by
  obtain ⟨perContainer, rules, alerts, rfl⟩ :
      ∃ perContainer rules alerts, found = report env q perContainer rules alerts := by
    have hshape := (isSome_analyse F env q v).mp (by rw [h]; rfl)
    rw [analyse_of_object F env hshape.object] at h
    obtain ⟨buckets, -, h⟩ := Option.bind_eq_some_iff.mp h
    obtain ⟨rows, -, h⟩ := Option.bind_eq_some_iff.mp h
    obtain ⟨ruleBuckets, -, h⟩ := Option.bind_eq_some_iff.mp h
    obtain ⟨rules, -, h⟩ := Option.bind_eq_some_iff.mp h
    obtain ⟨alerts, -, h⟩ := Option.bind_eq_some_iff.mp h
    exact ⟨_, rules, alerts, (Option.some.inj h).symm⟩
  rw [report_keys]
  decide

/-- What is written says done or error, and its numbers can be told apart. -/
lemma resultOf_status {profileId : Option CodeText} {values : JsonEntries} {n : Noted}
    (h : resultOf site profileId m (check F site sim m b) = some (values, n)) (old : JsonEntries) :
    (old.merge values).lookup (lit "status") = some (.str (lit "done")) ∨
      (old.merge values).lookup (lit "status") = some (.str (lit "error")) := by
  cases hcheck : check F site sim m b with
  | error f =>
    rw [hcheck] at h
    cases f with
    | other => cases h
    | detection text =>
      obtain ⟨rfl, -⟩ := Prod.mk.inj (Option.some.inj h)
      refine .inr (JsonEntries.lookup_merge_cons ?_)
      show lit "status" ∉ [lit "manager_profile_id", lit "checked_at", lit "error"]
      decide
  | ok found =>
    rw [hcheck] at h
    obtain ⟨rfl, -⟩ := Prod.mk.inj (Option.some.inj h)
    refine .inl (JsonEntries.lookup_merge_cons ?_)
    obtain ⟨v, found', -, hanalyse, -, hentries⟩ := check_eq_ok hcheck
    have hkeys := analyse_keys hanalyse
    show lit "status" ∉ [lit "manager_profile_id", lit "manager_name", lit "checked_at",
      lit "error"] ++ found.entries.map Prod.fst
    rw [List.mem_append, not_or]
    refine ⟨by decide, ?_⟩
    rcases hentries with hentries | ⟨events, hentries⟩
    · rwa [hentries]
    · rw [hentries, List.map_append, List.mem_append, not_or]
      refine ⟨hkeys, ?_⟩
      show lit "status" ∉ [lit "ingestion"]
      decide

/-- Where a check comes to something to write, that can be recorded if it is as an answer that
counts is. -/
lemma recorded_iff {profileId : Option CodeText} (hsiem : CodeText.encodable m.siemType = true)
    {values : JsonEntries} {n : Noted}
    (h : resultOf site profileId m (check F site sim m b) = some (values, n)) :
    (logActivity F site sim m n).isSome = true ↔ Recordable site sim ∧
      (∀ a text, Answers site.toSearchEnv site.alertsPeer m b.index a →
        Refuses F site.toSearchEnv a text → CodeText.encodable (text.take 200) = true) ∧
      ∀ v, Finds site.toSearchEnv site.alertsPeer m b.index v →
        (∀ c ∈ countsOf F site.toAnswerEnv (question F site sim m b).toAsked v,
          c.integer?.isSome = true) →
        PyJson.fewDigits
          (integers (countsOf F site.toAnswerEnv (question F site sim m b).toAsked v)) = true := by
  cases hcheck : check F site sim m b with
  | error f =>
    rw [hcheck] at h
    cases f with
    | other => cases h
    | detection text =>
      obtain ⟨-, rfl⟩ := Prod.mk.inj (Option.some.inj h)
      have hsearch := check_eq_detection hcheck
      have hno : ∀ v, ¬Finds site.toSearchEnv site.alertsPeer m b.index v := fun v hv => by
        rw [search_eq_ok_iff.mpr hv] at hsearch
        cases hsearch
      rw [isSome_logActivity ⟨.inl rfl, .null⟩ hsiem, ← search_text hsearch]
      refine and_congr_right fun _ => ?_
      constructor
      · exact fun h => ⟨h.2, fun v hv => absurd hv (hno v)⟩
      · exact fun h => ⟨fun k hk => (by cases hk), h.1⟩
  | ok found =>
    rw [hcheck] at h
    obtain ⟨-, rfl⟩ := Prod.mk.inj (Option.some.inj h)
    obtain ⟨v, found', hfinds, hanalyse, halerts, -⟩ := check_eq_ok hcheck
    have hsum := sum_eq site.toAnswerEnv (analyse_alerts F site.toAnswerEnv hanalyse)
    have hsame : ∀ w, Finds site.toSearchEnv site.alertsPeer m b.index w → w = v := by
      intro w hw
      rw [← search_eq_ok_iff (F := F)] at hw hfinds
      rw [hfinds] at hw
      exact (Except.ok.inj hw).symm
    have hnumber : IsNumber found.alerts := by
      rw [halerts]
      rcases hsum with ⟨hint, -⟩ | ⟨⟨x, hfloat⟩, -⟩
      · exact hint ▸ .int _
      · exact hfloat ▸ .float x
    have hno : ∀ a text, Answers site.toSearchEnv site.alertsPeer m b.index a →
        ¬Refuses F site.toSearchEnv a text := by
      rintro a text ha ⟨hstatus, -⟩
      obtain ⟨status, hlow, hv⟩ := hfinds
      have hexchange := exchange_eq_ok_iff.mpr ha
      rw [exchange_eq_ok_iff.mpr hv] at hexchange
      obtain rfl := Except.ok.inj hexchange
      omega
    rw [isSome_logActivity ⟨.inr ⟨found.rate, rfl⟩, hnumber⟩ hsiem]
    refine and_congr_right fun _ => ?_
    constructor
    · rintro ⟨hfew, -⟩
      refine ⟨fun a text ha hrefuses => absurd hrefuses (hno a text ha), fun w hw hintegers => ?_⟩
      obtain rfl := hsame w hw
      refine hfew _ (halerts.trans ?_)
      rcases hsum with ⟨hint, -⟩ | ⟨-, c, hc, hother⟩
      · exact hint
      · rw [hintegers c hc] at hother
        cases hother
    · rintro ⟨-, hfew⟩
      refine ⟨fun k hk => ?_, rfl⟩
      have hk' : found'.alerts = .int k := halerts.symm.trans hk
      rcases hsum with ⟨hint, hintegers⟩ | ⟨⟨x, hfloat⟩, -⟩
      · rw [hint] at hk'
        obtain rfl := JsonValue.int.inj hk'
        exact hfew v hfinds hintegers
      · rw [hfloat] at hk'
        cases hk'

lemma encodable_siemType (h : backend m = some b) : CodeText.encodable m.siemType = true := by
  rw [backend] at h
  split_ifs at h
  obtain ⟨before, after, hbackends, -⟩ := List.lookup_eq_some_iff.mp h
  have hall : ∀ e ∈ backends, CodeText.encodable e.1 = true := by decide
  exact hall (m.siemType, b) (by simp [hbackends])

/-- What is not handled leaves nothing to write. -/
lemma resultOf_eq_none_iff {profileId : Option CodeText} {r : Except Failure Found} :
    resultOf site profileId m r = none ↔ ¬Handled r := by
  cases r with
  | error f => cases f <;> simp [resultOf, Handled]
  | ok found => simp [resultOf, Handled]

lemma backend_of_asked {profileId : Option CodeText} (h : asked site profileId = some (m, b)) :
    backend m = some b := by
  obtain ⟨id, -, h⟩ := Option.bind_eq_some_iff.mp h
  obtain ⟨m', -, h⟩ := Option.bind_eq_some_iff.mp h
  obtain ⟨b', hb, h⟩ := Option.bind_eq_some_iff.mp h
  obtain ⟨rfl, rfl⟩ := Prod.mk.inj (Option.some.inj h)
  exact hb

/-- What is needed is needed for finding something and for recording it. -/
lemma answerable_iff :
    Answerable F site sim m b ↔ Handled (check F site sim m b) ∧ Recordable site sim ∧
      (∀ a text, Answers site.toSearchEnv site.alertsPeer m b.index a →
        Refuses F site.toSearchEnv a text → CodeText.encodable (text.take 200) = true) ∧
      ∀ v, Finds site.toSearchEnv site.alertsPeer m b.index v →
        (∀ c ∈ countsOf F site.toAnswerEnv (question F site sim m b).toAsked v,
          c.integer?.isSome = true) →
        PyJson.fewDigits
          (integers (countsOf F site.toAnswerEnv (question F site sim m b).toAsked v)) = true := by
  simp only [check_handled, ingestion_handled]
  constructor
  · intro h
    refine ⟨⟨h.search, fun v hv => ⟨h.answer v hv, fun index hindex => ?_⟩⟩, h.recordable,
      h.refused, h.total⟩
    exact ⟨h.eventsSearch v hv index hindex, h.events v hv index hindex⟩
  · rintro ⟨⟨hsearch, hanswer⟩, hrecordable, hrefused, htotal⟩
    exact
      { search := hsearch
        answer := fun v hv => (hanswer v hv).1
        eventsSearch := fun v hv index hindex => ((hanswer v hv).2 index hindex).1
        events := fun v hv index hindex => ((hanswer v hv).2 index hindex).2
        recordable := hrecordable
        refused := hrefused
        total := htotal }

/-- **When a check comes to a result**: exactly if there is no manager to be asked, or the address,
the other ends, the answers and the entry in the audit log are as in `Answerable`. -/
theorem check_ends_iff (managerProfileId : Option CodeText) :
    Ends sim (runDetectionCheck F site sim managerProfileId) ↔
      ∀ m b, asked site (profileOf sim managerProfileId) = some (m, b) →
        Answerable F site sim m b := by
  rw [runDetectionCheck]
  cases hasked : asked site (profileOf sim managerProfileId) with
  | none =>
    refine iff_of_true ⟨rfl, .inr ?_, rfl⟩ fun m b h => by cases h
    refine JsonEntries.lookup_merge_cons ?_
    show lit "status" ∉ [lit "manager_profile_id", lit "error"]
    decide
  | some mb =>
    obtain ⟨m, b⟩ := mb
    have hsiem := encodable_siemType (backend_of_asked hasked)
    have hone : (∀ m' b', some (m, b) = some (m', b') → Answerable F site sim m' b') ↔
        Answerable F site sim m b := by
      constructor
      · exact fun h => h m b rfl
      · rintro h m' b' hsame
        cases hsame
        exact h
    rw [hone, answerable_iff]
    dsimp only
    cases hresult : resultOf site (profileOf sim managerProfileId) m (check F site sim m b) with
    | none =>
      have hfails := resultOf_eq_none_iff.mp hresult
      exact iff_of_false (fun h => Bool.false_ne_true h.returns) fun h => hfails h.1
    | some found =>
      obtain ⟨values, n⟩ := found
      have hhandled : Handled (check F site sim m b) := by
        by_contra hfails
        rw [resultOf_eq_none_iff.mpr hfails] at hresult
        cases hresult
      rw [and_iff_right hhandled, ← recorded_iff hsiem hresult]
      constructor
      · exact fun h => by simpa using h.returns
      · exact fun h => ⟨by simpa using h, resultOf_status hresult _, rfl⟩

end Check

/-! ## A check that comes to no result -/

instance : DecidablePred zeroText.isFloat := fun q => inferInstanceAs (Decidable (q = 0))

/-- `http://siem:9200`, taken apart. -/
def plainUrl : SearchUrl where
  scheme := "http".toList
  netloc := "siem:9200".toList
  path := []
  hostname := some "siem".toList
  query := []
  fragment := []
  username := none
  port := .ok (some 9200)

def wazuhManager : Manager where
  name := lit "lab"
  siemType := lit "wazuh"
  detectionUrl := some "http://siem:9200".toList
  detectionFingerprint := none

/-- A SIEM that cannot be reached. -/
def refusing : Peer where
  connect := .error ⟨.os, "[Errno 111] Connection refused".toList⟩
  presentedAgain := .error ⟨.os, "[Errno 111] Connection refused".toList⟩
  answer := fun _ => .error ⟨.os, "[Errno 111] Connection refused".toList⟩

/-- A SIEM that answers every request with an empty list. -/
def listing : Peer where
  connect := .ok []
  presentedAgain := .ok []
  answer := fun _ => .ok (200, [0x5b, 0x5d])

def labSite (peer : Peer) : Site Unit where
  loads := fun bytes =>
    match JsonScan.loads zeroText ⟨900, fun _ => true⟩ (bytes.map UInt8.toNat) with
    | .ok v => .ok v
    | .error _ => .error ⟨.value, []⟩
  urlsplit := fun _ => .ok plainUrl
  printables := Import.asciiPrintables
  depth := 900
  lower := fun t => t.map fun c => if 65 ≤ c ∧ c ≤ 90 then c + 32 else c
  isDecimal := JsonText.isDigit
  fromisoformat := fun _ => some ⟨some 0, 0⟩
  fromMillis := fun _ => none
  isoformat := fun _ => lit "1970-01-01T00:00:00+00:00"
  nearest := id
  roundTenth := fun q => ((q * 10 + 1 / 2).floor : ℚ) / 10
  toFloat := fun n => some (.finite n)
  addFloat := fun x _ => x
  profiles := fun id => if id = lit "lab" then some wazuhManager else none
  now := ⟨some 0, 0⟩
  checkedAt := lit "1970-01-01T00:10:00+00:00"
  alertsPeer := peer
  eventsPeer := peer
  audit := AuditLog.sampleEnv
  server := textLog
  limits := { stored := 900, logged := 900 }
  log := .empty
  ctx := none
  ts := "1970-01-01T00:10:00+00:00".toList
  time := "1970-01-01 00:10:00,000".toList

def labSimulation : Simulation where
  id := "sim-1".toList
  profileId := some (lit "auth_bruteforce")
  targetAgents := [lit "web-1"]
  startedAt := some (lit "1970-01-01T00:00:00+00:00")
  detection := [(lit "status", .str (lit "waiting")), (lit "manager_profile_id", .str (lit "lab"))]
  others := [(lit "status", .str (lit "completed"))]

/-- Refused connections in the clear and answers that are no objects end a check without a result,
and its simulation stays marked as being checked. -/
theorem mark_stays :
    ¬Ends labSimulation (runDetectionCheck zeroText (labSite refusing) labSimulation none) ∧
      ¬Ends labSimulation (runDetectionCheck zeroText (labSite listing) labSimulation none) ∧
      (runDetectionCheck zeroText (labSite refusing) labSimulation none).sim.detection.lookup
          (lit "status") = some (.str (lit "checking")) ∧
      (runDetectionCheck zeroText (labSite listing) labSimulation none).sim.detection.lookup
          (lit "status") = some (.str (lit "checking")) := by
  have hrefusing : (runDetectionCheck zeroText (labSite refusing) labSimulation none).result =
      none := rfl
  have hlisting : (runDetectionCheck zeroText (labSite listing) labSimulation none).result =
      none := rfl
  refine ⟨fun h => ?_, fun h => ?_, rfl, rfl⟩
  · have hreturns := h.returns
    rw [hrefusing] at hreturns
    cases hreturns
  · have hreturns := h.returns
    rw [hlisting] at hreturns
    cases hreturns

end Habeny.Simulations.Answer
