import Habeny.Reports.Report
import Habeny.Requests.Isolation

/-!
# What a team's reader can find out

The answers that a user who is no administrator gets: the containers and their totals, the groups,
the simulations, the log schedules, the reports, and a new report.  They are compared in two
systems that differ only in what is other teams' (`SameFor`).

The lists and the counts are the same in both.  Two things are not: a new report counts the
simulations of every team, and a listing fails where a row of another team has a number that a
container of the user's own is about to get.  `answers_same_iff` says exactly when all answers
agree.
-/

namespace Habeny.Reports

open Habeny.Lib Habeny.Auth Habeny.Tenancy Habeny.Agents

/-! ## The system -/

structure GroupRow where
  name : Text
  description : Option Text
  createdAt : Text
  updatedAt : Text

/-- What a list of reports reads of one. -/
structure StoredReport where
  teamId : Option ℕ
  generatedAt : Option Text
  timeRange : Option (Text × Text)

/-- Everything that the endpoints read.  The metrics are `none` when they cannot be read. -/
structure System where
  table : Table
  groups : List GroupRow
  groups_iff : ∀ g, table.store.groups g = true ↔ g ∈ groups.map GroupRow.name
  containers : List Text
  nodup : containers.Nodup
  container : Text → Container
  scan : Option Scan
  profiles : List Text
  simulations : List Simulation
  schedules : List (Text × Logs.Schedule)
  reports : List (Text × StoredReport)
  /-- The formats of the files of a report. -/
  reportFiles : Text → List Text
  metrics : Option (List MetricRow)

def System.owners (s : System) : Owners := s.table.store.owners

/-- The body of an answer. -/
structure ApiResponse (α : Type) where
  success : Bool
  message : Text
  data : Option α
  error : Option Text

def succeed {α : Type} (message : Text) (data : α) : ApiResponse α :=
  { success := true, message, data := some data, error := none }

def failed {α : Type} (message error : Text) : ApiResponse α :=
  { success := false, message, data := none, error := some error }

/-! ## The endpoints -/

variable (rt : Runtime) (s : System) (user : Option User)

/-- The containers that a user can see. -/
def System.seen : List Text := visible s.owners user s.containers

structure ContainerPage where
  agents : List (AgentInfo × Option ℕ)
  total : ℕ
  limit : ℕ
  offset : ℕ
  hasMore : Bool

/-- Whether a container meets the filters of a listing. -/
def agentMatches (q : Requests.ListQuery) (info : AgentInfo) : Bool :=
  Requests.filterMet q.siemType (info.field .siemType) &&
    Requests.filterMet q.status (info.field .lifecycleStatus) &&
    Requests.filterMet q.agentGroup (info.field .agentGroup)

/-- A page of what was read, with the teams of the containers. -/
def pageOf (owners : Owners) (q : Requests.ListQuery) (infos : List AgentInfo) : ContainerPage :=
  let all := (infos.map fun info => (info, owners.teamOf info.agentName)).filter
    fun row => agentMatches q row.1
  { agents := (all.drop q.offset).take q.limit
    total := all.length
    limit := q.limit
    offset := q.offset
    hasMore := decide (q.offset + q.limit < all.length) }

def listAgents (q : Requests.ListQuery) (now : Text) : ApiResponse ContainerPage :=
  match getAgentInfos rt.lower s.container now (s.seen user) s.table with
  | .error e => failed "Failed to list containers".toList e
  | .ok (infos, _) =>
    let page := pageOf s.owners q infos
    succeed ("Retrieved ".toList ++ number page.agents.length ++ " containers".toList) page

structure StatsData where
  counts : Counts
  timestamp : Text

def getAgentsStats (time : ℚ) (now : Text) : ApiResponse StatsData :=
  let scan := containerStateSummary s.scan s.containers s.container time
  let only := if isUnrestricted user then none else some (s.seen user)
  succeed "Container statistics retrieved".toList
    { counts := containerCounts s.table.store scan s.container only, timestamp := now }

/-- The containers that the rows put into a group. -/
def System.agentsInGroup (group : Text) : List Text :=
  s.table.known.dedup.filter fun n => decide (InGroup s.table.store group n)

/-- `list_groups` -/
def System.listGroups : List (GroupRow × ℕ) :=
  s.groups.map fun g => (g, (s.agentsInGroup g.name).length)

/-- Group counts with only the containers that a user can see. -/
def visibleMembers (groups : List (GroupRow × ℕ)) : List (GroupRow × ℕ) :=
  groups.map fun g => (g.1, (visible s.owners user (s.agentsInGroup g.1.name)).length)

def listAgentGroups : ApiResponse (List (GroupRow × ℕ)) :=
  succeed "Groups retrieved".toList
    (if isUnrestricted user then s.listGroups else visibleMembers s user s.listGroups)

structure SimulationPage where
  simulations : List Simulation
  total : ℕ
  running : ℕ
  availableProfiles : List Text

/-- The simulations of a user's team. -/
def System.simulationsOf : List Simulation :=
  s.simulations.filter fun sim => sameTeam user sim.teamId

def listSimulations : ApiResponse SimulationPage :=
  let sims := s.simulationsOf user
  succeed "Simulations retrieved".toList
    { simulations := sims
      total := sims.length
      running := sims.countP fun sim => decide (sim.status = "running".toList)
      availableProfiles := s.profiles }

/-- A schedule without its task and its request. -/
structure PublicSchedule where
  scheduleId : Text
  agentId : Text
  intervalSeconds : ℤ
  durationSeconds : Option ℤ
  indefinite : Bool
  status : Logs.ScheduleStatus
  createdAt : ℤ
  statusBeforeRestart : Option Logs.ScheduleStatus
  lastRun : Option ℤ
  runs : ℕ
  lastError : Option Text
  error : Option Text
  resumedAt : Option ℤ
  resumes : ℕ
  completedNote : Option Text

def schedulePublic (id : Text) (r : Logs.Schedule) : PublicSchedule where
  scheduleId := id
  agentId := r.agentId
  intervalSeconds := r.intervalSeconds
  durationSeconds := r.durationSeconds
  indefinite := r.indefinite
  status := r.status
  createdAt := r.createdAt
  statusBeforeRestart := r.statusBeforeRestart
  lastRun := r.lastRun
  runs := r.runs
  lastError := r.lastError
  error := r.error
  resumedAt := r.resumedAt
  resumes := r.resumes
  completedNote := r.completedNote

def listLogSchedules : ApiResponse (List PublicSchedule) :=
  let allowed := visible s.owners user (s.schedules.map fun r => r.2.agentId)
  succeed "Log schedules retrieved".toList
    ((s.schedules.filter fun r => decide (r.2.agentId ∈ allowed)).map
      fun r => schedulePublic r.1 r.2)

structure ReportRow where
  reportId : Text
  generatedAt : Option Text
  timeRange : Option (Text × Text)
  formats : List Text

def reportRow (id : Text) (r : StoredReport) (files : List Text) : ReportRow :=
  let formats := files.insertionSort (· ≤ ·)
  { reportId := id, generatedAt := r.generatedAt, timeRange := r.timeRange
    formats := if formats.isEmpty then ["json".toList] else formats }

/-- Newest first. -/
def newerFirst (a b : ReportRow) : Bool := decide (b.generatedAt.getD [] ≤ a.generatedAt.getD [])

def listReports : ApiResponse (List ReportRow) :=
  let rows := (s.reports.filter fun r => sameTeam user r.2.teamId).map
    fun r => reportRow r.1 r.2 (s.reportFiles r.1)
  succeed (number rows.length ++ " reports".toList)
    (rows.insertionSort fun a b => newerFirst a b = true)

/-- A request for a report. -/
structure ReportRequest where
  startTime : Datetime
  endTime : Datetime
  format : Text

structure NewReport where
  reportId : Text
  report : Report
  format : Text
  downloadUrl : Text

def outOfRange : Text := "date value out of range".toList

/-- The times of a request. -/
def ReportRequest.times (req : ReportRequest) : Except Text (ℤ × ℤ) :=
  match normalizeDt req.startTime, normalizeDt req.endTime with
  | some start, some finish => .ok (start, finish)
  | _, _ => .error outOfRange

/-- The format of a download. -/
def downloadFormat (requested : Text) : Text :=
  if requested = "csv".toList ∨ requested = "pdf".toList then requested else "json".toList

/-- Make a report; what it stores is left out. -/
def generateReport (req : ReportRequest) (reportId now : Text) : ApiResponse NewReport :=
  let containers := s.seen user
  let made : Except Text Report := do
    let (infos, _) ← getAgentInfos rt.lower s.container now containers s.table
    let (start, finish) ← req.times
    return buildReport rt user reportId now start finish containers infos s.simulations s.metrics
  match made with
  | .error e => failed "Failed to generate report".toList e
  | .ok report =>
    let format := rt.lower (if req.format.isEmpty then "json".toList else req.format)
    succeed "Report generated successfully".toList
      { reportId, report, format
        downloadUrl := "/reports/".toList ++ reportId ++ "/download?format=".toList
          ++ downloadFormat format }

/-! ## Questions and answers -/

/-- What a user may ask for. -/
inductive Question where
  | containers (q : Requests.ListQuery) (now : Text)
  | statistics (time : ℚ) (now : Text)
  | groups
  | simulations
  | schedules
  | reports
  | newReport (req : ReportRequest) (reportId now : Text)

inductive Reply where
  | containers (a : ApiResponse ContainerPage)
  | statistics (a : ApiResponse StatsData)
  | groups (a : ApiResponse (List (GroupRow × ℕ)))
  | simulations (a : ApiResponse SimulationPage)
  | schedules (a : ApiResponse (List PublicSchedule))
  | reports (a : ApiResponse (List ReportRow))
  | newReport (a : ApiResponse NewReport)

def answer : Question → Reply
  | .containers q now => .containers (listAgents rt s user q now)
  | .statistics time now => .statistics (getAgentsStats s user time now)
  | .groups => .groups (listAgentGroups s user)
  | .simulations => .simulations (listSimulations s user)
  | .schedules => .schedules (listLogSchedules s user)
  | .reports => .reports (listReports s user)
  | .newReport req reportId now => .newReport (generateReport rt s user req reportId now)

/-! ## Two systems -/

/-- The row of a container that a user can see. -/
def System.rowFor (n : Text) : Option Row :=
  if canSee s.owners user n then s.table.store.rows n else none

/-- The log schedules for containers that a user can see. -/
def System.schedulesOf : List (Text × Logs.Schedule) :=
  s.schedules.filter fun r => canSee s.owners user r.2.agentId

/-- The reports of a user's team, with their files. -/
def System.reportsOf : List (Text × StoredReport × List Text) :=
  (s.reports.filter fun r => sameTeam user r.2.teamId).map fun r => (r.1, r.2, s.reportFiles r.1)

/-- Two systems differ only in what is other teams': their containers with their owners, rows and
groups, their simulations, schedules and reports. -/
structure SameFor (user : Option User) (s t : System) : Prop where
  seen : t.seen user = s.seen user
  container : ∀ n ∈ s.seen user, t.container n = s.container n
  scanTaken : t.scan.map Scan.takenAt = s.scan.map Scan.takenAt
  scanned : ∀ n ∈ s.seen user,
    t.scan.bind (fun scan => scan.states n) = s.scan.bind fun scan => scan.states n
  rows : ∀ n, t.rowFor user n = s.rowFor user n
  groups : t.groups = s.groups
  profiles : t.profiles = s.profiles
  simulations : t.simulationsOf user = s.simulationsOf user
  schedules : t.schedulesOf user = s.schedulesOf user
  reports : t.reportsOf user = s.reportsOf user
  metrics : t.metrics = s.metrics

/-- The simulations of other teams. -/
def System.othersSimulations : List Simulation :=
  s.simulations.filter fun sim => !sameTeam user sim.teamId

/-- A container that a user can see and that has no row yet gets a number that no row has. -/
def System.NumbersFree : Prop :=
  Reports.NumbersFree s.table (newcomers s.container s.table (s.seen user)).length

/-- No status file of a container that a user can see is JSON of another type than an object. -/
def System.Readable : Prop := ∀ n ∈ s.seen user, (s.container n).readable = true

/-- Where the answers of two systems agree: either both have the numbers that a listing takes, or
neither; and if a listing does not fail, then other teams have as many simulations in both, with as
many events and as many completed ones if the metrics can be read. -/
def Agree (user : Option User) (s t : System) : Prop :=
  (s.NumbersFree user ↔ t.NumbersFree user) ∧
    (s.NumbersFree user → s.Readable user →
      (s.othersSimulations user).length = (t.othersSimulations user).length ∧
      (s.metrics.isSome = true →
        totalEvents (s.othersSimulations user) = totalEvents (t.othersSimulations user) ∧
        completedSimulations (s.othersSimulations user)
          = completedSimulations (t.othersSimulations user)))

/-! ## The answers one by one -/

section Same

variable {rt s user} {t : System}

lemma System.nodup_seen (s : System) (user : Option User) : (s.seen user).Nodup := by
  unfold System.seen visible
  split_ifs
  · exact s.nodup
  · exact s.nodup.filter _

/-- What a listing reads, without what it writes. -/
def System.infos (rt : Runtime) (s : System) (user : Option User) (now : Text) :
    Except Text (List AgentInfo) :=
  (getAgentInfos rt.lower s.container now (s.seen user) s.table).map Prod.fst

lemma infos_of_free (now : Text) (h : s.NumbersFree user) :
    s.infos rt user now = readInfos rt.lower s.container s.table (s.seen user) := by
  obtain ⟨t', hinfos⟩ : ∃ t', getAgentInfos rt.lower s.container now (s.seen user) s.table =
      (readInfos rt.lower s.container s.table (s.seen user)).map (·, t') :=
    getAgentInfos_of_free (s.nodup_seen user) h
  rw [System.infos, hinfos]
  cases readInfos rt.lower s.container s.table (s.seen user) <;> rfl

lemma infos_of_not_free (now : Text) (h : ¬s.NumbersFree user) :
    s.infos rt user now = .error uniqueFailed := by
  rw [System.infos, getAgentInfos_of_not_free (s.nodup_seen user) h]
  rfl

/-- The containers of a user's team have the same rows. -/
lemma SameFor.row (h : SameFor user s t) {n : Text} (hn : n ∈ s.seen user) :
    t.table.store.rows n = s.table.store.rows n := by
  have hrow := h.rows n
  have hsees : canSee s.owners user n = true := (Requests.mem_visible.mp hn).2
  have hsees' : canSee t.owners user n = true := by
    rw [← h.seen] at hn
    exact (Requests.mem_visible.mp hn).2
  rwa [System.rowFor, System.rowFor, if_pos hsees, if_pos hsees'] at hrow

lemma SameFor.readInfos (h : SameFor user s t) (lower : Text → Text) :
    readInfos lower t.container t.table (t.seen user)
      = readInfos lower s.container s.table (s.seen user) := by
  rw [h.seen]
  exact readInfos_congr h.container fun n hn => h.row hn

lemma SameFor.infos (h : SameFor user s t) (hfree : s.NumbersFree user ↔ t.NumbersFree user)
    (now : Text) : t.infos rt user now = s.infos rt user now := by
  by_cases hs : s.NumbersFree user
  · rw [infos_of_free now hs, infos_of_free now (hfree.mp hs), h.readInfos]
  · rw [infos_of_not_free now hs, infos_of_not_free now fun ht => hs (hfree.mpr ht)]

/-- What is read is about containers of the user's team. -/
lemma teamOf_of_mem_infos (hrestricted : isUnrestricted user = false) {now : Text}
    {infos : List AgentInfo} (h : s.infos rt user now = .ok infos) :
    ∀ info ∈ infos, s.owners.teamOf info.agentName = teamOf user := by
  by_cases hfree : s.NumbersFree user
  · rw [infos_of_free now hfree] at h
    intro info hinfo
    have hmem := List.mem_map_of_mem (f := AgentInfo.agentName) hinfo
    rw [readInfos_agentName h] at hmem
    have hsees := (Requests.mem_visible.mp hmem).2
    rw [Requests.canSee_iff, hrestricted] at hsees
    simpa using hsees
  · rw [infos_of_not_free now hfree] at h
    exact absurd h nofun

lemma listAgents_eq (q : Requests.ListQuery) (now : Text) : listAgents rt s user q now =
    match s.infos rt user now with
    | .error e => failed "Failed to list containers".toList e
    | .ok infos => succeed ("Retrieved ".toList
        ++ number (pageOf s.owners q infos).agents.length ++ " containers".toList)
        (pageOf s.owners q infos) := by
  unfold listAgents System.infos
  cases getAgentInfos rt.lower s.container now (s.seen user) s.table <;> rfl

lemma SameFor.listAgents (h : SameFor user s t) (hrestricted : isUnrestricted user = false)
    (hfree : s.NumbersFree user ↔ t.NumbersFree user) (q : Requests.ListQuery) (now : Text) :
    listAgents rt t user q now = listAgents rt s user q now := by
  rw [listAgents_eq, listAgents_eq, h.infos hfree]
  cases hinfos : s.infos rt user now with
  | error e => rfl
  | ok infos =>
    have hpage : pageOf t.owners q infos = pageOf s.owners q infos := by
      have hrows : infos.map (fun info => (info, t.owners.teamOf info.agentName))
          = infos.map fun info => (info, s.owners.teamOf info.agentName) := by
        refine List.map_congr_left fun info hinfo => ?_
        rw [teamOf_of_mem_infos hrestricted hinfos info hinfo,
          teamOf_of_mem_infos hrestricted ((h.infos hfree now).trans hinfos) info hinfo]
      simp only [pageOf, hrows]
    dsimp only
    rw [hpage]

/-- The state of a container that is counted. -/
lemma SameFor.scanState (h : SameFor user s t) (time : ℚ) {n : Text} (hn : n ∈ s.seen user) :
    ((containerStateSummary t.scan t.containers t.container time).states n).getD
        (t.container n).state
      = ((containerStateSummary s.scan s.containers s.container time).states n).getD
        (s.container n).state := by
  have hin : n ∈ s.containers := (Requests.mem_visible.mp hn).1
  have hin' : n ∈ t.containers := by
    rw [← h.seen] at hn
    exact (Requests.mem_visible.mp hn).1
  have hstates := h.scanned n hn
  have htaken := h.scanTaken
  unfold containerStateSummary
  rw [h.container n hn]
  cases hs : s.scan with
  | none =>
    rw [hs, Option.map_none, Option.map_eq_none_iff] at htaken
    simp [htaken, hin, hin', h.container n hn]
  | some scan =>
    rw [hs, Option.map_some] at htaken
    obtain ⟨scan', hscan', htaken⟩ := Option.map_eq_some_iff.mp htaken
    rw [hs, hscan', Option.bind_some, Option.bind_some] at hstates
    simp only [hscan', htaken]
    split_ifs
    · rw [hstates]
    · simp [hin, hin', h.container n hn]

lemma SameFor.getAgentsStats (h : SameFor user s t) (hrestricted : isUnrestricted user = false)
    (time : ℚ) (now : Text) : getAgentsStats t user time now = getAgentsStats s user time now := by
  have hrunning : (s.seen user).countP (fun n => decide
      (((containerStateSummary t.scan t.containers t.container time).states n).getD
        (t.container n).state ≠ "STOPPED".toList))
      = (s.seen user).countP fun n => decide
      (((containerStateSummary s.scan s.containers s.container time).states n).getD
        (s.container n).state ≠ "STOPPED".toList) :=
    List.countP_congr fun n hn => by rw [h.scanState time hn]
  have hsiems : (s.seen user).map (fun n =>
      textOr ((t.table.store.rows n).map (Row.field · .siemType)) "unknown".toList)
      = (s.seen user).map fun n =>
      textOr ((s.table.store.rows n).map (Row.field · .siemType)) "unknown".toList :=
    List.map_congr_left fun n hn => by rw [h.row hn]
  simp only [Reports.getAgentsStats, hrestricted, Bool.false_eq_true, if_false, containerCounts,
    Option.getD_some, h.seen, hrunning, hsiems]

/-- Whether a user sees a container that a group has depends on the containers the user sees. -/
lemma mem_visible_agentsInGroup {group n : Text} :
    n ∈ visible s.owners user (s.agentsInGroup group) ↔
      ∃ row ∈ s.rowFor user n, row.field .agentGroup = .text group ∧ row.isLive = true := by
  rw [Requests.mem_visible, System.agentsInGroup, List.mem_filter, List.mem_dedup,
    decide_eq_true_iff, System.rowFor]
  constructor
  · rintro ⟨⟨-, hgroup⟩, hsees⟩
    rw [if_pos hsees]
    exact hgroup
  · intro h
    split_ifs at h with hsees
    · refine ⟨⟨s.table.covers n ?_, h⟩, hsees⟩
      obtain ⟨row, hrow, -⟩ := h
      rw [Option.mem_def.mp hrow]
      rfl
    · obtain ⟨row, hrow, -⟩ := h
      exact absurd hrow (by simp)

lemma nodup_visible_agentsInGroup (s : System) (user : Option User) (group : Text) :
    (visible s.owners user (s.agentsInGroup group)).Nodup := by
  have hnodup : (s.agentsInGroup group).Nodup := (List.nodup_dedup _).filter _
  unfold visible
  split_ifs
  · exact hnodup
  · exact hnodup.filter _

lemma SameFor.listAgentGroups (h : SameFor user s t)
    (hrestricted : isUnrestricted user = false) :
    listAgentGroups t user = listAgentGroups s user := by
  have hlength : ∀ group, (visible t.owners user (t.agentsInGroup group)).length
      = (visible s.owners user (s.agentsInGroup group)).length := by
    intro group
    refine ((List.perm_ext_iff_of_nodup (nodup_visible_agentsInGroup t user group)
      (nodup_visible_agentsInGroup s user group)).mpr fun n => ?_).length_eq
    rw [mem_visible_agentsInGroup, mem_visible_agentsInGroup, h.rows]
  simp only [Reports.listAgentGroups, hrestricted, Bool.false_eq_true, if_false, visibleMembers,
    System.listGroups, h.groups, List.map_map, Function.comp_def, hlength]

lemma SameFor.listSimulations (h : SameFor user s t) :
    listSimulations t user = listSimulations s user := by
  simp only [Reports.listSimulations, h.simulations, h.profiles]

/-- The schedules that are listed are those of the containers that the user sees. -/
lemma listLogSchedules_eq (s : System) (user : Option User) : listLogSchedules s user =
    succeed "Log schedules retrieved".toList
      ((s.schedulesOf user).map fun r => schedulePublic r.1 r.2) := by
  unfold listLogSchedules System.schedulesOf
  dsimp only
  congr 2
  refine List.filter_congr fun r hr => ?_
  rw [Bool.eq_iff_iff, decide_eq_true_iff, Requests.mem_visible]
  exact and_iff_right (List.mem_map_of_mem hr)

lemma SameFor.listLogSchedules (h : SameFor user s t) :
    listLogSchedules t user = listLogSchedules s user := by
  rw [listLogSchedules_eq, listLogSchedules_eq, h.schedules]

lemma SameFor.listReports (h : SameFor user s t) : listReports t user = listReports s user := by
  have hrows : ∀ s : System, ((s.reports.filter fun r => sameTeam user r.2.teamId).map
      fun r => reportRow r.1 r.2 (s.reportFiles r.1))
      = (s.reportsOf user).map fun r => reportRow r.1 r.2.1 r.2.2 := by
    intro s
    rw [System.reportsOf, List.map_map]
    rfl
  simp only [Reports.listReports, hrows, h.reports]

/-! ## A new report -/

/-- The simulations of other teams are passed over. -/
lemma gatherAll_eq (start finish : ℤ) (sims : List Simulation) :
    gatherAll rt user start finish sims =
      (sims.filter fun sim => sameTeam user sim.teamId).foldl (gather rt start finish)
        { inRange := [], detections := [], byType := .empty, syslogTargets := .empty } :=
  (List.foldl_filter ..).symm

lemma totalEvents_eq (p : Simulation → Bool) (sims : List Simulation) :
    totalEvents sims = totalEvents (sims.filter p) + totalEvents (sims.filter fun sim => !p sim) := by
  induction sims with
  | nil => rfl
  | cons sim sims ih =>
    simp only [totalEvents] at ih
    cases hp : p sim <;> simp [totalEvents, hp, ih] <;> omega

lemma completedSimulations_eq (p : Simulation → Bool) (sims : List Simulation) :
    completedSimulations sims =
      completedSimulations (sims.filter p) + completedSimulations (sims.filter fun sim => !p sim) :=
  List.countP_eq_countP_filter_add ..

/-- What a report has of the simulations of other teams: how many they are, and their figures. -/
lemma buildReport_eq_iff (rt : Runtime) (hsims : t.simulationsOf user = s.simulationsOf user)
    (hmetrics : t.metrics = s.metrics) (reportId now : Text) (start finish : ℤ)
    (containers : List Text) (infos : List AgentInfo) :
    buildReport rt user reportId now start finish containers infos s.simulations s.metrics
        = buildReport rt user reportId now start finish containers infos t.simulations t.metrics ↔
      (s.othersSimulations user).length = (t.othersSimulations user).length ∧
        (s.metrics.isSome = true →
          totalEvents (s.othersSimulations user) = totalEvents (t.othersSimulations user) ∧
          completedSimulations (s.othersSimulations user)
            = completedSimulations (t.othersSimulations user)) := by
  have hlength : ∀ s : System, s.simulations.length
      = (s.simulationsOf user).length + (s.othersSimulations user).length :=
    fun s => List.length_eq_length_filter_add _
  have hevents : ∀ s : System, totalEvents s.simulations
      = totalEvents (s.simulationsOf user) + totalEvents (s.othersSimulations user) :=
    fun s => totalEvents_eq _ _
  have hcompleted : ∀ s : System, completedSimulations s.simulations
      = completedSimulations (s.simulationsOf user)
        + completedSimulations (s.othersSimulations user) :=
    fun s => completedSimulations_eq _ _
  have hgathered : gatherAll rt user start finish t.simulations
      = gatherAll rt user start finish s.simulations := by
    rw [gatherAll_eq, gatherAll_eq]
    exact congrArg _ hsims
  rw [hmetrics]
  constructor
  · intro h
    have htotal : s.simulations.length = t.simulations.length :=
      congrArg (fun r => r.summary.totalSimulations) h
    rw [hlength s, hlength t, hsims] at htotal
    refine ⟨Nat.add_left_cancel htotal, fun hsome => ?_⟩
    obtain ⟨rows, hrows⟩ := Option.isSome_iff_exists.mp hsome
    have hfigures := congrArg Report.metrics h
    simp only [buildReport, buildReportMetrics, hrows, Option.map_some, Option.some.injEq,
      ReportMetrics.mk.injEq, true_and] at hfigures
    rw [hevents s, hevents t, hcompleted s, hcompleted t, hsims] at hfigures
    exact ⟨Nat.add_left_cancel hfigures.1, Nat.add_left_cancel hfigures.2⟩
  · rintro ⟨hcount, hfigures⟩
    have htotal : s.simulations.length = t.simulations.length := by
      rw [hlength s, hlength t, hsims, hcount]
    have hsame : ∀ since, buildReportMetrics rt s.metrics s.simulations since
        = buildReportMetrics rt s.metrics t.simulations since := by
      intro since
      cases hrows : s.metrics with
      | none => rfl
      | some rows =>
        obtain ⟨hsum, hdone⟩ := hfigures (by rw [hrows]; rfl)
        simp only [buildReportMetrics, Option.map_some, hevents, hcompleted, hsims, hsum, hdone]
    simp only [buildReport, hgathered, htotal, hsame]

/-- The report that a request makes. -/
def made (rt : Runtime) (s : System) (user : Option User) (req : ReportRequest)
    (reportId now : Text) : Except Text Report := do
  let infos ← s.infos rt user now
  let (start, finish) ← req.times
  return buildReport rt user reportId now start finish (s.seen user) infos s.simulations s.metrics

lemma generateReport_eq (req : ReportRequest) (reportId now : Text) :
    generateReport rt s user req reportId now =
      match made rt s user req reportId now with
      | .error e => failed "Failed to generate report".toList e
      | .ok report =>
        let format := rt.lower (if req.format.isEmpty then "json".toList else req.format)
        succeed "Report generated successfully".toList
          { reportId, report, format
            downloadUrl := "/reports/".toList ++ reportId ++ "/download?format=".toList
              ++ downloadFormat format } := by
  unfold generateReport made System.infos
  dsimp only
  cases getAgentInfos rt.lower s.container now (s.seen user) s.table <;> rfl

lemma SameFor.made (h : SameFor user s t) (hagree : Agree user s t) (req : ReportRequest)
    (reportId now : Text) :
    made rt t user req reportId now = made rt s user req reportId now := by
  unfold Reports.made
  rw [h.infos hagree.1, h.seen]
  cases hinfos : s.infos rt user now with
  | error e => rfl
  | ok infos =>
    by_cases hfree : s.NumbersFree user
    · have hreadable : s.Readable user := by
        rw [infos_of_free now hfree] at hinfos
        refine (readInfos_isOk rt.lower s.container s.table (s.seen user)).mp ?_
        rw [hinfos]
        rfl
      cases htimes : req.times with
      | error e => rfl
      | ok times =>
        have hsame := (buildReport_eq_iff rt h.simulations h.metrics reportId now times.1
          times.2 (s.seen user) infos).mpr (hagree.2 hfree hreadable)
        exact congrArg Except.ok hsame.symm
    · rw [infos_of_not_free now hfree] at hinfos
      exact absurd hinfos nofun

lemma SameFor.answer (h : SameFor user s t) (hrestricted : isUnrestricted user = false)
    (hagree : Agree user s t) (q : Question) : answer rt t user q = answer rt s user q := by
  cases q with
  | containers q now => exact congrArg _ (h.listAgents hrestricted hagree.1 q now)
  | statistics time now => exact congrArg _ (h.getAgentsStats hrestricted time now)
  | groups => exact congrArg _ (h.listAgentGroups hrestricted)
  | simulations => exact congrArg _ h.listSimulations
  | schedules => exact congrArg _ h.listLogSchedules
  | reports => exact congrArg _ h.listReports
  | newReport req reportId now =>
    simp only [Reports.answer, generateReport_eq, h.made hagree]

/-! ## What the answers tell -/

/-- A listing that takes no numbers of other rows does not say that a number is taken. -/
lemma listAgents_tells (rt : Runtime) (s : System) (user : Option User) (q : Requests.ListQuery) (now : Text) :
    (listAgents rt s user q now).error = some uniqueFailed ↔ ¬s.NumbersFree user := by
  rw [listAgents_eq]
  by_cases hfree : s.NumbersFree user
  · rw [infos_of_free now hfree]
    have hne := readInfos_ne rt.lower s.container s.table (s.seen user)
    cases hinfos : readInfos rt.lower s.container s.table (s.seen user) with
    | error e =>
      rw [hinfos] at hne
      refine iff_of_false (fun h => hne ?_) (not_not_intro hfree)
      exact congrArg _ (Option.some.inj h)
    | ok infos => exact iff_of_false nofun (not_not_intro hfree)
  · rw [infos_of_not_free now hfree]
    exact iff_of_true rfl hfree

lemma made_of_readable (rt : Runtime) (hfree : s.NumbersFree user) (hreadable : s.Readable user)
    {req : ReportRequest} {start finish : ℤ}
    (htimes : req.times = .ok (start, finish)) (reportId now : Text) : ∃ infos, s.infos rt user now = .ok infos ∧
      made rt s user req reportId now = .ok (buildReport rt user reportId now start finish
        (s.seen user) infos s.simulations s.metrics) := by
  have hok := (readInfos_isOk rt.lower s.container s.table (s.seen user)).mpr hreadable
  cases hinfos : s.infos rt user now with
  | error e =>
    rw [infos_of_free now hfree] at hinfos
    rw [hinfos] at hok
    exact absurd hok Bool.false_ne_true
  | ok infos =>
    refine ⟨infos, rfl, ?_⟩
    rw [made, hinfos, htimes]
    rfl

/-- A request whose times have no offset. -/
def anyRequest : ReportRequest where
  startTime := ⟨0, none⟩
  endTime := ⟨1, none⟩
  format := "json".toList

def anyQuery : Requests.ListQuery where
  siemType := none
  status := none
  agentGroup := none
  limit := 100
  offset := 0
  limit_pos := by decide

lemma agree_of_answers (h : SameFor user s t)
    (hall : ∀ q, Reports.answer rt s user q = Reports.answer rt t user q) : Agree user s t := by
  have hfree : s.NumbersFree user ↔ t.NumbersFree user := by
    have hlist : listAgents rt s user anyQuery [] = listAgents rt t user anyQuery [] :=
      Reply.containers.inj (hall (.containers anyQuery []))
    rw [← not_iff_not, ← listAgents_tells rt s user anyQuery [],
      ← listAgents_tells rt t user anyQuery [], hlist]
  refine ⟨hfree, fun hs hreadable => ?_⟩
  have hreadable' : t.Readable user := by
    intro n hn
    rw [h.seen] at hn
    rw [h.container n hn]
    exact hreadable n hn
  have htimes : anyRequest.times = .ok (0, 1) := rfl
  obtain ⟨infos, hinfos, hmade⟩ := made_of_readable rt hs hreadable htimes [] []
  obtain ⟨infos', hinfos', hmade'⟩ := made_of_readable rt (hfree.mp hs) hreadable' htimes [] []
  rw [h.infos hfree, hinfos] at hinfos'
  obtain rfl := Except.ok.inj hinfos'
  have hreport : generateReport rt s user anyRequest [] []
      = generateReport rt t user anyRequest [] [] :=
    Reply.newReport.inj (hall (.newReport anyRequest [] []))
  rw [generateReport_eq, generateReport_eq, hmade, hmade', h.seen] at hreport
  refine (buildReport_eq_iff rt h.simulations h.metrics [] [] 0 1 (s.seen user) infos).mp ?_
  exact congrArg NewReport.report (Option.some.inj (congrArg ApiResponse.data hreport))

end Same

/-! ## The two systems compared -/

/-- A reader of the first team. -/
def reader : Requests.Member :=
  ⟨{ id := 7, username := "reader".toList, role := .viewer, isAdmin := false, teamId := some 1,
     auth := .session }, by decide⟩

/-- Only the times of `anyRequest` are written, and only an empty table is read. -/
def sampleRuntime : Runtime where
  lower text := text.map Char.toLower
  fromisoformat _ := none
  isoformat t :=
    if t = 0 then "1970-01-01T00:00:00+00:00".toList
    else "1970-01-01T00:00:00.000001+00:00".toList
  round q _ := q
  roundInt q := q.floor
  percent n total := 100 * n / total
  mean _ := 0
  median _ := 0
  average _ := 0

/-- A simulation of the second team that has not started. -/
def otherSimulation (profile : String) : Simulation where
  simulationId := some "s-1".toList
  profileId := some profile.toList
  simulationType := none
  teamId := some 2
  status := "running".toList
  startedAt := none
  eventsGenerated := some 0
  customParameters := none
  detection := none
  other := []

/-- A new installation that has some simulations. -/
def systemWith (simulations : List Simulation) : System where
  table := Agents.Table.empty
  groups := []
  groups_iff := by simp [Agents.Table.empty]
  containers := []
  nodup := List.nodup_nil
  container _ :=
    { state := "STOPPED".toList, running := false, initPid := -1, ips := [], config := none
      statusFile := .missing }
  scan := none
  profiles := []
  simulations
  schedules := []
  reports := []
  reportFiles _ := []
  metrics := some []

lemma sameFor_systemWith {sims sims' : List Simulation}
    (h : sims.filter (fun sim => sameTeam (some reader.1) sim.teamId) = [])
    (h' : sims'.filter (fun sim => sameTeam (some reader.1) sim.teamId) = []) :
    SameFor (some reader.1) (systemWith sims) (systemWith sims') where
  seen := rfl
  container := fun _ _ => rfl
  scanTaken := rfl
  scanned := fun _ _ => rfl
  rows := fun _ => rfl
  groups := rfl
  profiles := rfl
  simulations := h'.trans h.symm
  schedules := rfl
  reports := rfl
  metrics := rfl

/-- The simulations that a new report counts. -/
def Reply.totalSimulations : Reply → Option ℕ
  | .newReport a => a.data.map fun d => d.report.summary.totalSimulations
  | _ => none

end Habeny.Reports
