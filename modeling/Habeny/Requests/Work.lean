import Habeny.Requests.Basic
import Mathlib.Algebra.GroupWithZero.Nat

/-!
# New work

Deployments, simulations, benchmarks, log uploads and log schedules.  Each of these programs
asks for the licence by itself, at its start; the upload to a group does not.
-/

namespace Habeny.Requests

open Habeny.Lib Habeny.Auth Habeny.Tenancy Habeny.Agents

variable (s : Setup) (user : Option User)

/-! ## Deployments -/

/-- The machine after a deployment. -/
def Machine.deployed (m : Machine) (store : Store) (names created : List Text) : Machine :=
  { containers := m.containers ++ created.filter fun n => decide (n ∉ m.containers),
    running := fun n => m.running n || decide (n ∈ created ∧ n ∉ m.containers),
    store := store,
    known := m.known ++ names.filter fun n => decide (n ∉ m.known) }

def deployAnswer (count : ℕ) (results : List Deploy.Result) (elapsed : Text) : Answer :=
  let successful := results.countP fun r => r.success
  let failed := results.countP fun r => !r.success
  { success := decide (failed = 0),
    message := "Deployed ".toList ++ number successful ++ '/' :: number count ++
      " containers in ".toList ++ elapsed ++ "s".toList,
    error := if failed = 0 then none else some (number failed ++ " containers failed".toList),
    data := .results (results.map fun r => ⟨r.agentName, r.success, r.error⟩) }

/-- What is left to do when a deploy request has been answered. -/
def finishDeploy (req : Deploy.Request) (out : Deployed req) :
    Except Refusal Unit × Store → Handler Answer
  | (.error e, store) => do
    change fun m => { m with store := store }
    Prog.fail e
  | (.ok (), store) => do
    Prog.emit (.deployment req.names)
    change fun m => m.deployed store req.names out.created
    Prog.ret (deployAnswer req.count (out.outcomes.results.map Prod.snd) out.elapsed)

/-- Deploy containers.  A request that is refused late leaves a group it has created. -/
def deployAgents (req : Deploy.Request) : Handler Answer := do
  let m ← look
  finishDeploy req (s.deployed req)
    (Deploy.deployAgents (s.env m) user req (s.deployed req).outcomes m.store)

/-! ## Simulations -/

/-- Which containers a simulation is for; at least one criterion is given. -/
structure AgentSelector where
  agentIds : List Text
  siemType : Option Text
  agentGroup : Option Text
  count : Option ℕ
  status : Option Text
  count_pos : ∀ k ∈ count, 1 ≤ k
  criterion : agentIds ≠ [] ∨ Deploy.given siemType ∨ Deploy.given agentGroup ∨ count.isSome ∨
    Deploy.given status

/-- Whether a criterion on the metadata, if it is given, is met. -/
def metaMet (metadata : Metadata) (c : Column) (wanted : Option Text) : Bool :=
  !Deploy.given wanted || decide (metadata.field c = some (.ofText wanted))

def AgentSelector.matches (sel : AgentSelector) (m : Machine) (name : Text) : Bool :=
  (sel.agentIds.isEmpty || decide (name ∈ sel.agentIds)) && m.running name
    && (!Deploy.given sel.status || decide (sel.status = some "running".toList))
    && metaMet (readAgentMetadata m.store name) .siemType sel.siemType
    && metaMet (readAgentMetadata m.store name) .agentGroup sel.agentGroup

/-- The running containers that match every criterion given, then a random choice of them. -/
def selectAgents (m : Machine) (sel : AgentSelector) : List Text :=
  let selected := (visible m.store.owners user m.containers).filter (sel.matches m)
  match sel.count with
  | some k => s.sampler.sample selected (min k selected.length)
  | none => selected

def noContainers : Refusal := .http 400 "No containers match the selector".toList

/-- Start a simulation on some containers. -/
def startOn (targets : List Text) (message : Text) : Handler Answer := do
  Prog.emit (.simulation targets)
  Prog.ret ⟨true, message ++ s.uuid ++ " started".toList, none, .agents targets targets.length
    targets.length 0 false⟩

/-- A request for a custom log simulation, and whether its extra fields can be serialized. -/
structure CustomLogRequest where
  agentSelector : AgentSelector
  serializable : Bool

def notSerializable : Refusal := .http 400 "Extra fields must be JSON serializable".toList

def loadSimulation (req : CustomLogRequest) : Handler Answer := do
  requireLicense s 0 0
  let m ← look
  let targets := selectAgents s user m req.agentSelector
  if targets.isEmpty then Prog.fail noContainers
  else if !req.serializable then Prog.fail notSerializable
  else startOn s targets "Custom log simulation ".toList

structure SyslogRequest where
  deviceCount : ℕ
  deviceNamePrefix : Text

/-- A number with at least two digits. -/
def twoDigits (i : ℕ) : Text := (number i).leftpad 2 '0'

def SyslogRequest.devices (req : SyslogRequest) : List Text :=
  (List.range req.deviceCount).map fun i => req.deviceNamePrefix ++ '-' :: twoDigits (i + 1)

def startSyslogSimulation (req : SyslogRequest) : Handler Answer := do
  requireLicense s 0 0
  startOn s req.devices "Syslog simulation ".toList

/-- The attack profiles that can be run (`PROFILES`). -/
def simulationProfiles : List Text :=
  ["auth_bruteforce".toList, "web_attacks".toList, "malware_beacon".toList,
    "lateral_movement".toList, "data_exfiltration".toList, "privilege_escalation".toList]

structure SimulationRequest where
  profileId : Text
  agentSelector : AgentSelector
  detectionProfileId : Option Text

def invalidProfile (id : Text) : Refusal := .http 400 ("Invalid profile: ".toList ++ id)

def noDetection : Refusal :=
  .http 400
    "That manager profile has no detection API set (Managers page; Wazuh and Elastic profiles, set by admins)".toList

/-- A manager profile whose SIEM can be asked what it detected. -/
def detectionConfigured (manager : Option Deploy.ManagerProfile) : Bool :=
  match manager with
  | some p => Deploy.given p.detectionUrl &&
      decide (p.settings .siemType = some "wazuh".toList ∨
        p.settings .siemType = some "elastic".toList)
  | none => false

def startSimulation (req : SimulationRequest) : Handler Answer := do
  requireLicense s 0 0
  if req.profileId ∉ simulationProfiles then Prog.fail (invalidProfile req.profileId)
  else
    let m ← look
    let targets := selectAgents s user m req.agentSelector
    if targets.isEmpty then Prog.fail noContainers
    else if Deploy.given req.detectionProfileId &&
        !detectionConfigured (s.managers (req.detectionProfileId.getD [])) then
      Prog.fail noDetection
    else startOn s targets "Simulation ".toList

/-! ## Benchmarks -/

/-- The scenarios, each with the containers of its phases (`SCENARIOS`). -/
def scenarios : List (Text × List ℕ) :=
  [("linear_scale".toList, [5, 10, 25, 50, 100]), ("burst_load".toList, [5, 50, 5]),
    ("sustained_load".toList, [20]), ("mixed_workload".toList, [10, 10]),
    ("stress_test".toList, [10, 25, 50, 100, 200])]

structure BenchmarkRequest where
  scenarioId : Text
  settings : Deploy.Settings
  managerProfileId : Option Text

def unknownScenario (id : Text) : Refusal := .http 400 ("Unknown scenario: ".toList ++ id)

def enrollmentRequired : Refusal :=
  .http 400 "An auth key / enrollment token is required for UTMstack and Elastic".toList

/-- The settings of a benchmark: those that are given, and where they are not those of its
manager profile.  A profile does not give it a configuration template. -/
def benchmarkConfig (settings profile : Deploy.Settings) : Deploy.Settings := fun f =>
  if f ≠ .configTemplateId && Deploy.given (profile f) && (!Deploy.given (settings f) ||
      decide (f = .siemType) && decide (settings f = some "none".toList)) then profile f
  else if Deploy.given (settings f) then settings f
  else none

def resolveBenchmark (req : BenchmarkRequest) : Except Refusal Deploy.Settings :=
  if Deploy.given req.managerProfileId then
    match s.managers (req.managerProfileId.getD []) with
    | none => .error (Deploy.profileNotFound (req.managerProfileId.getD []))
    | some profile => .ok (benchmarkConfig req.settings profile.settings)
  else .ok (benchmarkConfig req.settings fun _ => none)

def checkEnrollment (config : Deploy.Settings) : Except Refusal Unit :=
  if decide (config .siemType = some "utmstack".toList ∨ config .siemType = some "elastic".toList)
      && !Deploy.given (config .siemAuthKey) then .error enrollmentRequired
  else .ok ()

/-- The checks of a benchmark after that of its licence. -/
def checkBenchmark (m : Machine) (req : BenchmarkRequest) : Except Refusal Unit :=
  match scenarios.lookup req.scenarioId with
  | none => .error (unknownScenario req.scenarioId)
  | some phases => do
    let config ← resolveBenchmark s req
    checkEnrollment config
    checkQuota s.limits m.store.owners user phases.sum m.containers

def startBenchmark (req : BenchmarkRequest) : Handler Answer := do
  requireLicense s 0 0
  let m ← look
  ofExcept (checkBenchmark s user m req)
  Prog.emit (.benchmark req.scenarioId)
  Prog.ret ⟨true, "Benchmark ".toList ++ s.uuid.take 8 ++ " started".toList, none, .none⟩

/-! ## Logs -/

/-- An upload of log content to a path of a container. -/
structure LogUploadRequest where
  content : Text
  destinationPath : Text

/-- Upload log content to a container. -/
def performLogUpload (name : Text) : Handler (Except Text Unit) := do
  Prog.emit (.logUpload name)
  Prog.ret (s.attach name)

def logTargetNotFound (name : Text) : Refusal :=
  .http 404 ("Container ".toList ++ name ++ " not found".toList)

def uploadLogsToAgent (name : Text) (req : LogUploadRequest) : Handler Answer := do
  requireLicense s 0 0
  let m ← look
  if !visibleContainer m user name then Prog.fail (logTargetNotFound name)
  else
    let result ← performLogUpload s name
    match result with
    | .ok () => Prog.ret ⟨true, "Logs uploaded to ".toList ++ req.destinationPath, none,
        .agent name⟩
    | .error stderr => Prog.ret ⟨false, "Failed to upload logs".toList, some stderr, .none⟩

/-- A recurring upload; an interval and a duration are within what the request model takes. -/
structure LogScheduleRequest where
  intervalSeconds : ℕ
  durationSeconds : Option ℕ
  indefinite : Bool
  interval_bounds : 5 ≤ intervalSeconds ∧ intervalSeconds ≤ 86400
  duration_bounds : ∀ d ∈ durationSeconds, 10 ≤ d ∧ d ≤ 604800

def intervalTooShort : Refusal :=
  .http 400 "interval_seconds must be at least 5 seconds".toList

def durationRequired : Refusal :=
  .http 400 "duration_seconds is required unless indefinite is true".toList

/-- The checks of a schedule after that of its licence. -/
def checkSchedule (m : Machine) (name : Text) (req : LogScheduleRequest) : Except Refusal Unit :=
  if !visibleContainer m user name then .error (logTargetNotFound name)
  else if req.intervalSeconds < 5 then .error intervalTooShort
  else if !req.indefinite && decide (req.durationSeconds.getD 0 = 0) then .error durationRequired
  else .ok ()

def scheduleLogUpload (name : Text) (req : LogScheduleRequest) : Handler Answer := do
  requireLicense s 0 0
  let m ← look
  ofExcept (checkSchedule user m name req)
  Prog.emit (.logSchedule name)
  Prog.ret ⟨true, "Log schedule created".toList, none, .schedules [name]⟩

/-! ## Logs for a group -/

/-- Upload log content to a container of a group, if it exists. -/
def uploadToMember (existing : List Text) (name : Text) : Handler ItemResult :=
  if name ∉ existing then Prog.ret ⟨name, false, some "Not found".toList⟩
  else do
    let result ← performLogUpload s name
    match result with
    | .ok () => Prog.ret ⟨name, true, none⟩
    | .error stderr => Prog.ret ⟨name, false, some stderr⟩

/-- Upload log content to all containers of a group. -/
def uploadLogsToGroup (group : Text) : Handler Answer :=
  onGroup user group fun m members => do
    let results ← Prog.forEach (uploadToMember s m.containers) members
    Prog.ret ⟨true, "Logs uploaded to group".toList, none, .results results⟩

/-- The containers that an answer has schedules for. -/
def Answer.scheduled (a : Answer) : List Text :=
  match a.data with
  | .schedules agents => if a.success then agents else []
  | _ => []

/-- Schedule log uploads to all containers of a group. -/
def scheduleLogsToGroup (group : Text) (req : LogScheduleRequest) : Handler Answer :=
  onGroup user group fun _ members => do
    let answers ← Prog.forEach (fun name => scheduleLogUpload s user name req) members
    Prog.ret ⟨true, "Log schedules created".toList, none,
      .schedules (answers.flatMap Answer.scheduled)⟩

end Habeny.Requests
