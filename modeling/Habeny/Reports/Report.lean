import Habeny.Reports.Containers
import Mathlib.Algebra.Ring.Nat
import Mathlib.Data.Char
import Mathlib.Data.List.Lex
import Mathlib.Data.List.Sort

/-!
# Reports

A report is made of the containers that a user can see, of simulations, and of the table of
metrics.  The simulations of other teams are left out of its lists and counts, but not of
`total_simulations`, nor of the throughput (`buildReportMetrics`).
-/

namespace Habeny.Reports

open Habeny.Lib Habeny.Auth Habeny.Tenancy Habeny.Agents

/-! ## Times and figures -/

/-- A date with a time, in microseconds, and its offset from UTC if it has one. -/
structure Datetime where
  micros : ℤ
  offset : Option ℤ

/-- What Python and SQLite compute: lower case, times from and as texts, and, in floats, rounding
to some digits and to an integer, the percentage `round(n / total * 100)`, means and medians. -/
structure Runtime where
  lower : Text → Text
  fromisoformat : Text → Option Datetime
  isoformat : ℤ → Text
  round : ℚ → ℕ → ℚ
  roundInt : ℚ → ℤ
  percent : ℕ → ℕ → ℕ
  mean : List ℚ → ℚ
  median : List ℚ → ℚ
  average : List ℚ → ℚ

/-- The first and the last microsecond of the years from 1 to 9999. -/
def minMicros : ℤ := -62135596800000000

def maxMicros : ℤ := 253402300799999999

/-- A time in UTC; nothing when it lies outside these years. -/
def normalizeDt (d : Datetime) : Option ℤ :=
  match d.offset with
  | none => some d.micros
  | some offset =>
    let utc := d.micros - offset
    if minMicros ≤ utc ∧ utc ≤ maxMicros then some utc else none

/-! ## The metrics -/

structure MetricRow where
  metricType : Text
  metricName : Text
  recordedAt : Text
  value : ℚ

structure MetricSummary where
  count : ℕ
  avg : Option ℚ
  max : Option ℚ
  p50 : Option ℚ
  p90 : Option ℚ
  p99 : Option ℚ

variable (rt : Runtime)

/-- Count the values of a metric, and sum them up. -/
def getMetricSummary (rows : List MetricRow) (metricType metricName : Text)
    (since : Option Text) : MetricSummary :=
  let values := (rows.filter fun r =>
    decide (r.metricType = metricType ∧ r.metricName = metricName) &&
      since.all fun t => decide (t ≤ r.recordedAt)).map MetricRow.value
  let sorted := values.insertionSort (· ≤ ·)
  let n := values.length
  { count := n
    avg := if n = 0 then none else some (rt.average values)
    max := values.max?
    p50 := sorted[n / 2]?
    p90 := sorted[n * 9 / 10]?
    p99 := sorted[min (n * 99 / 100) (n - 1)]? }

/-! ## Simulations -/

/-- The result of a detection check. -/
structure Detection where
  status : Option Text
  siem : Option Text
  detected : Option ℕ
  containers : Option ℕ
  detectionRate : Option ℚ
  ttdMedian : Option ℚ
  missed : List Text

/-- The record of a simulation; what is not read stands in `other`, and the values of its
parameters are known by their texts. -/
structure Simulation where
  simulationId : Option Text
  profileId : Option Text
  simulationType : Option Text
  teamId : Option ℕ
  status : Text
  startedAt : Option Text
  eventsGenerated : Option ℕ
  customParameters : Option (List (Text × Text))
  detection : Option Detection
  other : List (Text × Text)

/-- What a report says of the detection check of a simulation. -/
structure DetectionRow where
  simulationId : Option Text
  profile : Option Text
  siem : Option Text
  startedAt : Text
  detected : Option ℕ
  containers : Option ℕ
  detectionRate : Option ℚ
  medianTtdSeconds : Option ℚ
  missedRules : List Text

/-- The first of two texts that is not empty. -/
def orText (a b : Option Text) : Option Text := (a.filter fun t => !t.isEmpty).or b

def Simulation.kind (sim : Simulation) : Text :=
  (orText (orText sim.simulationType sim.profileId) (some "unknown".toList)).getD []

def Simulation.parameter (sim : Simulation) (key : String) : Text :=
  ((sim.customParameters.getD []).lookup key.toList).getD "unknown".toList

/-- Where a simulated syslog device sends to. -/
def Simulation.target (sim : Simulation) : Text :=
  sim.parameter "target_ip" ++ ":".toList ++ sim.parameter "target_port" ++ "/".toList
    ++ sim.parameter "protocol"

/-- What the loop over the simulations gathers. -/
structure Gathered where
  inRange : List (Option Text)
  detections : List DetectionRow
  byType : Dict Text ℕ
  syslogTargets : Dict Text ℕ

/-- The row of a simulation whose detection check is done. -/
def Simulation.detectionRow (sim : Simulation) (startedAt : Text) : Option DetectionRow :=
  match sim.detection with
  | none => none
  | some found =>
    if found.status = some "done".toList then
      some
        { simulationId := sim.simulationId, profile := sim.profileId, siem := found.siem, startedAt
          detected := found.detected, containers := found.containers
          detectionRate := found.detectionRate, medianTtdSeconds := found.ttdMedian
          missedRules := found.missed }
    else none

/-- Gather a simulation that started at a time. -/
def Gathered.add (g : Gathered) (sim : Simulation) (startedAt : Text) (within : Bool) : Gathered :=
  { inRange := if within then g.inRange ++ [sim.simulationId] else g.inRange
    detections :=
      if within then g.detections ++ (sim.detectionRow startedAt).toList else g.detections
    byType := count g.byType sim.kind
    syslogTargets :=
      if sim.kind = "syslog".toList then count g.syslogTargets sim.target else g.syslogTargets }

/-- Gather a simulation, if it has a time. -/
def gather (start finish : ℤ) (g : Gathered) (sim : Simulation) : Gathered :=
  match sim.startedAt.filter fun t => !t.isEmpty with
  | none => g
  | some startedAt =>
    match (rt.fromisoformat startedAt).bind normalizeDt with
    | none => g
    | some time => g.add sim startedAt (decide (start ≤ time ∧ time ≤ finish))

/-- Gather the simulations of a user's team. -/
def gatherAll (user : Option User) (start finish : ℤ) (sims : List Simulation) : Gathered :=
  sims.foldl (fun g sim => if sameTeam user sim.teamId then gather rt start finish g sim else g)
    { inRange := [], detections := [], byType := .empty, syslogTargets := .empty }

/-! ## What the SIEMs detected -/

structure DetectionSummary where
  profile : Option Text
  siem : Option Text
  runs : ℕ
  detectionRate : Option ℚ
  medianTtdSeconds : Option ℚ
  missedRules : List Text

/-- `str(value)` of a text or `None`. -/
def textOf (t : Option Text) : Text := t.getD "None".toList

def groupKeyLe (a b : Option Text × Option Text) : Prop :=
  textOf a.1 < textOf b.1 ∨ textOf a.1 = textOf b.1 ∧ textOf a.2 ≤ textOf b.2

instance : DecidableRel groupKeyLe := fun _ _ => inferInstanceAs (Decidable (_ ∨ _))

/-- The checks for each profile and SIEM. -/
def summarizeDetections (detections : List DetectionRow) : List DetectionSummary :=
  let keys := (detections.map fun d => (d.profile, d.siem)).reverse.dedup.reverse
  (keys.insertionSort groupKeyLe).map fun key =>
    let runs := detections.filter fun d => decide ((d.profile, d.siem) = key)
    let rates := runs.filterMap DetectionRow.detectionRate
    let ttds := runs.filterMap DetectionRow.medianTtdSeconds
    { profile := key.1
      siem := key.2
      runs := runs.length
      detectionRate := if rates.isEmpty then none else some (rt.round (rt.mean rates) 1)
      medianTtdSeconds := if ttds.isEmpty then none else some (rt.median ttds)
      missedRules := (runs.flatMap DetectionRow.missedRules).dedup.insertionSort (· ≤ ·) }

/-! ## Findings -/

structure Finding where
  findingId : Text
  severity : Text
  title : Text
  description : Text
  recommendation : Text

def errorFinding (error total : ℕ) : Finding where
  findingId := "ERR_AGENTS".toList
  severity := "critical".toList
  title := number error ++ " containers in error state".toList
  description := number error ++ " out of ".toList ++ number total
    ++ " containers are in an error state.".toList
  recommendation := "Check container logs and redeploy failed containers.".toList

def stoppedFinding (stopped total : ℕ) : Finding where
  findingId := "HIGH_STOPPED".toList
  severity := "warning".toList
  title := number stopped ++ "/".toList ++ number total ++ " containers stopped".toList
  description := number (rt.percent stopped total) ++ "% of containers are stopped.".toList
  recommendation := "Start stopped containers or remove unused ones.".toList

def slowFinding (p90 : ℚ) : Finding where
  findingId := "SLOW_DEPLOY".toList
  severity := "warning".toList
  title := "Slow deployment times detected".toList
  description := "P90 deployment time is ".toList ++ number (rt.roundInt p90).toNat
    ++ "s (>5 min).".toList
  recommendation := "Check network connectivity and use agent package caching.".toList

def allOk : Finding where
  findingId := "ALL_OK".toList
  severity := "info".toList
  title := "No issues detected".toList
  description := "All monitored metrics are within normal ranges.".toList
  recommendation := []

def deploymentMetric : Text × Text := ("deployment".toList, "container_deploy_time".toList)

def memoryMetric : Text × Text := ("system".toList, "memory_used_percent".toList)

def cpuMetric : Text × Text := ("system".toList, "cpu_load_1m".toList)

/-- The findings; nothing about deployments when the metrics cannot be read. -/
def buildReportFindings (metrics : Option (List MetricRow)) (agentsByStatus : Dict Text ℕ) :
    List Finding :=
  let stopped := (agentsByStatus.get "stopped".toList).getD 0
  let error := (agentsByStatus.get "error".toList).getD 0
  let total := (agentsByStatus.items.map Prod.snd).sum
  let p90 := (metrics.bind fun rows =>
    (getMetricSummary rt rows deploymentMetric.1 deploymentMetric.2 none).p90).getD 0
  let findings :=
    (if 0 < error then [errorFinding error total] else [])
      ++ (if total < 2 * stopped then [stoppedFinding rt stopped total] else [])
      ++ (if 300 < p90 then [slowFinding rt p90] else [])
  if findings.isEmpty then [allOk] else findings

/-! ## The metrics of a report -/

structure ReportMetrics where
  avgSeconds : ℚ
  p50Seconds : ℚ
  p90Seconds : ℚ
  p99Seconds : ℚ
  totalDeployments : ℕ
  memoryAvgPercent : ℚ
  memoryMaxPercent : ℚ
  cpuLoadAvg : ℚ
  cpuLoadMax : ℚ
  totalEvents : ℕ
  completedSimulations : ℕ

def totalEvents (sims : List Simulation) : ℕ :=
  (sims.map fun sim => sim.eventsGenerated.getD 0).sum

def completedSimulations (sims : List Simulation) : ℕ :=
  sims.countP fun sim => decide (sim.status = "completed".toList)

/-- The figures of a report; none when the metrics cannot be read. -/
def buildReportMetrics (metrics : Option (List MetricRow)) (sims : List Simulation)
    (since : Text) : Option ReportMetrics :=
  metrics.map fun rows =>
    let summary metric := getMetricSummary rt rows (Prod.fst metric) (Prod.snd metric) (some since)
    let deploy := summary deploymentMetric
    let mem := summary memoryMetric
    let cpu := summary cpuMetric
    { avgSeconds := rt.round (deploy.avg.getD 0) 2
      p50Seconds := rt.round (deploy.p50.getD 0) 2
      p90Seconds := rt.round (deploy.p90.getD 0) 2
      p99Seconds := rt.round (deploy.p99.getD 0) 2
      totalDeployments := deploy.count
      memoryAvgPercent := rt.round (mem.avg.getD 0) 1
      memoryMaxPercent := rt.round (mem.max.getD 0) 1
      cpuLoadAvg := rt.round (cpu.avg.getD 0) 2
      cpuLoadMax := rt.round (cpu.max.getD 0) 2
      totalEvents := totalEvents sims
      completedSimulations := completedSimulations sims }

/-! ## A report -/

structure Summary where
  totalAgents : ℕ
  agentsBySiem : Dict Text ℕ
  agentsByOs : Dict Text ℕ
  totalSimulations : ℕ
  simulationsInRange : List Text
  simulationsByType : Dict Text ℕ
  syslogTargets : Dict Text ℕ

structure Report where
  reportId : Text
  generatedAt : Text
  start : Text
  finish : Text
  summary : Summary
  detections : List DetectionRow
  detectionSummary : List DetectionSummary
  metrics : Option ReportMetrics
  findings : List Finding
  teamId : Option ℕ
  startedBy : Option Text

/-- How many containers have each value of a column. -/
def tallyBy (column : Column) (infos : List AgentInfo) : Dict Text ℕ :=
  tally (infos.map fun info => textOr (info.field column) "unknown".toList)

/-- The report for a range of times, from what was read. -/
def buildReport (user : Option User) (reportId now : Text) (start finish : ℤ)
    (containers : List Text) (infos : List AgentInfo) (sims : List Simulation)
    (metrics : Option (List MetricRow)) : Report :=
  let g := gatherAll rt user start finish sims
  { reportId
    generatedAt := now
    start := rt.isoformat start
    finish := rt.isoformat finish
    summary :=
      { totalAgents := containers.length
        agentsBySiem := tallyBy .siemType infos
        agentsByOs := tallyBy .osType infos
        totalSimulations := sims.length
        simulationsInRange := g.inRange.filterMap fun id => id.filter fun t => !t.isEmpty
        simulationsByType := g.byType
        syslogTargets := g.syslogTargets }
    detections := g.detections
    detectionSummary := summarizeDetections rt g.detections
    metrics := buildReportMetrics rt metrics sims (rt.isoformat start)
    findings := buildReportFindings rt metrics (tallyBy .lifecycleStatus infos)
    teamId := teamOf user
    startedBy := user.map User.username }

end Habeny.Reports
