import Habeny.Benchmarks.Compare
import Habeny.Lib.Ledger
import Habeny.Lib.Transition
import Mathlib.Algebra.GroupWithZero.Nat
import Mathlib.Data.List.Sort
import Mathlib.Order.MinMax

/-!
# Running benchmarks

A benchmark is a coroutine of the server: it goes through its phases, and in each it makes
containers and then measures the host until the time of the phase is over.  It gives the event
loop away only where it sleeps between two measurements, so a request, say one that stops it, is
served there.  The server may end at any time; what it stores of benchmarks stays.

All that the tables have of one benchmark, and its coroutine, is a `Cell`.
-/

namespace Habeny.Benchmarks

open Habeny.Lib

/-! ## Scenarios -/

/-- A phase, with what `run_benchmark` reads of it. -/
structure Phase where
  agents : ℕ
  eps : ℕ
  duration : ℕ
  label : Text

structure Scenario where
  id : Text
  name : Text
  phases : List Phase
  failureThreshold : ℚ

/-- `SCENARIOS` -/
def scenarios : List Scenario :=
  [{ id := "linear_scale".toList, name := "Linear Scale Test".toList,
     phases := [⟨5, 10, 120, "Warmup (5 agents)".toList⟩, ⟨10, 50, 300, "Light (10 agents)".toList⟩,
       ⟨25, 100, 300, "Medium (25 agents)".toList⟩, ⟨50, 200, 300, "Heavy (50 agents)".toList⟩,
       ⟨100, 500, 300, "Max (100 agents)".toList⟩],
     failureThreshold := 1 / 5 },
   { id := "burst_load".toList, name := "Burst Load Test".toList,
     phases := [⟨5, 10, 60, "Baseline".toList⟩, ⟨50, 1000, 120, "Burst".toList⟩,
       ⟨5, 10, 120, "Recovery".toList⟩],
     failureThreshold := 3 / 10 },
   { id := "sustained_load".toList, name := "Sustained Load Test".toList,
     phases := [⟨20, 200, 600, "Sustained (20 agents, 10 min)".toList⟩],
     failureThreshold := 1 / 10 },
   { id := "mixed_workload".toList, name := "Mixed Workload Test".toList,
     phases := [⟨10, 50, 180, "Mixed deploy".toList⟩, ⟨10, 200, 180, "Mixed sims".toList⟩],
     failureThreshold := 3 / 20 },
   { id := "stress_test".toList, name := "Stress Test".toList,
     phases := [⟨10, 100, 60, "Ramp 1".toList⟩, ⟨25, 500, 60, "Ramp 2".toList⟩,
       ⟨50, 1000, 60, "Ramp 3".toList⟩, ⟨100, 2000, 120, "Ramp 4".toList⟩,
       ⟨200, 5000, 120, "Breaking Point".toList⟩],
     failureThreshold := 1 / 2 }]

/-- What a benchmark is asked to do; the fields that only go to the workers are `others`. -/
structure Config where
  name : Option Text
  siemType : Option Text
  failureThreshold : Option ℚ
  phases : Option (List Phase)
  /-- the key in `SECRET_CONFIG_KEYS` -/
  siemAuthKey : Option Text
  others : List (Text × Text)

/-- `_storable_config` -/
def Config.storable (c : Config) : Config := { c with siemAuthKey := none }

/-! ## Measurements -/

inductive Category where
  | system
  | container
  | deployment
  deriving DecidableEq

inductive MetricName where
  | systemCpuCount
  | systemCpuPercent
  | systemLoad1m
  | systemLoadPerCore
  | systemMemoryPercent
  | systemMemoryAvailableMb
  | systemDiskPercent
  | containersTotal
  | containersRunning
  | containersStopped
  | deployTotal
  | deploySuccess
  | deployFailures
  | deployFailureRate
  | deployElapsedSeconds
  | deployRatePerMin
  | deployTimeAvg
  | deployTimeP50
  | deployTimeP90
  | deployTimeP99
  | deployTimeMin
  | deployTimeMax
  | apiLatencyP90
  | agentDisconnectRate
  deriving DecidableEq

/-- A row of `benchmark_metrics`. -/
structure Metric where
  phase : ℕ
  category : Category
  name : MetricName
  value : ℚ

/-- What `collect_system_metrics` finds. -/
structure SystemMetrics where
  cpuCount : ℕ
  cpuPercent : ℚ
  load1m : ℚ
  loadPerCore : ℚ
  memoryPercent : ℚ
  memoryAvailableMb : ℕ
  diskPercent : ℚ

/-- What `collect_container_metrics` finds. -/
structure ContainerMetrics where
  total : ℕ
  running : ℕ
  stopped : ℕ

/-- One measurement; there is nothing of the system when reading it failed. -/
structure Sample where
  system : Option SystemMetrics
  containers : ContainerMetrics

def SystemMetrics.entries (s : SystemMetrics) : List (MetricName × ℚ) :=
  [(.systemCpuCount, s.cpuCount), (.systemCpuPercent, s.cpuPercent), (.systemLoad1m, s.load1m),
    (.systemLoadPerCore, s.loadPerCore), (.systemMemoryPercent, s.memoryPercent),
    (.systemMemoryAvailableMb, s.memoryAvailableMb), (.systemDiskPercent, s.diskPercent)]

def ContainerMetrics.entries (c : ContainerMetrics) : List (MetricName × ℚ) :=
  [(.containersTotal, c.total), (.containersRunning, c.running), (.containersStopped, c.stopped)]

/-- What `collect_all_metrics` stores. -/
def Sample.metrics (m : Sample) (phase : ℕ) : List Metric :=
  ((m.system.map SystemMetrics.entries).getD []).map
      (fun e => ⟨phase, .system, e.1, e.2⟩) ++
    m.containers.entries.map fun e => ⟨phase, .container, e.1, e.2⟩

/-! ## Bottlenecks -/

inductive Severity where
  | critical
  | warning
  deriving DecidableEq

structure Rule where
  component : Text
  metric : MetricName
  threshold : ℚ
  severity : Severity
  title : Text
  recommendation : Text

/-- `BOTTLENECK_RULES` -/
def rules : List Rule :=
  [{ component := "siem_cpu".toList, metric := .systemCpuPercent, threshold := 85,
     severity := .critical, title := "SIEM host CPU overloaded".toList,
     recommendation :=
       "Consider vertical scaling or distributing agents across multiple managers".toList },
   { component := "system_memory".toList, metric := .systemMemoryPercent, threshold := 90,
     severity := .critical, title := "System memory critically high".toList,
     recommendation := "Reduce container count or increase host RAM".toList },
   { component := "system_memory".toList, metric := .systemMemoryPercent, threshold := 75,
     severity := .warning, title := "System memory usage elevated".toList,
     recommendation :=
       "Monitor memory trend; consider reducing memory_limit per container".toList },
   { component := "system_disk".toList, metric := .systemDiskPercent, threshold := 90,
     severity := .critical, title := "Disk space critically low".toList,
     recommendation := "Clean up logs and old containers; expand storage".toList },
   { component := "deployment".toList, metric := .deployFailureRate, threshold := 20,
     severity := .critical, title := "High deployment failure rate".toList,
     recommendation := "Check network connectivity and SIEM manager availability".toList },
   { component := "deployment".toList, metric := .deployTimeP90, threshold := 300,
     severity := .warning, title := "Slow deployment times (P90 > 5 min)".toList,
     recommendation := "Enable agent package caching; check host I/O performance".toList },
   { component := "platform_api".toList, metric := .apiLatencyP90, threshold := 5000,
     severity := .warning, title := "API response times degraded".toList,
     recommendation := "Check database performance and host CPU load".toList },
   { component := "agent_disconnect".toList, metric := .agentDisconnectRate, threshold := 5,
     severity := .warning, title := "Agent disconnect rate exceeds 5%".toList,
     recommendation := "Check network capacity and SIEM manager connection limits".toList },
   { component := "system_load".toList, metric := .systemLoadPerCore, threshold := 2,
     severity := .warning, title := "CPU load significantly exceeds core count".toList,
     recommendation := "Reduce concurrent deployments or container count".toList }]

/-- A row of `benchmark_bottlenecks`; its description names the first value. -/
structure Bottleneck where
  phase : ℕ
  severity : Severity
  component : Text
  title : Text
  described : ℚ
  threshold : ℚ
  actual : ℚ
  recommendation : Text
  occurrences : ℕ

/-- What there is one row for. -/
def Bottleneck.key (b : Bottleneck) : Text × Text := (b.component, b.title)

def Rule.key (r : Rule) : Text × Text := (r.component, r.title)

/-- The row for what exceeds a threshold for the first time. -/
def Rule.newRow (rule : Rule) (phase : ℕ) (actual : ℚ) : Bottleneck :=
  { phase := phase, severity := rule.severity, component := rule.component, title := rule.title,
    described := actual, threshold := rule.threshold, actual := actual,
    recommendation := rule.recommendation, occurrences := 1 }

def Bottleneck.again (actual : ℚ) (b : Bottleneck) : Bottleneck :=
  { b with occurrences := b.occurrences + 1, actual := actual }

/-- `_record_bottleneck` -/
def recordBottleneck (phase : ℕ) (rule : Rule) (actual : ℚ) : List Bottleneck → List Bottleneck :=
  enter Bottleneck.key (Bottleneck.again actual) (rule.newRow phase actual)

@[simp] lemma Rule.key_newRow (rule : Rule) (phase : ℕ) (actual : ℚ) :
    (rule.newRow phase actual).key = rule.key := rfl

@[simp] lemma Bottleneck.key_again (actual : ℚ) (b : Bottleneck) : (b.again actual).key = b.key :=
  rfl

/-- `metric_map` of `detect_bottlenecks`: a value that is missing counts as 0. -/
def Sample.value (m : Sample) : MetricName → Option ℚ
  | .systemCpuPercent => some ((m.system.map SystemMetrics.cpuPercent).getD 0)
  | .systemMemoryPercent => some ((m.system.map SystemMetrics.memoryPercent).getD 0)
  | .systemDiskPercent => some ((m.system.map SystemMetrics.diskPercent).getD 0)
  | .systemLoadPerCore => some ((m.system.map SystemMetrics.loadPerCore).getD 0)
  | _ => none

/-- One round of `detect_bottlenecks`. -/
def detectOne (phase : ℕ) (m : Sample) (rule : Rule) (bs : List Bottleneck) : List Bottleneck :=
  match m.value rule.metric with
  | some v => if rule.threshold < v then recordBottleneck phase rule v bs else bs
  | none => bs

/-! ## The containers of a phase -/

/-- What is used of the language for the numbers of a phase: the float next to a number, `round`
and `sum` of floats. -/
structure Arithmetic where
  nearest : ℚ → ℚ
  round : ℕ → ℚ → ℚ
  sum : List ℚ → ℚ

/-- How a worker ends: with a result, or not. -/
inductive Answer where
  | result (success : Bool) (seconds : ℚ)
  | error

def Answer.failed : Answer → Bool
  | .result success _ => !success
  | .error => true

def Answer.time? : Answer → Option ℚ
  | .result _ seconds => some seconds
  | .error => none

/-- `dep_metrics` -/
structure DepMetrics where
  total : ℕ
  success : ℕ
  failures : ℕ
  failureRate : ℚ
  elapsedSeconds : ℚ
  ratePerMin : ℚ
  timeAvg : ℚ
  timeP50 : ℚ
  timeP90 : ℚ
  timeP99 : ℚ
  timeMin : ℚ
  timeMax : ℚ

section

variable (env : Arithmetic)

/-- The share of failures, as a float. -/
def Arithmetic.share (failures agents : ℕ) : ℚ := env.nearest (failures / agents)

def depMetrics (agents failures : ℕ) (times : List ℚ) (elapsed : ℚ) : DepMetrics :=
  let sorted := if times = [] then [0] else times.insertionSort (· ≤ ·)
  let n := sorted.length
  { total := agents
    success := agents - failures
    failures := failures
    failureRate := if agents = 0 then 0 else env.nearest (env.share failures agents * 100)
    elapsedSeconds := elapsed
    ratePerMin :=
      if 0 < elapsed then env.nearest ((agents - failures : ℕ) / env.nearest (elapsed / 60)) else 0
    timeAvg := env.nearest (env.sum times / n)
    timeP50 := sorted.getD (n * 50 / 100) 0
    timeP90 := sorted.getD (n * 90 / 100) 0
    timeP99 := sorted.getD (min (n * 99 / 100) (n - 1)) 0
    timeMin := sorted.getD 0 0
    timeMax := sorted.getLastD 0 }

def DepMetrics.entries (d : DepMetrics) : List (MetricName × ℚ) :=
  [(.deployTotal, d.total), (.deploySuccess, d.success), (.deployFailures, d.failures),
    (.deployFailureRate, d.failureRate), (.deployElapsedSeconds, d.elapsedSeconds),
    (.deployRatePerMin, d.ratePerMin), (.deployTimeAvg, d.timeAvg), (.deployTimeP50, d.timeP50),
    (.deployTimeP90, d.timeP90), (.deployTimeP99, d.timeP99), (.deployTimeMin, d.timeMin),
    (.deployTimeMax, d.timeMax)]

def DepMetrics.metrics (d : DepMetrics) (phase : ℕ) : List Metric :=
  d.entries.map fun e => ⟨phase, .deployment, e.1, e.2⟩

/-! ## Results -/

inductive Outcome where
  | completed (agents targetEps duration samples : ℕ)
  /-- with the numbers of the reason -/
  | aborted (share threshold : ℚ)

structure PhaseResult where
  phase : ℕ
  label : Text
  outcome : Outcome
  dep : DepMetrics

def PhaseResult.isCompleted (p : PhaseResult) : Bool :=
  match p.outcome with
  | .completed .. => true
  | .aborted .. => false

inductive Verdict where
  | pass
  | warn
  | fail
  deriving DecidableEq

structure BenchmarkSummary where
  verdict : Verdict
  maxStableAgents : ℕ
  peakEpsTarget : ℕ
  totalDeployments : ℕ
  successfulDeployments : ℕ
  failedDeployments : ℕ
  successRatePercent : ℚ
  avgDeployTimeSeconds : ℚ
  phasesCompleted : ℕ
  phasesTotal : ℕ
  bottlenecksCritical : ℕ
  bottlenecksTotal : ℕ
  bottleneckDetails : List Bottleneck

/-- `ORDER BY severity, occurrences DESC` -/
def Bottleneck.before (b b' : Bottleneck) : Bool :=
  match b.severity, b'.severity with
  | .critical, .warning => true
  | .warning, .critical => false
  | _, _ => decide (b'.occurrences ≤ b.occurrences)

/-- `_build_summary` -/
def buildSummary (results : List PhaseResult) (bottlenecks : List Bottleneck)
    (maxAgents peakEps : ℕ) : BenchmarkSummary :=
  let total := (results.map (·.dep.total)).sum
  let success := (results.map (·.dep.success)).sum
  let failures := (results.map (·.dep.failures)).sum
  let times := (results.map (·.dep.timeAvg)).filter fun avg => decide (0 < avg)
  let sorted := bottlenecks.mergeSort Bottleneck.before
  let critical := bottlenecks.countP fun b => decide (b.severity = .critical)
  { verdict :=
      if critical ≠ 0 then .fail
      else if 0 < failures ∧ 0 < total ∧ env.nearest (1 / 20) < env.share failures total then .warn
      else .pass
    maxStableAgents := maxAgents
    peakEpsTarget := peakEps
    totalDeployments := total
    successfulDeployments := success
    failedDeployments := failures
    successRatePercent :=
      if total = 0 then 0 else env.round 1 (env.nearest (env.share success total * 100))
    avgDeployTimeSeconds :=
      if times = [] then 0 else env.round 1 (env.nearest (env.sum times / times.length))
    phasesCompleted := results.countP PhaseResult.isCompleted
    phasesTotal := results.length
    bottlenecksCritical := critical
    bottlenecksTotal := bottlenecks.length
    bottleneckDetails := sorted.take 10 }

/-- What the web interface is shown of a benchmark that runs. -/
structure Live where
  phase : ℕ
  label : Text
  elapsed : ℚ
  metrics : Sample
  deploy : DepMetrics

structure Results where
  live : Option Live
  error : Option Text
  phases : Option (List PhaseResult)
  summary : Option BenchmarkSummary
  abortReason : Option Text

/-! ## The coroutine -/

inductive Status where
  | pending
  | running
  | stopped
  | completed
  | aborted
  | failed
  deriving DecidableEq

/-- A benchmark as it is kept, in memory (`bm`) or as a row of `benchmarks`. -/
structure Record where
  scenarioId : Text
  name : Text
  siemType : Text
  status : Status
  config : Config
  phases : List Phase
  currentPhase : ℕ
  results : Results
  startedAt : ℕ
  completedAt : Option ℕ
  createdAt : ℕ

/-- What the body of the loop over the phases remembers. -/
structure Local where
  i : ℕ
  phase : Phase
  dep : DepMetrics
  samples : ℕ

/-- Where the coroutine is. -/
inductive Point where
  /-- the head of the loop over the phases -/
  | phase (i : ℕ)
  | deploy (i : ℕ) (phase : Phase)
  /-- the head of the loop over the measurements -/
  | monitor (l : Local)
  | detect (l : Local) (m : Sample) (rest : List Rule)
  | asleep (l : Local)
  | finish
  /-- storing the result has failed -/
  | lost

structure Coroutine where
  bm : Record
  threshold : ℚ
  results : List PhaseResult
  aborted : Bool
  maxStableAgents : ℕ
  peakEps : ℕ
  point : Point

/-- A benchmark: what the tables have of it, and its coroutine with what is in
`active_benchmarks`. -/
structure Cell where
  row : Option Record
  metrics : List Metric
  bottlenecks : List Bottleneck
  run : Option Coroutine

def Cell.empty : Cell := { row := none, metrics := [], bottlenecks := [], run := none }

/-- `_save_benchmark` -/
def save (row : Option Record) (bm : Record) : Record :=
  match row with
  | none => { bm with config := bm.config.storable }
  | some old =>
    { old with
      status := bm.status, currentPhase := bm.currentPhase, results := bm.results,
      completedAt := bm.completedAt }

/-- The start of `run_benchmark`. -/
def start (s : Scenario) (config : Config) (now : ℕ) : Cell :=
  let phases := match config.phases with
    | some (p :: ps) => p :: ps
    | _ => s.phases
  let name := match config.name with
    | some (c :: cs) => c :: cs
    | _ => s.name
  let bm : Record :=
    { scenarioId := s.id, name := name, siemType := config.siemType.getD ("none".toList),
      status := .running, config := config, phases := phases, currentPhase := 0,
      results := ⟨none, none, none, none, none⟩, startedAt := now, completedAt := none,
      createdAt := now }
  { Cell.empty with
    row := some (save none bm)
    run := some { bm := bm, threshold := config.failureThreshold.getD s.failureThreshold,
                  results := [], aborted := false, maxStableAgents := 0, peakEps := 0,
                  point := .phase 0 } }

/-- What the coroutine does next, with what it finds. -/
inductive Own where
  | enter
  /-- the workers have ended, or making them has failed -/
  | deploy (answers : List Answer) (raised : Bool) (elapsed : ℚ)
  | measure (m : Sample)
  | timeUp
  | detect (elapsed : ℚ)
  /-- an exception that nothing catches before the end -/
  | fail (error : Text)
  | finalize (now : ℕ)
  | lose

/-- The coroutine goes on to a point. -/
def Cell.goto (c : Cell) (r : Coroutine) (p : Point) : Cell :=
  { c with run := some { r with point := p } }

/-- The head of the loop over the phases. -/
def Cell.enter (c : Cell) (r : Coroutine) (i : ℕ) : Cell :=
  match r.bm.phases[i]? with
  | none => c.goto r .finish
  | some phase =>
    let bm := { r.bm with currentPhase := i, status := .running }
    { c with
      row := some (save c.row bm)
      run := some { r with bm := bm, point := .deploy i phase } }

def Cell.deploy (c : Cell) (r : Coroutine) (i : ℕ) (phase : Phase) (answers : List Answer)
    (raised : Bool) (elapsed : ℚ) : Cell :=
  let failures := if raised then phase.agents else answers.countP Answer.failed
  let dep := depMetrics env phase.agents failures (answers.filterMap Answer.time?) elapsed
  let c := { c with metrics := c.metrics ++ dep.metrics i }
  if 0 < phase.agents ∧ r.threshold < env.share failures phase.agents then
    let result : PhaseResult :=
      ⟨i, phase.label, .aborted (env.share failures phase.agents) r.threshold, dep⟩
    c.goto { r with results := r.results ++ [result], aborted := true } .finish
  else c.goto r (.monitor ⟨i, phase, dep, 0⟩)

/-- The time of a phase is over. -/
def Cell.timeUp (c : Cell) (r : Coroutine) (l : Local) : Cell :=
  if r.bm.status = .stopped then c.goto { r with aborted := true } .finish
  else
    let result : PhaseResult :=
      ⟨l.i, l.phase.label, .completed l.phase.agents l.phase.eps l.phase.duration l.samples, l.dep⟩
    c.goto { r with
        results := r.results ++ [result],
        maxStableAgents := max r.maxStableAgents (l.phase.agents - l.dep.failures),
        peakEps := max r.peakEps l.phase.eps }
      (.phase (l.i + 1))

/-- Where an exception may come from, with what it leaves of the record. -/
def Coroutine.failsWith (r : Coroutine) : Option Record :=
  match r.point with
  | .phase i => if i < r.bm.phases.length then some { r.bm with currentPhase := i } else none
  | .deploy .. | .monitor _ | .detect .. => some r.bm
  | _ => none

/-- The end of `run_benchmark`. -/
def Cell.finalize (c : Cell) (r : Coroutine) (now : ℕ) : Cell :=
  let status := if r.bm.status = .failed then .failed
    else if r.aborted then .aborted else .completed
  let summary := buildSummary env r.results c.bottlenecks r.maxStableAgents r.peakEps
  let results := { r.bm.results with phases := some r.results, summary := some summary }
  let bm := { r.bm with status := status, completedAt := some now, results := results }
  { c with row := some (save c.row bm), run := none }

/-- A step of the coroutine. -/
def Cell.advance (c : Cell) (r : Coroutine) : Own → Option Cell
  | .enter =>
    match r.point with
    | .phase i => some (c.enter r i)
    | _ => none
  | .deploy answers raised elapsed =>
    match r.point with
    | .deploy i phase =>
      if answers.length = phase.agents ∨ raised = true ∧ answers.length ≤ phase.agents then
        some (c.deploy env r i phase answers raised elapsed)
      else none
    | _ => none
  | .measure m =>
    match r.point with
    | .monitor l =>
      some (Cell.goto { c with metrics := c.metrics ++ m.metrics l.i } r
        (.detect { l with samples := l.samples + 1 } m rules))
    | _ => none
  | .timeUp =>
    match r.point with
    | .monitor l => some (c.timeUp r l)
    | _ => none
  | .detect elapsed =>
    match r.point with
    | .detect l m (rule :: rest) =>
      some (Cell.goto { c with bottlenecks := detectOne l.i m rule c.bottlenecks } r
        (.detect l m rest))
    | .detect l m [] =>
      let live : Live := ⟨l.i, l.phase.label, elapsed, m, l.dep⟩
      let bm := { r.bm with results := { r.bm.results with live := some live } }
      some (c.goto { r with bm := bm } (.asleep l))
    | _ => none
  | .fail error =>
    match r.failsWith with
    | some bm =>
      let results := { bm.results with error := some error }
      some (c.goto { r with bm := { bm with status := .failed, results := results } } .finish)
    | none => none
  | .finalize now =>
    match r.point with
    | .finish => some (c.finalize env r now)
    | _ => none
  | .lose =>
    match r.point with
    | .finish => some (c.goto r .lost)
    | _ => none

/-- Whether the coroutine still has the event loop. -/
def Cell.holdsLoop (c : Cell) : Bool :=
  match c.run with
  | none => false
  | some r => match r.point with
    | .asleep _ | .lost => false
    | _ => true

/-! ## The server -/

/-- `stop_benchmark` -/
def Cell.stop (c : Cell) (now : ℕ) : Cell :=
  match c.run, c.row with
  | some r, _ => { c with run := some { r with bm := { r.bm with status := .stopped } } }
  | none, some row =>
    if row.status = .running then
      { c with row := some (save c.row { row with status := .aborted, completedAt := some now }) }
    else c
  | none, none => c

/-- Whether `stop_benchmark` says that the benchmark is stopped. -/
def Cell.stops (c : Cell) : Bool :=
  match c.run, c.row with
  | some _, _ => true
  | none, some row => decide (row.status = .running)
  | none, none => false

/-- `cleanup_stale_benchmarks`, for one benchmark -/
def Cell.cleanup (c : Cell) (now : ℕ) : Cell :=
  match c.run, c.row with
  | none, some row =>
    if row.status = .running then
      let results :=
        { row.results with abortReason := some ("Server restart or crash recovery".toList) }
      let row := { row with status := .aborted, completedAt := some now, results := results }
      { c with row := some row }
    else c
  | _, _ => c

/-- Whether `prune_finished` deletes a benchmark. -/
def Record.isPruned (row : Record) (before : ℕ) : Bool :=
  decide (row.status ≠ .running ∧ row.status ≠ .pending ∧
    row.completedAt.getD row.createdAt < before)

/-- `prune_finished`, for one benchmark -/
def Cell.prune (c : Cell) (before : ℕ) : Cell :=
  match c.row with
  | some row => if row.isPruned before then { Cell.empty with run := c.run } else c
  | none => c

structure World where
  cells : ℕ → Cell
  /-- the benchmark whose coroutine has the event loop -/
  loop : Option ℕ
  up : Bool
  /-- the next id -/
  next : ℕ

def World.initial : World := { cells := fun _ => .empty, loop := none, up := true, next := 0 }

inductive Action where
  | start (scenarioId : Text) (config : Config) (now : ℕ)
  | own (a : Own)
  /-- a sleep is over -/
  | wake (id : ℕ)
  | stop (id : ℕ) (now : ℕ)
  | cleanup (now : ℕ)
  /-- the thread that deletes what is old does not wait for the event loop -/
  | prune (before : ℕ)
  | crash
  | restart (now : ℕ)

def World.put (w : World) (id : ℕ) (c : Cell) : World :=
  { w with cells := Function.update w.cells id c }

def step (w : World) : Action → Option World
  | .start scenarioId config now =>
    match scenarios.find? fun s => s.id = scenarioId with
    | some s =>
      if w.up ∧ w.loop = none then
        some { w.put w.next (start s config now) with loop := some w.next, next := w.next + 1 }
      else none
    | none => none
  | .own a =>
    match w.loop with
    | some id =>
      match (w.cells id).run with
      | some r => ((w.cells id).advance env r a).map fun c =>
          { w.put id c with loop := if c.holdsLoop then some id else none }
      | none => none
    | none => none
  | .wake id =>
    match (w.cells id).run with
    | some r => match r.point with
      | .asleep l =>
        if w.loop = none then
          some { w.put id ((w.cells id).goto r (.monitor l)) with loop := some id }
        else none
      | _ => none
    | none => none
  | .stop id now =>
    if w.up ∧ w.loop = none then some (w.put id ((w.cells id).stop now)) else none
  | .cleanup now =>
    if w.up ∧ w.loop = none then
      some { w with cells := fun id => (w.cells id).cleanup now }
    else none
  | .prune before =>
    if w.up then some { w with cells := fun id => (w.cells id).prune before } else none
  | .crash =>
    if w.up then
      some { w with cells := fun id => { w.cells id with run := none }, loop := none, up := false }
    else none
  | .restart now =>
    if w.up = false then
      some { w with cells := fun id => (w.cells id).cleanup now, up := true }
    else none

end

end Habeny.Benchmarks
