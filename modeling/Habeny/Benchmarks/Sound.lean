import Habeny.Benchmarks.Moves

/-!
# What always holds of a benchmark

The bottlenecks that are stored say what the measurements were, but for the last one while the
rules look at it; and the results so far are those of the first phases.  Every move of a benchmark
keeps this.
-/

namespace Habeny.Benchmarks

open Habeny.Lib

variable {env : Arithmetic} {up up' : Bool} {c c' : Cell} {r r' : Coroutine}

/-! ## Bottlenecks and measurements -/

/-- The measurements of the system that exceed the threshold of a rule, with their phases. -/
def readings (ms : List Metric) (rule : Rule) : List (ℕ × ℚ) :=
  (ms.filter fun m => decide (m.category = .system ∧ m.name = rule.metric ∧
    rule.threshold < m.value)).map fun m => (m.phase, m.value)

/-- The row that a rule has for what exceeded its threshold. -/
def Rule.row (rule : Rule) (t : Tally (ℕ × ℚ)) : Bottleneck :=
  { phase := t.first.1, severity := rule.severity, component := rule.component,
    title := rule.title, described := t.first.2, threshold := rule.threshold, actual := t.last.2,
    recommendation := rule.recommendation, occurrences := t.count }

/-- The bottlenecks have the row of a rule, when something exceeded its threshold, and no other. -/
def Tells (ms : List Metric) (bs : List Bottleneck) (rule : Rule) : Prop :=
  bs.filter (fun b => decide (b.key = rule.key)) = ((tally (readings ms rule)).map rule.row).toList

lemma readings_append (ms ms' : List Metric) (rule : Rule) :
    readings (ms ++ ms') rule = readings ms rule ++ readings ms' rule := by
  simp [readings]

/-- Only measurements of the system are looked at. -/
lemma readings_of_ne {category : Category} (hne : category ≠ .system) (i : ℕ)
    (es : List (MetricName × ℚ)) (rule : Rule) :
    readings (es.map fun e => ⟨i, category, e.1, e.2⟩) rule = [] := by
  rw [readings, List.filter_eq_nil_iff.mpr, List.map_nil]
  intro m hm
  obtain ⟨e, -, rfl⟩ := List.mem_map.mp hm
  simp [hne]

@[simp] lemma readings_dep (d : DepMetrics) (i : ℕ) (rule : Rule) :
    readings (d.metrics i) rule = [] := readings_of_ne (by simp) i d.entries rule

/-- What a rule finds in one measurement. -/
def Rule.found (rule : Rule) (i : ℕ) (m : Sample) : List (ℕ × ℚ) :=
  match m.value rule.metric with
  | some v => if rule.threshold < v then [(i, v)] else []
  | none => []

/-- What the rules look at. -/
lemma metric_of_mem : ∀ rule ∈ rules, 0 ≤ rule.threshold ∧ rule.metric ∈
    [.systemCpuPercent, .systemMemoryPercent, .systemDiskPercent, .systemLoadPerCore,
      .deployFailureRate, .deployTimeP90, .apiLatencyP90, .agentDisconnectRate] := by decide

lemma readings_sample {rule : Rule} (hrule : rule ∈ rules) (m : Sample) (i : ℕ) :
    readings (m.metrics i) rule = rule.found i m := by
  obtain ⟨hthreshold, hmetric⟩ := metric_of_mem rule hrule
  obtain ⟨component, metric, threshold, severity, title, recommendation⟩ := rule
  have hcontainer : Category.container ≠ .system := by decide
  rw [Sample.metrics, readings_append, readings_of_ne hcontainer, List.append_nil, Rule.found]
  cases hsystem : m.system with
  | none =>
    -- a value that is missing counts as 0, which exceeds nothing
    have hnot : ¬ threshold < 0 := not_lt.mpr hthreshold
    cases metric <;> simp [readings, Sample.value, hsystem, hnot]
  | some s =>
    simp only [List.mem_cons, List.not_mem_nil, or_false] at hmetric
    rcases hmetric with rfl | rfl | rfl | rfl | rfl | rfl | rfl | rfl <;>
      simp [readings, Sample.value, hsystem, SystemMetrics.entries, List.filter_cons,
        apply_ite (List.map _)]

/-- Two rules differ in what their rows are known by. -/
lemma nodup_keys : (rules.map Rule.key).Nodup := by decide

section

variable {ms ms' : List Metric} {bs : List Bottleneck} {rule rule' : Rule}

lemma tells_append (h : Tells ms bs rule) (hnone : readings ms' rule = []) :
    Tells (ms ++ ms') bs rule := by
  rw [Tells, readings_append, hnone, List.append_nil]
  exact h

/-- A rule has looked at a measurement: its row counts it. -/
lemma tells_detectOne (hrule : rule ∈ rules) {m : Sample} {i : ℕ} (h : Tells ms bs rule) :
    Tells (ms ++ m.metrics i) (detectOne i m rule bs) rule := by
  have hunchanged : rule.found i m = [] → detectOne i m rule bs = bs →
      Tells (ms ++ m.metrics i) (detectOne i m rule bs) rule := by
    intro hfound hsame
    rw [hsame]
    exact tells_append h (by rw [readings_sample hrule, hfound])
  cases hvalue : m.value rule.metric with
  | none => exact hunchanged (by simp [Rule.found, hvalue]) (by simp [detectOne, hvalue])
  | some v =>
    by_cases hexceeds : rule.threshold < v
    · have hfound : rule.found i m = [(i, v)] := by simp [Rule.found, hvalue, hexceeds]
      have hdetect : detectOne i m rule bs = recordBottleneck i rule v bs := by
        simp [detectOne, hvalue, hexceeds]
      have henter : (recordBottleneck i rule v bs).filter (fun b => decide (b.key = rule.key)) =
          enterFound (Bottleneck.again v) (rule.newRow i v)
            (bs.filter fun b => decide (b.key = rule.key)) :=
        filter_enter (Bottleneck.key_again v) rfl
      rw [h] at henter
      rw [Tells, readings_append, readings_sample hrule, hfound, tally_concat, hdetect, henter]
      cases tally (readings ms rule) <;> rfl
    · exact hunchanged (by simp [Rule.found, hvalue, hexceeds])
        (by simp [detectOne, hvalue, hexceeds])

/-- The rows of the other rules are left. -/
lemma tells_detectOne_of_ne {m : Sample} {i : ℕ} (hne : rule.key ≠ rule'.key)
    (h : Tells ms bs rule') : Tells ms (detectOne i m rule bs) rule' := by
  unfold detectOne
  split
  · next v _ =>
    split
    · have hother : (recordBottleneck i rule v bs).filter (fun b => decide (b.key = rule'.key)) =
          bs.filter fun b => decide (b.key = rule'.key) :=
        filter_enter_of_ne (Bottleneck.key_again v) hne
      rw [Tells, hother]
      exact h
    · exact h
  · exact h

end

/-! ## The results of the phases -/

/-- Whether so many containers of a phase could not be made that the benchmark is aborted. -/
def Exceeds (env : Arithmetic) (threshold : ℚ) (agents failures : ℕ) : Prop :=
  0 < agents ∧ threshold < env.share failures agents

/-- What a result says of its phase. -/
structure PhaseResult.Of (env : Arithmetic) (threshold : ℚ) (i : ℕ) (phase : Phase)
    (p : PhaseResult) : Prop where
  index : p.phase = i
  label : p.label = phase.label
  total : p.dep.total = phase.agents
  sum : p.dep.success + p.dep.failures = phase.agents
  outcome : (∃ samples, p.outcome = .completed phase.agents phase.eps phase.duration samples) ∨
    p.outcome = .aborted (env.share p.dep.failures phase.agents) threshold
  completed_iff : p.isCompleted = true ↔ ¬ Exceeds env threshold phase.agents p.dep.failures

/-- The events for each second that a phase was completed with. -/
def PhaseResult.eps (p : PhaseResult) : ℕ :=
  match p.outcome with
  | .completed _ eps _ _ => eps
  | .aborted .. => 0

/-- The results are those of the first phases, and only the last one may be aborted. -/
structure Reports (env : Arithmetic) (threshold : ℚ) (phases : List Phase)
    (results : List PhaseResult) : Prop where
  of : ∀ (j : ℕ) (p : PhaseResult), results[j]? = some p →
    ∃ phase, phases[j]? = some phase ∧ p.Of env threshold j phase
  before : ∀ (j : ℕ) (p : PhaseResult), results[j]? = some p → j + 1 < results.length →
    p.isCompleted = true

/-- The greatest number of the phases that were completed, or 0. -/
structure IsPeak (f : PhaseResult → ℕ) (results : List PhaseResult) (n : ℕ) : Prop where
  le : ∀ p ∈ results, p.isCompleted = true → f p ≤ n
  attained : n = 0 ∨ ∃ p ∈ results, p.isCompleted = true ∧ f p = n

lemma IsPeak.empty (f : PhaseResult → ℕ) : IsPeak f [] 0 where
  le _ h := absurd h List.not_mem_nil
  attained := .inl rfl

lemma IsPeak.snoc {f : PhaseResult → ℕ} {results : List PhaseResult} {n : ℕ}
    (h : IsPeak f results n) {p : PhaseResult} (hp : p.isCompleted = true) :
    IsPeak f (results ++ [p]) (max n (f p)) where
  le q hq hc := by
    rcases List.mem_append.mp hq with hq | hq
    · exact (h.le q hq hc).trans (le_max_left _ _)
    · rw [List.mem_singleton.mp hq]
      exact le_max_right _ _
  attained := by
    rcases le_total n (f p) with hle | hle
    · exact .inr ⟨p, by simp, hp, (max_eq_right hle).symm⟩
    · rw [max_eq_left hle]
      exact h.attained.imp id fun ⟨q, hq, hc⟩ => ⟨q, by simp [hq], hc⟩

lemma IsPeak.snoc_aborted {f : PhaseResult → ℕ} {results : List PhaseResult} {n : ℕ}
    (h : IsPeak f results n) {p : PhaseResult} (hp : p.isCompleted = false) :
    IsPeak f (results ++ [p]) n where
  le q hq hc := by
    rcases List.mem_append.mp hq with hq | hq
    · exact h.le q hq hc
    · rw [List.mem_singleton.mp hq, hp] at hc
      cases hc
  attained := h.attained.imp id fun ⟨q, hq, hc⟩ => ⟨q, by simp [hq], hc⟩

lemma Reports.snoc {threshold : ℚ} {phases : List Phase} {results : List PhaseResult}
    (h : Reports env threshold phases results) (hall : ∀ p ∈ results, p.isCompleted = true)
    {phase : Phase} (hphase : phases[results.length]? = some phase) {p : PhaseResult}
    (hp : p.Of env threshold results.length phase) :
    Reports env threshold phases (results ++ [p]) where
  of j q hq := by
    rcases Nat.lt_trichotomy j results.length with hlt | rfl | hgt
    · rw [List.getElem?_append_left hlt] at hq
      exact h.of j q hq
    · rw [List.getElem?_concat_length, Option.some.injEq] at hq
      exact ⟨phase, hphase, hq ▸ hp⟩
    · rw [List.getElem?_eq_none (by simp; omega)] at hq
      cases hq
  before j q hq hj := by
    have hlt : j < results.length := by
      rw [List.length_append, List.length_singleton] at hj
      omega
    rw [List.getElem?_append_left hlt] at hq
    exact hall q (List.mem_of_getElem? hq)

/-! ## What always holds of a benchmark -/

/-- The first phases are done. -/
structure Coroutine.Done (env : Arithmetic) (r : Coroutine) (i : ℕ) : Prop where
  length : r.results.length = i
  reports : Reports env r.threshold r.bm.phases r.results
  all : ∀ p ∈ r.results, p.isCompleted = true
  agents : IsPeak (fun p => p.dep.success) r.results r.maxStableAgents
  eps : IsPeak PhaseResult.eps r.results r.peakEps
  goesOn : r.aborted = false

/-- What is known of the phase that goes on. -/
structure Local.Of (env : Arithmetic) (r : Coroutine) (l : Local) : Prop where
  phase : r.bm.phases[l.i]? = some l.phase
  total : l.dep.total = l.phase.agents
  sum : l.dep.success + l.dep.failures = l.phase.agents
  goesOn : ¬ Exceeds env r.threshold l.phase.agents l.dep.failures
  status : r.bm.status = .running ∨ r.bm.status = .stopped

/-- What a benchmark comes to: it is completed when it has been through all phases. -/
structure Ended (env : Arithmetic) (threshold : ℚ) (phases : List Phase)
    (results : List PhaseResult) (status : Status) : Prop where
  reports : Reports env threshold phases results
  completed_iff : status = .completed ↔
    results.length = phases.length ∧ ∀ p ∈ results, p.isCompleted = true
  failed : status = .failed → ∀ p ∈ results, p.isCompleted = true
  status : status = .completed ∨ status = .aborted ∨ status = .failed

/-- The status that `run_benchmark` ends with. -/
def Coroutine.finalStatus (r : Coroutine) : Status :=
  if r.bm.status = .failed then .failed else if r.aborted then .aborted else .completed

/-- All rules have told what there was. -/
def Cell.TellsAll (c : Cell) : Prop := ∀ rule ∈ rules, Tells c.metrics c.bottlenecks rule

/-- Some rules have yet to look at the last measurement. -/
def Cell.TellsBut (c : Cell) (l : Local) (m : Sample) (rest : List Rule) : Prop :=
  ∃ before told, c.metrics = before ++ m.metrics l.i ∧ rules = told ++ rest ∧
    (∀ rule ∈ told, Tells c.metrics c.bottlenecks rule) ∧
    ∀ rule ∈ rest, Tells before c.bottlenecks rule

/-- What holds of a benchmark whose coroutine is at a point. -/
def Coroutine.Sound (env : Arithmetic) (c : Cell) (r : Coroutine) : Prop :=
  match r.point with
  | .phase i => r.Done env i ∧ i ≤ r.bm.phases.length ∧ r.bm.status = .running ∧ c.TellsAll
  | .deploy i phase =>
    r.Done env i ∧ r.bm.phases[i]? = some phase ∧ r.bm.status = .running ∧ c.TellsAll
  | .monitor l | .asleep l => r.Done env l.i ∧ l.Of env r ∧ c.TellsAll
  | .detect l m rest => r.Done env l.i ∧ l.Of env r ∧ c.TellsBut l m rest
  | .finish =>
    Ended env r.threshold r.bm.phases r.results r.finalStatus ∧
      IsPeak (fun p => p.dep.success) r.results r.maxStableAgents ∧
      IsPeak PhaseResult.eps r.results r.peakEps ∧ (r.finalStatus ≠ .failed → c.TellsAll)
  | .lost => True

/-- The failures that a benchmark is aborted for. -/
def Record.HasThreshold (row : Record) (threshold : ℚ) : Prop :=
  ∃ s ∈ scenarios, s.id = row.scenarioId ∧
    threshold = row.config.failureThreshold.getD s.failureThreshold

/-- The row of a benchmark that runs, or was running when the server ended. -/
structure Record.Unfinished (row : Record) : Prop where
  status : row.status = .running
  completedAt : row.completedAt = none
  phases : row.results.phases = none
  summary : row.results.summary = none

/-- The row of a benchmark that has run to its end. -/
structure Record.Final (env : Arithmetic) (c : Cell) (row : Record) (threshold : ℚ)
    (results : List PhaseResult) (maxAgents peakEps : ℕ) : Prop where
  hasThreshold : row.HasThreshold threshold
  ended : Ended env threshold row.phases results row.status
  phases : row.results.phases = some results
  summary : row.results.summary = some (buildSummary env results c.bottlenecks maxAgents peakEps)
  agents : IsPeak (fun p => p.dep.success) results maxAgents
  eps : IsPeak PhaseResult.eps results peakEps
  tells : row.status ≠ .failed → c.TellsAll
  completedAt : row.completedAt.isSome = true

/-- The row of a benchmark that was running when the server ended. -/
structure Record.Recovered (row : Record) : Prop where
  status : row.status = .aborted
  phases : row.results.phases = none
  summary : row.results.summary = none
  completedAt : row.completedAt.isSome = true

structure Cell.Sound (env : Arithmetic) (up : Bool) (c : Cell) : Prop where
  blank : c.row = none → c = .empty
  known : ∀ b ∈ c.bottlenecks, ∃ rule ∈ rules, b.key = rule.key
  secret : ∀ row, c.row = some row → row.config.siemAuthKey = none
  active : ∀ r, c.run = some r → up = true ∧ r.Sound env c ∧
    r.bm.results.phases = none ∧ r.bm.results.summary = none ∧ r.bm.completedAt = none ∧
    ∃ row, c.row = some row ∧ row.Unfinished ∧ row.phases = r.bm.phases ∧
      row.HasThreshold r.threshold
  resting : ∀ row, c.run = none → c.row = some row →
    row.Unfinished ∧ up = false ∨ row.Recovered ∨
      ∃ threshold results maxAgents peakEps,
        row.Final env c threshold results maxAgents peakEps

/-! ## What the steps keep -/

lemma sound_empty (up : Bool) : Cell.empty.Sound env up where
  blank _ := rfl
  known _ h := absurd h List.not_mem_nil
  secret _ h := by cases h
  active _ h := by cases h
  resting _ _ h := by cases h

/-- The coroutine goes on, and the row is still that of a benchmark that runs. -/
lemma Cell.Sound.goOn (h : c.Sound env up) (hrun : c.run = some r) {row : Record}
    (hrun' : c'.run = some r') (hrow : c'.row = some row) (hrunning : row.Unfinished)
    (hkept : row.phases = r'.bm.phases) (hthreshold : row.HasThreshold r'.threshold)
    (hsecret : row.config.siemAuthKey = none) (hphases : r'.bm.results.phases = none)
    (hsummary : r'.bm.results.summary = none) (hcompletedAt : r'.bm.completedAt = none)
    (hknown : ∀ b ∈ c'.bottlenecks, ∃ rule ∈ rules, b.key = rule.key)
    (hsound : r'.Sound env c') : c'.Sound env up where
  blank hnone := by
    rw [hrow] at hnone
    cases hnone
  known := hknown
  secret row' hrow' := by
    rw [hrow, Option.some.injEq] at hrow'
    exact hrow' ▸ hsecret
  active r'' hrun'' := by
    rw [hrun', Option.some.injEq] at hrun''
    subst hrun''
    exact ⟨(h.active r hrun).1, hsound, hphases, hsummary, hcompletedAt, row, hrow, hrunning, hkept,
      hthreshold⟩
  resting row' hnone := by
    rw [hrun'] at hnone
    cases hnone

/-- The same, where nothing is stored and only the results change. -/
lemma Cell.Sound.goes (h : c.Sound env up) (hrun : c.run = some r) (hrun' : c'.run = some r')
    (hrow : c'.row = c.row) (hphases : r'.bm.phases = r.bm.phases)
    (hthreshold : r'.threshold = r.threshold)
    (hresults : r'.bm.results.phases = r.bm.results.phases)
    (hsummary : r'.bm.results.summary = r.bm.results.summary)
    (hcompletedAt : r'.bm.completedAt = r.bm.completedAt)
    (hknown : ∀ b ∈ c'.bottlenecks, ∃ rule ∈ rules, b.key = rule.key)
    (hsound : r'.Sound env c') : c'.Sound env up := by
  obtain ⟨-, -, hp, hs, hc, row, hcrow, hrunning, hkept, hhas⟩ := h.active r hrun
  exact h.goOn hrun hrun' (hrow.trans hcrow) hrunning (hkept.trans hphases.symm) (hthreshold ▸ hhas)
    (h.secret row hcrow) (hresults.trans hp) (hsummary.trans hs) (hcompletedAt.trans hc) hknown
    hsound

lemma sound_start {s : Scenario} (hs : s ∈ scenarios) (config : Config) (now : ℕ) :
    (start s config now).Sound env true where
  blank h := by cases h
  known _ h := absurd h List.not_mem_nil
  secret row hrow := by
    obtain rfl := Option.some.inj hrow
    rfl
  active r hrun := by
    obtain rfl := Option.some.inj hrun
    refine ⟨rfl, ⟨⟨rfl, ⟨fun _ _ h => ?_, fun _ _ h => ?_⟩, fun _ h => ?_, .empty _, .empty _, rfl⟩,
      Nat.zero_le _, rfl, fun rule _ => rfl⟩, rfl, rfl, rfl, _, rfl, ⟨rfl, rfl, rfl, rfl⟩, rfl,
      s, hs, rfl, rfl⟩
    · cases h
    · cases h
    · cases h
  resting _ h := by cases h

lemma Cell.Sound.enter (h : c.Sound env up) (hrun : c.run = some r) {i : ℕ}
    (hpoint : r.point = .phase i) : (c.enter r i).Sound env up := by
  obtain ⟨-, hsound, hp, hs, hc, row, hrow, hrunning, hkept, hhas⟩ := h.active r hrun
  rw [Coroutine.Sound, hpoint] at hsound
  obtain ⟨hdone, hle, hstatus, htells⟩ := hsound
  cases hphase : r.bm.phases[i]? with
  | none =>
    have henter : c.enter r i = c.goto r .finish := by rw [Cell.enter, hphase]
    have hlength : r.results.length = r.bm.phases.length := by
      have hge := List.getElem?_eq_none_iff.mp hphase
      have := hdone.length
      omega
    have hfinal : r.finalStatus = .completed := by
      simp [Coroutine.finalStatus, hstatus, hdone.goesOn]
    rw [henter]
    refine h.goes hrun rfl rfl rfl rfl rfl rfl rfl h.known ?_
    refine ⟨⟨hdone.reports, ?_, fun _ => hdone.all, .inl hfinal⟩, hdone.agents, hdone.eps,
      fun _ => htells⟩
    exact ⟨fun _ => ⟨hlength, hdone.all⟩, fun _ => hfinal⟩
  | some phase =>
    have henter : c.enter r i = { c with
        row := some (save c.row { r.bm with currentPhase := i, status := .running })
        run := some { r with
          bm := { r.bm with currentPhase := i, status := .running }
          point := .deploy i phase } } := by
      rw [Cell.enter, hphase]
    rw [henter, hrow]
    refine h.goOn hrun rfl rfl ⟨rfl, hc, hp, hs⟩ hkept hhas (h.secret row hrow) hp hs hc h.known ?_
    exact ⟨⟨hdone.length, hdone.reports, hdone.all, hdone.agents, hdone.eps, hdone.goesOn⟩, hphase,
      rfl, htells⟩

/-- More measurements that no rule looks at. -/
lemma Cell.TellsAll.append (h : c.TellsAll) {ms : List Metric}
    (hnone : ∀ rule, readings ms rule = []) :
    Cell.TellsAll { c with metrics := c.metrics ++ ms } :=
  fun rule hrule => tells_append (h rule hrule) (hnone rule)

lemma Cell.Sound.deploy (h : c.Sound env up) (hrun : c.run = some r) {i : ℕ} {phase : Phase}
    (hpoint : r.point = .deploy i phase) {answers : List Answer} {raised : Bool}
    (hanswers : answers.length = phase.agents ∨ raised = true ∧ answers.length ≤ phase.agents)
    (elapsed : ℚ) : (c.deploy env r i phase answers raised elapsed).Sound env up := by
  obtain ⟨-, hsound, -⟩ := h.active r hrun
  rw [Coroutine.Sound, hpoint] at hsound
  obtain ⟨hdone, hphase, hstatus, htells⟩ := hsound
  rw [Cell.deploy]
  generalize hfailures : (if raised = true then phase.agents else answers.countP Answer.failed) =
    failures
  have hle : failures ≤ phase.agents := by
    rw [← hfailures]
    split
    · exact le_rfl
    · next hnot =>
      rcases hanswers with hlength | ⟨hraised, -⟩
      · exact hlength ▸ List.countP_le_length
      · exact absurd hraised hnot
  generalize hdep : depMetrics env phase.agents failures (answers.filterMap Answer.time?) elapsed =
    dep
  have htotal : dep.total = phase.agents := by rw [← hdep]; rfl
  have hdepFailures : dep.failures = failures := by rw [← hdep]; rfl
  have hsum : dep.success + dep.failures = phase.agents := by
    rw [← hdep]
    exact Nat.sub_add_cancel hle
  have htells' := htells.append fun rule => readings_dep dep i rule
  have hi : i < r.bm.phases.length := (List.getElem?_eq_some_iff.mp hphase).1
  dsimp only
  split
  · next hexceeds =>
    let result : PhaseResult :=
      ⟨i, phase.label, .aborted (env.share failures phase.agents) r.threshold, dep⟩
    have hof : result.Of env r.threshold r.results.length phase := by
      refine ⟨hdone.length.symm, rfl, htotal, hsum, .inr (by rw [hdepFailures]), ?_⟩
      refine ⟨fun hcompleted => (by cases hcompleted), fun hnot => absurd ?_ hnot⟩
      rw [hdepFailures]
      exact hexceeds
    have hphase' : r.bm.phases[r.results.length]? = some phase := hdone.length ▸ hphase
    refine h.goes hrun rfl rfl rfl rfl rfl rfl rfl h.known ?_
    refine ⟨⟨hdone.reports.snoc hdone.all hphase' hof, ?_, fun hfailed => ?_, ?_⟩,
      hdone.agents.snoc_aborted rfl, hdone.eps.snoc_aborted rfl, fun _ => htells'⟩
    · have hnotAll : ¬ ∀ p ∈ r.results ++ [result], p.isCompleted = true := by
        intro hall
        have hlast := hall result (by simp)
        cases hlast
      have hfinal : Coroutine.finalStatus { r with
          results := r.results ++ [result], aborted := true, point := .finish } ≠ .completed := by
        simp [Coroutine.finalStatus, hstatus]
      exact ⟨fun hcompleted => absurd hcompleted hfinal, fun hall => absurd hall.2 hnotAll⟩
    · simp [Coroutine.finalStatus, hstatus] at hfailed
    · simp [Coroutine.finalStatus, hstatus]
  · next hnot =>
    refine h.goes hrun rfl rfl rfl rfl rfl rfl rfl h.known ?_
    exact ⟨⟨hdone.length, hdone.reports, hdone.all, hdone.agents, hdone.eps, hdone.goesOn⟩,
      ⟨hphase, htotal, hsum, hdepFailures ▸ hnot, .inl hstatus⟩, htells'⟩

lemma Cell.Sound.measure (h : c.Sound env up) (hrun : c.run = some r) {l : Local}
    (hpoint : r.point = .monitor l) (m : Sample) :
    (Cell.goto { c with metrics := c.metrics ++ m.metrics l.i } r
      (.detect { l with samples := l.samples + 1 } m rules)).Sound env up := by
  obtain ⟨-, hsound, -⟩ := h.active r hrun
  rw [Coroutine.Sound, hpoint] at hsound
  obtain ⟨hdone, hl, htells⟩ := hsound
  refine h.goes hrun rfl rfl rfl rfl rfl rfl rfl h.known ?_
  refine ⟨⟨hdone.length, hdone.reports, hdone.all, hdone.agents, hdone.eps, hdone.goesOn⟩,
    ⟨hl.phase, hl.total, hl.sum, hl.goesOn, hl.status⟩, c.metrics, [], rfl, rfl, ?_, htells⟩
  intro rule hrule
  exact absurd hrule List.not_mem_nil

lemma Cell.Sound.timeUp (h : c.Sound env up) (hrun : c.run = some r) {l : Local}
    (hpoint : r.point = .monitor l) : (c.timeUp r l).Sound env up := by
  obtain ⟨-, hsound, -⟩ := h.active r hrun
  rw [Coroutine.Sound, hpoint] at hsound
  obtain ⟨hdone, hl, htells⟩ := hsound
  have hi : l.i < r.bm.phases.length := (List.getElem?_eq_some_iff.mp hl.phase).1
  have hlength := hdone.length
  rw [Cell.timeUp]
  split
  · next hstopped =>
    refine h.goes hrun rfl rfl rfl rfl rfl rfl rfl h.known ?_
    have hfinal : Coroutine.finalStatus { r with aborted := true, point := .finish } =
        .aborted := by simp [Coroutine.finalStatus, hstopped]
    refine ⟨⟨hdone.reports, ?_, fun _ => hdone.all, .inr (.inl hfinal)⟩, hdone.agents, hdone.eps,
      fun _ => htells⟩
    rw [hfinal]
    refine ⟨fun heq => (by cases heq), fun hall => ?_⟩
    have := hall.1
    dsimp only at this
    omega
  · next hnot =>
    have hrunning : r.bm.status = .running := hl.status.resolve_right hnot
    have hphase' : r.bm.phases[r.results.length]? = some l.phase := hlength ▸ hl.phase
    let result : PhaseResult :=
      ⟨l.i, l.phase.label, .completed l.phase.agents l.phase.eps l.phase.duration l.samples, l.dep⟩
    have hof : result.Of env r.threshold r.results.length l.phase :=
      ⟨hlength.symm, rfl, hl.total, hl.sum, .inl ⟨l.samples, rfl⟩,
        fun _ => hl.goesOn, fun _ => rfl⟩
    have hsuccess : l.phase.agents - l.dep.failures = result.dep.success := by
      have := hl.sum
      show _ = l.dep.success
      omega
    refine h.goes hrun rfl rfl rfl rfl rfl rfl rfl h.known ?_
    refine ⟨⟨?_, hdone.reports.snoc hdone.all hphase' hof, ?_, ?_, hdone.eps.snoc rfl,
      hdone.goesOn⟩, ?_, hrunning, htells⟩
    · simp [hlength]
    · exact List.forall_mem_append.mpr ⟨hdone.all, by simp [PhaseResult.isCompleted]⟩
    · rw [hsuccess]
      exact hdone.agents.snoc rfl
    · exact hi

/-- One rule has looked at the last measurement. -/
lemma Cell.TellsBut.next {l : Local} {m : Sample} {rule : Rule} {rest : List Rule}
    (h : c.TellsBut l m (rule :: rest)) :
    Cell.TellsBut { c with bottlenecks := detectOne l.i m rule c.bottlenecks } l m rest := by
  obtain ⟨before, told, hmetrics, hrules, htold, hrest⟩ := h
  have hkeys := nodup_keys
  rw [hrules, List.map_append, List.map_cons, List.nodup_append] at hkeys
  obtain ⟨-, hnodup, hdisjoint⟩ := hkeys
  refine ⟨before, told ++ [rule], hmetrics, by simp [hrules], fun rule' hrule' => ?_,
    fun rule' hrule' => ?_⟩
  · rcases List.mem_append.mp hrule' with hold | hnew
    · have hne : rule.key ≠ rule'.key := (hdisjoint rule'.key (List.mem_map_of_mem hold) rule.key
        List.mem_cons_self).symm
      exact tells_detectOne_of_ne hne (htold rule' hold)
    · rw [List.mem_singleton.mp hnew]
      show Tells c.metrics _ rule
      rw [hmetrics]
      exact tells_detectOne (by simp [hrules]) (hrest rule List.mem_cons_self)
  · have hne : rule.key ≠ rule'.key := fun heq =>
      (List.nodup_cons.mp hnodup).1 (heq ▸ List.mem_map_of_mem hrule')
    exact tells_detectOne_of_ne hne (hrest rule' (List.mem_cons_of_mem rule hrule'))

/-- All rules have looked. -/
lemma Cell.TellsBut.all {l : Local} {m : Sample} (h : c.TellsBut l m []) : c.TellsAll := by
  obtain ⟨before, told, -, hrules, htold, -⟩ := h
  rw [List.append_nil] at hrules
  exact fun rule hrule => htold rule (hrules ▸ hrule)

lemma known_detectOne {bs : List Bottleneck} (h : ∀ b ∈ bs, ∃ rule ∈ rules, b.key = rule.key)
    {rule : Rule} (hrule : rule ∈ rules) (i : ℕ) (m : Sample) :
    ∀ b ∈ detectOne i m rule bs, ∃ rule ∈ rules, b.key = rule.key := by
  unfold detectOne
  split
  · split
    · exact forall_mem_enter h (fun _ hb => hb) ⟨rule, hrule, rfl⟩
    · exact h
  · exact h

lemma Cell.Sound.detect (h : c.Sound env up) (hrun : c.run = some r) {l : Local} {m : Sample}
    {rule : Rule} {rest : List Rule} (hpoint : r.point = .detect l m (rule :: rest)) :
    (Cell.goto { c with bottlenecks := detectOne l.i m rule c.bottlenecks } r
      (.detect l m rest)).Sound env up := by
  obtain ⟨-, hsound, -⟩ := h.active r hrun
  rw [Coroutine.Sound, hpoint] at hsound
  obtain ⟨hdone, hl, htells⟩ := hsound
  have hrule : rule ∈ rules := by
    obtain ⟨-, told, -, hrules, -⟩ := htells
    simp [hrules]
  refine h.goes hrun rfl rfl rfl rfl rfl rfl rfl (known_detectOne h.known hrule l.i m) ?_
  exact ⟨⟨hdone.length, hdone.reports, hdone.all, hdone.agents, hdone.eps, hdone.goesOn⟩,
    ⟨hl.phase, hl.total, hl.sum, hl.goesOn, hl.status⟩, htells.next⟩

lemma Cell.Sound.sleep (h : c.Sound env up) (hrun : c.run = some r) {l : Local} {m : Sample}
    (hpoint : r.point = .detect l m []) (live : Live) :
    (c.goto { r with bm := { r.bm with results := { r.bm.results with live := some live } } }
      (.asleep l)).Sound env up := by
  obtain ⟨-, hsound, -⟩ := h.active r hrun
  rw [Coroutine.Sound, hpoint] at hsound
  obtain ⟨hdone, hl, htells⟩ := hsound
  refine h.goes hrun rfl rfl rfl rfl rfl rfl rfl h.known ?_
  exact ⟨⟨hdone.length, hdone.reports, hdone.all, hdone.agents, hdone.eps, hdone.goesOn⟩,
    ⟨hl.phase, hl.total, hl.sum, hl.goesOn, hl.status⟩, htells.all⟩

/-- Where an exception may come from, some phases are done and one is not. -/
lemma Coroutine.Sound.failsWith (h : r.Sound env c) {bm : Record} (hbm : r.failsWith = some bm) :
    (∃ i, r.Done env i ∧ i < r.bm.phases.length) ∧
      ∃ n, bm = { r.bm with currentPhase := n } := by
  unfold Coroutine.failsWith at hbm
  cases hpoint : r.point with
  | phase i =>
    rw [Coroutine.Sound, hpoint] at h
    rw [hpoint] at hbm
    dsimp only at hbm
    split at hbm
    · next hi => exact ⟨⟨i, h.1, hi⟩, i, (Option.some.inj hbm).symm⟩
    · cases hbm
  | deploy i phase =>
    rw [Coroutine.Sound, hpoint] at h
    rw [hpoint] at hbm
    exact ⟨⟨i, h.1, (List.getElem?_eq_some_iff.mp h.2.1).1⟩, _, (Option.some.inj hbm).symm⟩
  | monitor l | detect l m rest =>
    rw [Coroutine.Sound, hpoint] at h
    rw [hpoint] at hbm
    exact ⟨⟨l.i, h.1, (List.getElem?_eq_some_iff.mp h.2.1.phase).1⟩, _,
      (Option.some.inj hbm).symm⟩
  | asleep l | finish | lost =>
    rw [hpoint] at hbm
    cases hbm

lemma Cell.Sound.fail (h : c.Sound env up) (hrun : c.run = some r) {bm : Record}
    (hbm : r.failsWith = some bm) (error : Text) :
    (c.goto { r with bm := { bm with
      status := .failed, results := { bm.results with error := some error } } }
      .finish).Sound env up := by
  obtain ⟨-, hsound, -⟩ := h.active r hrun
  obtain ⟨⟨i, hdone, hi⟩, n, rfl⟩ := hsound.failsWith hbm
  refine h.goes hrun rfl rfl rfl rfl rfl rfl rfl h.known ?_
  have hlength := hdone.length
  refine ⟨⟨hdone.reports, ?_, fun _ => hdone.all, .inr (.inr (if_pos rfl))⟩, hdone.agents,
    hdone.eps, fun hnot => absurd (if_pos rfl) hnot⟩
  have hfinal : Coroutine.finalStatus { r with
      bm := { r.bm with
        currentPhase := n, status := .failed,
        results := { r.bm.results with error := some error } }
      point := .finish } = .failed := if_pos rfl
  rw [hfinal]
  refine ⟨fun heq => (by cases heq), fun hall => ?_⟩
  have := hall.1
  dsimp only at this
  omega

lemma Cell.Sound.finalize (h : c.Sound env up) (hrun : c.run = some r) (hpoint : r.point = .finish)
    (now : ℕ) : (c.finalize env r now).Sound env up := by
  obtain ⟨-, hsound, -, -, -, row, hrow, hrunning, hkept, hhas⟩ := h.active r hrun
  rw [Coroutine.Sound, hpoint] at hsound
  obtain ⟨hended, hagents, heps, htells⟩ := hsound
  rw [Cell.finalize, hrow]
  refine ⟨fun hnone => ?_, h.known, fun row' hrow' => ?_, fun _ hnone => ?_,
    fun row' _ hrow' => .inr (.inr ⟨r.threshold, r.results, r.maxStableAgents, r.peakEps, ?_⟩)⟩
  · cases hnone
  · obtain rfl := Option.some.inj hrow'
    exact h.secret row hrow
  · cases hnone
  · obtain rfl := Option.some.inj hrow'
    refine ⟨hhas, ?_, rfl, rfl, hagents, heps, htells, rfl⟩
    show Ended env r.threshold row.phases r.results r.finalStatus
    rw [hkept]
    exact hended

lemma Cell.Sound.lose (h : c.Sound env up) (hrun : c.run = some r) :
    (c.goto r .lost).Sound env up :=
  h.goes hrun rfl rfl rfl rfl rfl rfl rfl h.known trivial

/-- Every step of the coroutine keeps what always holds. -/
lemma Cell.Sound.advance (h : c.Sound env up) (hrun : c.run = some r) {a : Own}
    (ha : c.advance env r a = some c') : c'.Sound env up := by
  cases a with
  | enter =>
    dsimp only [Cell.advance] at ha
    split at ha
    · next i hpoint =>
      obtain rfl := Option.some.inj ha
      exact h.enter hrun hpoint
    · cases ha
  | deploy answers raised elapsed =>
    dsimp only [Cell.advance] at ha
    split at ha
    · next i phase hpoint =>
      split at ha
      · next hanswers =>
        obtain rfl := Option.some.inj ha
        exact h.deploy hrun hpoint hanswers elapsed
      · cases ha
    · cases ha
  | measure m =>
    dsimp only [Cell.advance] at ha
    split at ha
    · next l hpoint =>
      obtain rfl := Option.some.inj ha
      exact h.measure hrun hpoint m
    · cases ha
  | timeUp =>
    dsimp only [Cell.advance] at ha
    split at ha
    · next l hpoint =>
      obtain rfl := Option.some.inj ha
      exact h.timeUp hrun hpoint
    · cases ha
  | detect elapsed =>
    dsimp only [Cell.advance] at ha
    split at ha
    · next l m rule rest hpoint =>
      obtain rfl := Option.some.inj ha
      exact h.detect hrun hpoint
    · next l m hpoint =>
      obtain rfl := Option.some.inj ha
      exact h.sleep hrun hpoint _
    · cases ha
  | fail error =>
    dsimp only [Cell.advance] at ha
    split at ha
    · next bm hbm =>
      obtain rfl := Option.some.inj ha
      exact h.fail hrun hbm error
    · cases ha
  | finalize now =>
    dsimp only [Cell.advance] at ha
    split at ha
    · next hpoint =>
      obtain rfl := Option.some.inj ha
      exact h.finalize hrun hpoint now
    · cases ha
  | lose =>
    dsimp only [Cell.advance] at ha
    split at ha
    · obtain rfl := Option.some.inj ha
      exact h.lose hrun
    · cases ha

lemma Cell.Sound.wake (h : c.Sound env up) (hrun : c.run = some r) {l : Local}
    (hpoint : r.point = .asleep l) : (c.goto r (.monitor l)).Sound env up := by
  obtain ⟨-, hsound, -⟩ := h.active r hrun
  rw [Coroutine.Sound, hpoint] at hsound
  obtain ⟨hdone, hl, htells⟩ := hsound
  refine h.goes hrun rfl rfl rfl rfl rfl rfl rfl h.known ?_
  exact ⟨⟨hdone.length, hdone.reports, hdone.all, hdone.agents, hdone.eps, hdone.goesOn⟩,
    ⟨hl.phase, hl.total, hl.sum, hl.goesOn, hl.status⟩, htells⟩

/-- A benchmark that does not hold the event loop sleeps, or is lost. -/
lemma Coroutine.point_of_free (hrun : c.run = some r) (hloop : c.holdsLoop = false) :
    (∃ l, r.point = .asleep l) ∨ r.point = .lost := by
  unfold Cell.holdsLoop at hloop
  rw [hrun] at hloop
  dsimp only at hloop
  cases hpoint : r.point with
  | asleep l => exact .inl ⟨l, rfl⟩
  | lost => exact .inr rfl
  | phase | deploy | monitor | detect | finish =>
    rw [hpoint] at hloop
    cases hloop

/-- While the server runs, only a benchmark with a coroutine has a row that says that it runs. -/
lemma Cell.Sound.not_running (h : c.Sound env true) (hrun : c.run = none) {row : Record}
    (hrow : c.row = some row) : row.status ≠ .running := by
  intro hrunning
  rcases h.resting row hrun hrow with ⟨-, hup⟩ | hrecovered | ⟨t, ps, n, e, hfinal⟩
  · cases hup
  · rw [hrecovered.status] at hrunning
    cases hrunning
  · rcases hfinal.ended.status with hs | hs | hs
    all_goals
      rw [hs] at hrunning
      cases hrunning

lemma Cell.Sound.stop (h : c.Sound env true) (hloop : c.holdsLoop = false) (now : ℕ) :
    (c.stop now).Sound env true := by
  unfold Cell.stop
  split
  · next _ _ r hrun =>
    obtain ⟨-, hsound, -⟩ := h.active r hrun
    refine h.goes hrun rfl rfl rfl rfl rfl rfl rfl h.known ?_
    rcases Coroutine.point_of_free hrun hloop with ⟨l, hpoint⟩ | hpoint
    · rw [Coroutine.Sound, hpoint] at hsound
      obtain ⟨hdone, hl, htells⟩ := hsound
      unfold Coroutine.Sound
      dsimp only
      rw [hpoint]
      exact ⟨⟨hdone.length, hdone.reports, hdone.all, hdone.agents, hdone.eps, hdone.goesOn⟩,
        ⟨hl.phase, hl.total, hl.sum, hl.goesOn, .inr rfl⟩, htells⟩
    · unfold Coroutine.Sound
      dsimp only
      rw [hpoint]
      trivial
  · next row hrun hrow =>
    rw [if_neg (h.not_running hrun hrow)]
    exact h
  · exact h

/-- When the server runs, there is nothing to clean up. -/
lemma Cell.Sound.cleanup_eq (h : c.Sound env true) (now : ℕ) : c.cleanup now = c := by
  unfold Cell.cleanup
  split
  · next row hrun hrow => rw [if_neg (h.not_running hrun hrow)]
  · rfl

lemma Cell.Sound.prune (h : c.Sound env up) (before : ℕ) : (c.prune before).Sound env up := by
  unfold Cell.prune
  split
  · next row hrow =>
    split
    · next hpruned =>
      have hnone : c.run = none := by
        cases hrun : c.run with
        | none => rfl
        | some r =>
          -- the row of a benchmark that runs is not deleted
          obtain ⟨-, -, -, -, -, row', hrow', hrunning, -⟩ := h.active r hrun
          obtain rfl : row = row' := Option.some.inj (hrow.symm.trans hrow')
          exact absurd hrunning.status (of_decide_eq_true hpruned).1
      rw [hnone]
      exact sound_empty up
    · exact h
  · exact h

lemma Cell.Sound.crash (h : c.Sound env true) :
    ({ c with run := none } : Cell).Sound env false where
  blank hnone := by
    rw [h.blank hnone]
    rfl
  known := h.known
  secret := h.secret
  active r hrun := by cases hrun
  resting row _ hrow := by
    cases hrun : c.run with
    | none =>
      rcases h.resting row hrun hrow with ⟨-, hup⟩ | hrest | ⟨t, ps, n, e, hfinal⟩
      · cases hup
      · exact .inr (.inl hrest)
      · exact .inr (.inr ⟨t, ps, n, e, hfinal.hasThreshold, hfinal.ended, hfinal.phases,
          hfinal.summary, hfinal.agents, hfinal.eps, hfinal.tells, hfinal.completedAt⟩)
    | some r =>
      obtain ⟨-, -, -, -, -, row', hrow', hrunning, -⟩ := h.active r hrun
      obtain rfl : row = row' := Option.some.inj (hrow.symm.trans hrow')
      exact .inl ⟨hrunning, rfl⟩

lemma Cell.Sound.restart (h : c.Sound env false) (now : ℕ) : (c.cleanup now).Sound env true := by
  have hnone : c.run = none := by
    cases hrun : c.run with
    | none => rfl
    | some r => exact absurd (h.active r hrun).1 (by simp)
  cases hrow : c.row with
  | none =>
    rw [h.blank hrow]
    exact sound_empty true
  | some row =>
    have hcleanup : c.cleanup now = if row.status = .running then { c with
        row := some { row with
          status := .aborted, completedAt := some now,
          results := { row.results with
            abortReason := some ("Server restart or crash recovery".toList) } } } else c := by
      rw [Cell.cleanup, hnone, hrow]
    rw [hcleanup]
    split
    · next hrunning =>
      refine ⟨fun hn => (by cases hn), h.known, fun row' hrow' => ?_, fun r hrun => ?_,
        fun row' _ hrow' => .inr (.inl ?_)⟩
      · obtain rfl := Option.some.inj hrow'
        exact h.secret row hrow
      · rw [show c.run = some r from hrun] at hnone
        cases hnone
      · obtain rfl := Option.some.inj hrow'
        rcases h.resting row hnone hrow with ⟨hunfinished, -⟩ | hrest | ⟨t, ps, n, e, hfinal⟩
        · exact ⟨rfl, hunfinished.phases, hunfinished.summary, rfl⟩
        · rw [hrest.status] at hrunning
          cases hrunning
        · rcases hfinal.ended.status with hs | hs | hs
          all_goals
            rw [hs] at hrunning
            cases hrunning
    · next hnot =>
      refine ⟨h.blank, h.known, h.secret, fun r hrun => ?_, fun row' hrun hrow' => ?_⟩
      · rw [hnone] at hrun
        cases hrun
      · rcases h.resting row' hrun hrow' with ⟨hunfinished, -⟩ | hrest
        · obtain rfl : row = row' := Option.some.inj (hrow.symm.trans hrow')
          exact absurd hunfinished.status hnot
        · exact .inr hrest

/-- Every move keeps what always holds. -/
lemma Cell.Sound.moves (h : c.Sound env up) (hm : Moves env up c up' c') : c'.Sound env up' := by
  cases hm with
  | stay => exact h
  | start hs config now => exact sound_start hs config now
  | own hrun ha => exact h.advance hrun ha
  | wake hrun hpoint => exact h.wake hrun hpoint
  | stop hloop now => exact h.stop hloop now
  | cleanup _ now => exact (h.cleanup_eq now).symm ▸ h
  | prune _ before => exact h.prune before
  | crash => exact h.crash
  | restart _ now => exact h.restart now

lemma Lives.sound (h : Lives env up c) : c.Sound env up := by
  induction h with
  | empty up => exact sound_empty up
  | moves _ hm ih => exact ih.moves hm

end Habeny.Benchmarks
