import Habeny.Lib.ArgMax
import Habeny.Lib.Text
import Mathlib.Algebra.Order.Ring.Rat
import Mathlib.Data.List.Nodup

/-!
# Comparing benchmarks

Two or more stored benchmarks are compared by a score: many containers, a high success rate, a
short time to deploy and few bottlenecks are good.  The winner is looked for in a loop whose best
score is -1 before the first benchmark.

`picks_best_iff` says which comparisons name a best one, in whatever order the benchmarks come.
-/

namespace Habeny.Benchmarks

open Habeny.Lib ArgMax

/-! ## Numbers -/

/-- A number of a summary: an integer, or a float that is finite. -/
inductive Num where
  | int (n : ℤ)
  | float (q : ℚ)

def Num.value : Num → ℚ
  | .int n => n
  | .float q => q

/-- What is used of the language: the float next to a number, `round`, and how a number is
written. -/
structure CompareEnv where
  nearest : ℚ → ℚ
  round : ℕ → ℚ → ℚ
  format : Num → Text

namespace CompareEnv

variable (env : CompareEnv)

def toFloat : Num → ℚ
  | .int n => env.nearest n
  | .float q => q

/-- An operation of floats, where the one of the integers is not meant. -/
def arith (ints : ℤ → ℤ → ℤ) (floats : ℚ → ℚ → ℚ) : Num → Num → Num
  | .int m, .int n => .int (ints m n)
  | a, b => .float (env.nearest (floats (env.toFloat a) (env.toFloat b)))

def add : Num → Num → Num := env.arith (· + ·) (· + ·)
def sub : Num → Num → Num := env.arith (· - ·) (· - ·)
def mul : Num → Num → Num := env.arith (· * ·) (· * ·)

/-- `round(x, digits)`, which leaves an integer as it is -/
def roundNum (digits : ℕ) : Num → Num
  | .int n => .int n
  | .float q => .float (env.round digits q)

end CompareEnv

/-! ## What is stored -/

/-- The summary of the results, with what is missing. -/
structure Summary where
  maxStableAgents : Option Num
  successRatePercent : Option Num
  avgDeployTimeSeconds : Option Num
  verdict : Option Text
  bottlenecksTotal : Option Num

/-- A stored benchmark. -/
structure Benchmark where
  benchmarkId : Text
  name : Option Text
  scenarioId : Text
  siemType : Option Text
  configSiemType : Option Text
  status : Text
  startedAt : Option Text
  summary : Summary

/-- The table, in which an id is unique. -/
structure BenchmarkTable where
  rows : List Benchmark
  nodup : (rows.map Benchmark.benchmarkId).Nodup

def BenchmarkTable.get (t : BenchmarkTable) (id : Text) : Option Benchmark :=
  t.rows.find? fun b => decide (b.benchmarkId = id)

/-- The benchmarks of some ids; unknown ones are left out. -/
def BenchmarkTable.found (t : BenchmarkTable) (ids : List Text) : List Benchmark :=
  ids.filterMap t.get

/-! ## The comparison -/

/-- One benchmark of a comparison. -/
structure Entry where
  benchmarkId : Text
  name : Option Text
  scenarioId : Text
  siemType : Option Text
  status : Text
  startedAt : Option Text
  maxAgents : Num
  successRate : Num
  avgDeployTime : Num
  verdict : Text
  bottlenecks : Num

def entryOf (b : Benchmark) : Entry where
  benchmarkId := b.benchmarkId
  name := b.name
  scenarioId := b.scenarioId
  siemType := (b.configSiemType.filter (· ≠ [])).or b.siemType
  status := b.status
  startedAt := b.startedAt
  maxAgents := b.summary.maxStableAgents.getD (.int 0)
  successRate := b.summary.successRatePercent.getD (.int 0)
  avgDeployTime := b.summary.avgDeployTimeSeconds.getD (.int 0)
  verdict := b.summary.verdict.getD "N/A".toList
  bottlenecks := b.summary.bottlenecksTotal.getD (.int 0)

/-- One metric that is better or worse at the end. -/
structure Change where
  metric : Text
  baseline : Num
  current : Num
  delta : Num
  percentChange : Num

structure Comparison where
  benchmarks : List Entry
  winner : Option Text
  improvements : List Change
  regressions : List Change
  summary : Option Text

section Compare

variable (env : CompareEnv)

/-- Higher agents, higher success rate and lower deploy time are better. -/
def score (b : Benchmark) : Num :=
  let e := entryOf b
  env.sub (env.sub (env.add (env.mul e.maxAgents (.int 10)) e.successRate) e.avgDeployTime)
    (env.mul e.bottlenecks (.int 5))

def scoreValue (b : Benchmark) : ℚ := (score env b).value

/-- The metrics that are compared, with whether a lower one is better. -/
def metrics : List (String × (Entry → Num) × Bool) :=
  [("max_agents", Entry.maxAgents, false), ("success_rate", Entry.successRate, false),
    ("avg_deploy_time", Entry.avgDeployTime, true)]

/-- What a metric changes from the first benchmark to the last one, and whether that is better. -/
def change (base curr : Entry) (metric : String × (Entry → Num) × Bool) : Option (Change × Bool) :=
  let bv := metric.2.1 base
  let cv := metric.2.1 curr
  let delta := env.sub cv bv
  let improved := if metric.2.2 then decide (cv.value < bv.value) else decide (bv.value < cv.value)
  if bv.value = 0 ∧ cv.value = 0 then none
  else if improved = false ∧ delta.value = 0 then none
  else
    some
      ({ metric := metric.1.toList
         baseline := bv
         current := cv
         delta := env.roundNum 2 delta
         percentChange := if bv.value = 0 then .int 0
          else .float (env.round 1 (env.nearest (env.nearest (|delta.value| / bv.value) * 100))) },
        improved)

/-- The sentence about the winner. -/
def sentence (w : Entry) : Text :=
  "Best performing: \"".toList ++ w.name.getD "None".toList ++ "\" with ".toList ++
    env.format w.maxAgents ++ " max agents, ".toList ++ env.format w.successRate ++
    "% success rate, ".toList ++ env.format w.avgDeployTime ++ "s avg deploy. Verdict: ".toList ++
    w.verdict ++ ".".toList

/-- Compare two or more benchmarks (`compare_benchmarks`). -/
def compareBenchmarks (t : BenchmarkTable) (ids : List Text) : Except Text Comparison :=
  let benchmarks := t.found ids
  if benchmarks.length < 2 then .error "Need at least 2 benchmarks to compare".toList
  else
    let entries := benchmarks.map entryOf
    let winner := (bestAbove (scoreValue env) (-1) benchmarks).map Benchmark.benchmarkId
    let changes :=
      match entries.head?, entries.getLast? with
      | some base, some curr => metrics.filterMap (change env base curr)
      | _, _ => []
    let best := winner.bind fun id =>
      if id = [] then none else entries.find? fun e => decide (e.benchmarkId = id)
    .ok {
      benchmarks := entries
      winner
      improvements := (changes.filter (·.2)).map Prod.fst
      regressions := (changes.filter fun c => !c.2).map Prod.fst
      summary := best.map (sentence env) }

/-- The winner, if the comparison names one. -/
def winner (t : BenchmarkTable) (ids : List Text) : Option Text :=
  match compareBenchmarks env t ids with
  | .ok c => c.winner
  | .error _ => none

/-! ## Picking the best -/

/-- A comparison picks a best benchmark: its winner is one of the benchmarks that are compared, and
none of them has a higher score; in another order, the winner has the same score. -/
structure PicksBest (t : BenchmarkTable) (ids : List Text) : Prop where
  named : ∃ w ∈ t.found ids, winner env t ids = some w.benchmarkId ∧
    ∀ b ∈ t.found ids, scoreValue env b ≤ scoreValue env w
  order : ∀ ids' : List Text, ids'.Perm ids → ∀ w ∈ t.found ids,
    winner env t ids = some w.benchmarkId → ∃ w' ∈ t.found ids,
      winner env t ids' = some w'.benchmarkId ∧ scoreValue env w' = scoreValue env w

variable {env} {t : BenchmarkTable} {ids : List Text}

lemma winner_eq (h : 2 ≤ (t.found ids).length) :
    winner env t ids =
      (bestAbove (scoreValue env) (-1) (t.found ids)).map Benchmark.benchmarkId := by
  rw [winner, compareBenchmarks]
  dsimp only
  rw [if_neg (by omega)]

/-- An id is the one of one benchmark. -/
lemma benchmarkId_inj {b b' : Benchmark} (hb : b ∈ t.found ids) (hb' : b' ∈ t.found ids)
    (h : b.benchmarkId = b'.benchmarkId) : b = b' := by
  have hmem : ∀ {b}, b ∈ t.found ids → b ∈ t.rows := by
    intro b hb
    obtain ⟨id, -, hget⟩ := List.mem_filterMap.mp hb
    exact List.mem_of_find?_eq_some hget
  exact List.inj_on_of_nodup_map t.nodup (hmem hb) (hmem hb') h

lemma found_perm {ids' : List Text} (h : ids'.Perm ids) : (t.found ids').Perm (t.found ids) :=
  h.filterMap _

/-- **Which comparisons pick a best benchmark**: those with a score above the one that the loop
starts with. -/
theorem picks_best_iff (hfound : 2 ≤ (t.found ids).length) :
    PicksBest env t ids ↔ ∃ b ∈ t.found ids, -1 < scoreValue env b := by
  constructor
  · intro h
    obtain ⟨w, -, hwinner, -⟩ := h.named
    rw [winner_eq hfound] at hwinner
    obtain ⟨w', hbest, -⟩ := Option.map_eq_some_iff.mp hwinner
    exact exists_bestAbove_iff.mp ⟨w', hbest⟩
  · intro h
    obtain ⟨w, hbest⟩ := exists_bestAbove_iff.mpr h
    have hwinner : winner env t ids = some w.benchmarkId := by
      rw [winner_eq hfound, hbest]
      rfl
    refine ⟨⟨w, mem_of_bestAbove hbest, hwinner, fun b hb => le_of_bestAbove hbest hb⟩, ?_⟩
    intro ids' hperm v hv hnamed
    obtain rfl : v = w :=
      benchmarkId_inj hv (mem_of_bestAbove hbest) (Option.some.inj (hnamed.symm.trans hwinner))
    obtain ⟨w', hbest', hscore⟩ := score_of_perm (found_perm hperm) hbest
    refine ⟨w', (found_perm hperm).mem_iff.mp (mem_of_bestAbove hbest'), ?_, hscore⟩
    rw [winner_eq (by rw [(found_perm hperm).length_eq]; exact hfound), hbest']
    rfl

end Compare

/-! ## Benchmarks without a winner -/

/-- Numbers that are floats as they are. -/
def exactEnv : CompareEnv where
  nearest := id
  round := fun _ q => q
  format := fun n => Nat.toDigits 10 n.value.floor.toNat

/-- A benchmark that ended with so many stable containers, after deploys that took two minutes on
average. -/
def ended (id : Text) (stable : ℤ) : Benchmark where
  benchmarkId := id
  name := none
  scenarioId := "ramp".toList
  siemType := some "wazuh".toList
  configSiemType := none
  status := "aborted".toList
  startedAt := none
  summary :=
    { maxStableAgents := some (.int stable)
      successRatePercent := some (.float 0)
      avgDeployTimeSeconds := some (.float 120)
      verdict := some "FAIL".toList
      bottlenecksTotal := some (.int 1) }

def failedTable : BenchmarkTable := ⟨[ended "a".toList 0, ended "b".toList 1], by decide⟩

def mixedTable : BenchmarkTable := ⟨[ended "a".toList 0, ended "b".toList 20], by decide⟩

/-- One of two benchmarks has a score above -1, and is the winner. -/
theorem mixed_picks_best :
    2 ≤ (mixedTable.found ["a".toList, "b".toList]).length ∧
      PicksBest exactEnv mixedTable ["a".toList, "b".toList] := by
  refine ⟨by decide, (picks_best_iff (by decide)).mpr ⟨ended "b".toList 20, ?_, ?_⟩⟩
  · exact List.mem_of_getElem? (i := 1) rfl
  · decide +kernel

/-- Of two benchmarks with scores of -125 and -115 none is named. -/
theorem failed_without_winner :
    2 ≤ (failedTable.found ["a".toList, "b".toList]).length ∧
      winner exactEnv failedTable ["a".toList, "b".toList] = none ∧
      ¬PicksBest exactEnv failedTable ["a".toList, "b".toList] := by
  have hnone : winner exactEnv failedTable ["a".toList, "b".toList] = none := by decide +kernel
  refine ⟨by decide, hnone, fun h => ?_⟩
  obtain ⟨w, -, hw, -⟩ := h.named
  rw [hnone] at hw
  cases hw

end Habeny.Benchmarks
