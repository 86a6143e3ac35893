import Habeny.Benchmarks.Sound

/-!
# What benchmarks go through

The bottlenecks of a benchmark that has ended tell what its measurements were, and its results
account for its phases; it is stored as running while it runs, and what is stored at its end stays;
and a stop is never lost.
-/

namespace Habeny.Benchmarks

open Habeny.Lib

variable {env : Arithmetic} {up up' : Bool} {c c' : Cell} {r r' : Coroutine}

/-! ## Bottlenecks -/

lemma mem_row_of_tells {ms : List Metric} {bs : List Bottleneck} {rule : Rule}
    (h : Tells ms bs rule) (p : Bottleneck → Bool)
    (hp : ∀ t, p (rule.row t) = p (rule.newRow 0 0)) :
    (bs.filter fun b => decide (b.key = rule.key)).countP p =
      if readings ms rule ≠ [] ∧ p (rule.newRow 0 0) = true then 1 else 0 := by
  rw [h]
  cases htally : tally (readings ms rule) with
  | none => simp [tally_eq_none_iff.mp htally]
  | some t =>
    have hne : readings ms rule ≠ [] := fun heq => by
      rw [tally_eq_none_iff.mpr heq] at htally
      cases htally
    simp [hne, hp t, List.countP_cons]

/-- The bottlenecks are as many as the rules that found something. -/
lemma countP_bottlenecks (hc : c.Sound env up) (htells : c.TellsAll) (p : Bottleneck → Bool)
    (hp : ∀ rule t, p (Rule.row rule t) = p (rule.newRow 0 0)) :
    c.bottlenecks.countP p = rules.countP fun rule =>
      decide (readings c.metrics rule ≠ [] ∧ p (rule.newRow 0 0) = true) := by
  have hkeys : ∀ b ∈ c.bottlenecks, b.key ∈ rules.map Rule.key := by
    intro b hb
    obtain ⟨rule, hrule, hkey⟩ := hc.known b hb
    exact hkey ▸ List.mem_map_of_mem hrule
  rw [countP_eq_sum nodup_keys p hkeys, List.map_map]
  have hcount : ∀ rule ∈ rules, ((fun k => (c.bottlenecks.filter fun b =>
      decide (b.key = k)).countP p) ∘ Rule.key) rule =
        if readings c.metrics rule ≠ [] ∧ p (rule.newRow 0 0) = true then 1 else 0 :=
    fun rule hrule => mem_row_of_tells (htells rule hrule) p (hp rule)
  rw [List.map_congr_left hcount]
  generalize rules = rs
  induction rs with
  | nil => rfl
  | cons rule rs ih =>
    rw [List.map_cons, List.sum_cons, ih, List.countP_cons]
    simp only [decide_eq_true_eq]
    omega

/-- **The bottlenecks that are stored tell what the measurements that are stored were.**  For each
rule there is one row when a measurement exceeded its threshold, with how many did, and the first
and the last of them, and none otherwise.  The verdict follows from them. -/
theorem bottlenecks_tell {w : World} (h : Reached env w) {id : ℕ} {row : Record}
    {summary : BenchmarkSummary} (hrow : (w.cells id).row = some row)
    (hsummary : row.results.summary = some summary) (hstatus : row.status ≠ .failed) :
    (w.cells id).TellsAll ∧
    summary.bottlenecksTotal = rules.countP (fun rule =>
      decide (readings (w.cells id).metrics rule ≠ [])) ∧
    (summary.verdict = .fail ↔ ∃ rule ∈ rules, rule.severity = .critical ∧
      readings (w.cells id).metrics rule ≠ []) := by
  have hc := (h.lives.2 id).sound
  have hnone : (w.cells id).run = none := by
    cases hrun : (w.cells id).run with
    | none => rfl
    | some r =>
      obtain ⟨-, -, -, -, -, row', hrow', hunfinished, -⟩ := hc.active r hrun
      obtain rfl : row = row' := Option.some.inj (hrow.symm.trans hrow')
      rw [hunfinished.summary] at hsummary
      cases hsummary
  rcases hc.resting row hnone hrow with ⟨hunfinished, -⟩ | hrest | ⟨t, ps, n, e, hfinal⟩
  · rw [hunfinished.summary] at hsummary
    cases hsummary
  · rw [hrest.summary] at hsummary
    cases hsummary
  · have htells := hfinal.tells hstatus
    rw [hfinal.summary, Option.some.injEq] at hsummary
    subst hsummary
    have hcritical := countP_bottlenecks hc htells (fun b => decide (b.severity = .critical))
      fun _ _ => rfl
    have htotal := countP_bottlenecks hc htells (fun _ => true) fun _ _ => rfl
    refine ⟨htells, ?_, ?_⟩
    · show (w.cells id).bottlenecks.length = _
      simpa using htotal
    · have hverdict : (buildSummary env ps (w.cells id).bottlenecks n e).verdict = .fail ↔
          (w.cells id).bottlenecks.countP (fun b => decide (b.severity = .critical)) ≠ 0 := by
        rw [buildSummary]
        dsimp only
        split
        · next hne => exact ⟨fun _ => hne, fun _ => rfl⟩
        · next hzero =>
          refine ⟨fun heq => ?_, fun hne => absurd hne hzero⟩
          split at heq
          · cases heq
          · cases heq
      rw [hverdict, hcritical, ← Nat.pos_iff_ne_zero, List.countP_pos_iff]
      constructor
      · rintro ⟨rule, hrule, hfound⟩
        obtain ⟨hne, hs⟩ := of_decide_eq_true hfound
        exact ⟨rule, hrule, of_decide_eq_true hs, hne⟩
      · rintro ⟨rule, hrule, hs, hne⟩
        exact ⟨rule, hrule, decide_eq_true ⟨hne, decide_eq_true hs⟩⟩

/-- Floats that are exact. -/
def plain : Arithmetic := { nearest := id, round := fun _ q => q, sum := List.sum }

/-- A measurement of a host that is busy. -/
def busy : Sample :=
  { system := some { cpuCount := 2, cpuPercent := 95, load1m := 2, loadPerCore := 1,
                     memoryPercent := 80, memoryAvailableMb := 100, diskPercent := 10 },
    containers := { total := 1, running := 1, stopped := 0 } }

/-- One phase with one container. -/
def onePhase : Config :=
  { name := none, siemType := none, failureThreshold := none, phases := some [⟨1, 10, 60, []⟩],
    siemAuthKey := some "key".toList, others := [] }

def untilAsleep : List Action :=
  [.start "linear_scale".toList onePhase 1, .own .enter, .own (.deploy [.result true 3] false 4),
    .own (.measure busy)] ++ List.replicate 10 (.own (.detect 5))

def untilEnd : List Action := [.wake 0, .own .timeUp, .own .enter, .own (.finalize 9)]

lemma exists_of_exec {as : List Action} {p : World → Bool}
    (h : (exec (step env) World.initial as).any p = true) :
    ∃ w, Run (step env) anyStep World.initial as w ∧ p w = true := by
  cases hexec : exec (step env) World.initial as with
  | none =>
    rw [hexec] at h
    cases h
  | some w =>
    rw [hexec] at h
    exact ⟨w, run_of_exec hexec, h⟩

/-- Whether the first benchmark has run to its end, with such a row and summary. -/
def World.ended (p : Record → BenchmarkSummary → Bool) (w : World) : Bool :=
  match (w.cells 0).row with
  | some row =>
    match row.results.summary with
    | some summary => p row summary
    | none => false
  | none => false

lemma exists_of_ended {p : Record → BenchmarkSummary → Bool} {w : World} (h : w.ended p = true) :
    ∃ row summary, (w.cells 0).row = some row ∧ row.results.summary = some summary ∧
      p row summary = true := by
  unfold World.ended at h
  split at h
  · next row hrow =>
    split at h
    · next summary hsummary => exact ⟨row, summary, hrow, hsummary, h⟩
    · cases h
  · cases h

/-- A benchmark on a busy host fails, as a measurement of it was too high. -/
theorem bottlenecks_tell_busy : ∃ w, Reached plain w ∧
    w.ended (fun _ summary => decide (summary.verdict = .fail)) = true ∧
    ∃ rule ∈ rules, rule.severity = .critical ∧ readings (w.cells 0).metrics rule ≠ [] := by
  have hexec : (exec (step plain) World.initial (untilAsleep ++ untilEnd)).any (World.ended
      fun row summary => decide (row.status ≠ .failed ∧ summary.verdict = .fail)) = true := by
    decide +kernel
  obtain ⟨w, hrun, hw⟩ := exists_of_exec hexec
  obtain ⟨row, summary, hrow, hsummary, hfacts⟩ := exists_of_ended hw
  obtain ⟨hstatus, hverdict⟩ := of_decide_eq_true hfacts
  refine ⟨w, ⟨_, hrun⟩, ?_, ?_⟩
  · rw [World.ended, hrow]
    dsimp only
    rw [hsummary]
    exact decide_eq_true hverdict
  · exact (bottlenecks_tell ⟨_, hrun⟩ hrow hsummary hstatus).2.2.mp hverdict

/-! ## Results -/

lemma Cell.Sound.final (h : c.Sound env up) {row : Record} {summary : BenchmarkSummary}
    (hrow : c.row = some row) (hsummary : row.results.summary = some summary) :
    ∃ threshold results maxAgents peakEps,
      row.Final env c threshold results maxAgents peakEps := by
  cases hrun : c.run with
  | some r =>
    obtain ⟨-, -, -, -, -, row', hrow', hunfinished, -⟩ := h.active r hrun
    obtain rfl : row = row' := Option.some.inj (hrow.symm.trans hrow')
    rw [hunfinished.summary] at hsummary
    cases hsummary
  | none =>
    rcases h.resting row hrun hrow with ⟨hunfinished, -⟩ | hrest | hfinal
    · rw [hunfinished.summary] at hsummary
      cases hsummary
    · rw [hrest.summary] at hsummary
      cases hsummary
    · exact hfinal

/-- The containers of some results are all those of their phases. -/
lemma Reports.sum_total {threshold : ℚ} {phases : List Phase} {results : List PhaseResult}
    (h : Reports env threshold phases results) :
    (results.map (·.dep.total)).sum = ((phases.take results.length).map Phase.agents).sum ∧
      (results.map (·.dep.success)).sum + (results.map (·.dep.failures)).sum =
        (results.map (·.dep.total)).sum := by
  induction results using List.reverseRecOn with
  | nil => simp
  | append_singleton results p ih =>
    have hinit : Reports env threshold phases results := by
      refine ⟨fun j q hq => ?_, fun j q hq hj => ?_⟩
      · have hlt := (List.getElem?_eq_some_iff.mp hq).1
        exact h.of j q (by rw [List.getElem?_append_left hlt, hq])
      · have hlt := (List.getElem?_eq_some_iff.mp hq).1
        exact h.before j q (by rw [List.getElem?_append_left hlt, hq]) (by simp; omega)
    obtain ⟨htotal, hsum⟩ := ih hinit
    obtain ⟨phase, hphase, hof⟩ := h.of results.length p (by simp)
    have htake : phases.take (results ++ [p]).length = phases.take results.length ++ [phase] := by
      rw [List.length_append, List.length_singleton, List.take_add_one, hphase]
      rfl
    have hp := hof.sum
    have hpt := hof.total
    simp only [htake, List.map_append, List.sum_append, List.map_cons, List.map_nil, List.sum_cons,
      List.sum_nil, htotal]
    constructor
    · omega
    · omega

lemma Reached.step {w w' : World} (h : Reached env w) {a : Action}
    (hstep : step env w a = some w') : Reached env w' := by
  obtain ⟨as, hrun⟩ := h
  exact ⟨as ++ [a], hrun.snoc trivial hstep⟩

/-- What has a row, or had one, is not started again. -/
lemma Reached.started {w : World} (h : Reached env w) {id : ℕ} {row : Record}
    (hrow : (w.cells id).row = some row) : id < w.next := by
  by_contra hge
  rw [h.lives.1.fresh id (not_lt.mp hge)] at hrow
  cases hrow

/-- A step leaves a benchmark without a coroutine that is not stored as running, or deletes it. -/
lemma step_of_rest {w w' : World} {a : Action} (hstep : step env w a = some w') {id : ℕ}
    (hid : id < w.next) (hrun : (w.cells id).run = none)
    (hrow : ∀ row, (w.cells id).row = some row → row.status ≠ .running) :
    w'.cells id = w.cells id ∨ ∃ before row, a = .prune before ∧ (w.cells id).row = some row ∧
      row.isPruned before = true ∧ w'.cells id = .empty := by
  have hput : ∀ {id' : ℕ} (c : Cell), id' ≠ id → (w.put id' c).cells id = w.cells id :=
    fun c hne => Function.update_of_ne (Ne.symm hne) ..
  have hcleanup : ∀ now, (w.cells id).cleanup now = w.cells id := by
    intro now
    unfold Cell.cleanup
    split
    · next row _ hsome => rw [if_neg (hrow row hsome)]
    · rfl
  cases a with
  | start scenarioId config now =>
    dsimp only [Benchmarks.step] at hstep
    split at hstep
    · split at hstep
      · obtain rfl := Option.some.inj hstep
        exact .inl (hput _ (by omega))
      · cases hstep
    · cases hstep
  | own a =>
    dsimp only [Benchmarks.step] at hstep
    split at hstep
    · next id' _ =>
      split at hstep
      · next r hr =>
        obtain ⟨c, -, rfl⟩ := Option.map_eq_some_iff.mp hstep
        refine .inl (hput c ?_)
        rintro rfl
        rw [hrun] at hr
        cases hr
      · cases hstep
    · cases hstep
  | wake id' =>
    dsimp only [Benchmarks.step] at hstep
    split at hstep
    · next r hr =>
      split at hstep
      · split at hstep
        · obtain rfl := Option.some.inj hstep
          refine .inl (hput _ ?_)
          rintro rfl
          rw [hrun] at hr
          cases hr
        · cases hstep
      · cases hstep
    · cases hstep
  | stop id' now =>
    dsimp only [Benchmarks.step] at hstep
    split at hstep
    · obtain rfl := Option.some.inj hstep
      by_cases hne : id' = id
      · subst hne
        have hstop : (w.cells id').stop now = w.cells id' := by
          unfold Cell.stop
          split
          · next hr =>
            rw [hrun] at hr
            cases hr
          · next row _ hsome => rw [if_neg (hrow row hsome)]
          · rfl
        exact .inl ((Function.update_self ..).trans hstop)
      · exact .inl (hput _ hne)
    · cases hstep
  | cleanup now =>
    dsimp only [Benchmarks.step] at hstep
    split at hstep
    · obtain rfl := Option.some.inj hstep
      exact .inl (hcleanup now)
    · cases hstep
  | prune before =>
    dsimp only [Benchmarks.step] at hstep
    split at hstep
    · obtain rfl := Option.some.inj hstep
      show (w.cells id).prune before = w.cells id ∨ ∃ before' row, _ ∧ _ ∧ _ ∧
        (w.cells id).prune before = .empty
      unfold Cell.prune
      split
      · next row hsome =>
        split
        · next hpruned =>
          exact .inr ⟨before, row, rfl, hsome, hpruned, by rw [hrun]; rfl⟩
        · exact .inl rfl
      · exact .inl rfl
    · cases hstep
  | crash =>
    dsimp only [Benchmarks.step] at hstep
    split at hstep
    · obtain rfl := Option.some.inj hstep
      left
      show ({ w.cells id with run := none } : Cell) = w.cells id
      rw [← hrun]
    · cases hstep
  | restart now =>
    dsimp only [Benchmarks.step] at hstep
    split at hstep
    · obtain rfl := Option.some.inj hstep
      exact .inl (hcleanup now)
    · cases hstep

/-- What was deleted does not come back. -/
lemma run_of_deleted {w w' : World} {as : List Action} (h : Reached env w)
    (hruns : Run (step env) anyStep w as w') {id : ℕ} (hid : id < w.next)
    (hempty : w.cells id = .empty) : w'.cells id = .empty := by
  induction hruns with
  | nil => exact hempty
  | cons _ hstep _ ih =>
    refine ih (h.step hstep) (lt_of_lt_of_le hid (h.lives.1.step hstep).2.1) ?_
    rcases step_of_rest hstep hid (by rw [hempty]; rfl) (fun row hrow => by
      rw [hempty] at hrow
      cases hrow) with hsame | ⟨-, -, -, -, -, hdeleted⟩
    · rw [hsame, hempty]
    · exact hdeleted

/-- A coroutine that has been stopped goes on in its phase, or comes to its end. -/
def Coroutine.Stopping (r : Coroutine) : Prop :=
  match r.point with
  | .monitor _ | .detect .. | .asleep _ => r.bm.status = .stopped
  | .finish => r.finalStatus ≠ .completed
  | .lost => True
  | _ => False

/-- A benchmark that has been stopped when it had these results. -/
structure Cell.Stopped (results : List PhaseResult) (phase : ℕ) (c : Cell) : Prop where
  run : ∀ r, c.run = some r → r.results = results ∧ r.bm.currentPhase = phase ∧ r.Stopping
  row : ∀ row, c.row = some row → row.status ≠ .completed ∧
    ∀ results', row.results.phases = some results' → results' = results

variable {results : List PhaseResult} {phase : ℕ}

lemma stopped_empty : Cell.empty.Stopped results phase where
  run _ h := by cases h
  row _ h := by cases h

/-- The coroutine goes on, and nothing is stored. -/
lemma Cell.Stopped.goto (h : c.Stopped results phase) (hrow : c'.row = c.row)
    (hrun : c'.run = some r') (hresults : r'.results = results)
    (hphase : r'.bm.currentPhase = phase) (hstopping : r'.Stopping) :
    c'.Stopped results phase where
  run r'' hr'' := by
    rw [hrun, Option.some.injEq] at hr''
    subst hr''
    exact ⟨hresults, hphase, hstopping⟩
  row row hrow' := h.row row (hrow ▸ hrow')

lemma Cell.Stopped.advance (h : c.Stopped results phase) (hrun : c.run = some r) {a : Own}
    (ha : c.advance env r a = some c') : c'.Stopped results phase := by
  obtain ⟨hresults, hphase, hstopping⟩ := h.run r hrun
  unfold Coroutine.Stopping at hstopping
  cases a with
  | enter =>
    dsimp only [Cell.advance] at ha
    split at ha
    · next i hpoint =>
      rw [hpoint] at hstopping
      cases hstopping
    · cases ha
  | deploy answers raised elapsed =>
    dsimp only [Cell.advance] at ha
    split at ha
    · next i phase hpoint =>
      rw [hpoint] at hstopping
      cases hstopping
    · cases ha
  | measure m =>
    dsimp only [Cell.advance] at ha
    split at ha
    · next l hpoint =>
      rw [hpoint] at hstopping
      obtain rfl := Option.some.inj ha
      exact h.goto rfl rfl hresults hphase hstopping
    · cases ha
  | timeUp =>
    dsimp only [Cell.advance] at ha
    split at ha
    · next l hpoint =>
      rw [hpoint] at hstopping
      obtain rfl := Option.some.inj ha
      rw [Cell.timeUp, if_pos hstopping]
      refine h.goto rfl rfl hresults hphase ?_
      show Coroutine.finalStatus { r with aborted := true, point := .finish } ≠ .completed
      rw [Coroutine.finalStatus, if_neg (show r.bm.status ≠ .failed by rw [hstopping]; simp),
        if_pos rfl]
      simp
    · cases ha
  | detect elapsed =>
    dsimp only [Cell.advance] at ha
    split at ha
    · next l m rule rest hpoint =>
      rw [hpoint] at hstopping
      obtain rfl := Option.some.inj ha
      exact h.goto rfl rfl hresults hphase hstopping
    · next l m hpoint =>
      rw [hpoint] at hstopping
      obtain rfl := Option.some.inj ha
      exact h.goto rfl rfl hresults hphase hstopping
    · cases ha
  | fail error =>
    dsimp only [Cell.advance] at ha
    split at ha
    · next bm hbm =>
      obtain rfl := Option.some.inj ha
      have hbm' : bm = r.bm := by
        unfold Coroutine.failsWith at hbm
        cases hpoint : r.point with
        | phase i =>
          rw [hpoint] at hstopping
          cases hstopping
        | deploy | monitor | detect =>
          rw [hpoint] at hbm
          exact (Option.some.inj hbm).symm
        | asleep | finish | lost =>
          rw [hpoint] at hbm
          cases hbm
      refine h.goto rfl rfl hresults (hbm' ▸ hphase) ?_
      show (if Status.failed = .failed then Status.failed else _) ≠ _
      rw [if_pos rfl]
      simp
    · cases ha
  | finalize now =>
    dsimp only [Cell.advance] at ha
    split at ha
    · next hpoint =>
      rw [hpoint] at hstopping
      obtain rfl := Option.some.inj ha
      refine ⟨fun r' hr' => (by cases hr'), fun row hrow => ?_⟩
      have hrow' : row = save c.row { r.bm with
          status := r.finalStatus, completedAt := some now,
          results := { r.bm.results with
            phases := some r.results
            summary := some
              (buildSummary env r.results c.bottlenecks r.maxStableAgents r.peakEps) } } :=
        (Option.some.inj hrow).symm
      rw [hrow']
      unfold save
      split
      · exact ⟨hstopping, fun results' hr => (Option.some.inj hr).symm.trans hresults⟩
      · exact ⟨hstopping, fun results' hr => (Option.some.inj hr).symm.trans hresults⟩
    · cases ha
  | lose =>
    dsimp only [Cell.advance] at ha
    split at ha
    · obtain rfl := Option.some.inj ha
      exact h.goto rfl rfl hresults hphase trivial
    · cases ha

lemma Cell.Stopped.cleanup (h : c.Stopped results phase) (now : ℕ) :
    (c.cleanup now).Stopped results phase := by
  unfold Cell.cleanup
  split
  · next row hrun hrow =>
    split
    · refine ⟨h.run, fun row' hrow' => ?_⟩
      obtain rfl := Option.some.inj hrow'
      exact ⟨by simp, (h.row row hrow).2⟩
    · exact h
  · exact h

/-- A stop request that comes again changes nothing. -/
lemma Cell.Stopped.stop (h : c.Stopped results phase) (hloop : c.holdsLoop = false) (now : ℕ) :
    (c.stop now).Stopped results phase := by
  unfold Cell.stop
  split
  · next _ _ r hrun =>
    obtain ⟨hresults, hphase, -⟩ := h.run r hrun
    refine h.goto rfl rfl hresults hphase ?_
    unfold Coroutine.Stopping
    dsimp only
    rcases Coroutine.point_of_free hrun hloop with ⟨l, hpoint⟩ | hpoint
    · rw [hpoint]
    · rw [hpoint]
      trivial
  · next row hrun hrow =>
    split
    · refine ⟨h.run, fun row' hrow' => ?_⟩
      rw [hrow] at hrow'
      obtain rfl := Option.some.inj hrow'
      exact ⟨by simp [save], (h.row row hrow).2⟩
    · exact h
  · exact h

/-- A move keeps that a benchmark has been stopped, unless it is a new one. -/
lemma Cell.Stopped.moves (h : c.Stopped results phase) (hm : Moves env up c up' c')
    (hnew : c = .empty → c' = .empty) : c'.Stopped results phase := by
  cases hm with
  | stay => exact h
  | start hs config now =>
    rw [hnew rfl]
    exact stopped_empty
  | own hrun ha => exact h.advance hrun ha
  | wake hrun hpoint =>
    obtain ⟨hresults, hphase, hstopping⟩ := h.run _ hrun
    unfold Coroutine.Stopping at hstopping
    rw [hpoint] at hstopping
    exact h.goto rfl rfl hresults hphase hstopping
  | stop hloop now => exact h.stop hloop now
  | cleanup _ now => exact h.cleanup now
  | prune _ before =>
    unfold Cell.prune
    split
    · split
      · exact ⟨h.run, fun row hrow => (by cases hrow)⟩
      · exact h
    · exact h
  | crash => exact ⟨fun r hrun => (by cases hrun), h.row⟩
  | restart _ now => exact h.cleanup now

/-- **A stop is never lost.**  A benchmark that is stopped while it runs never begins another
phase, gets no result for the phase it is in, and is never stored as completed. -/
theorem stop_honored {w w₁ w' : World} {as : List Action} {id now : ℕ} (h : Reached env w)
    (hrun : (w.cells id).run = some r) (hstop : step env w (.stop id now) = some w₁)
    (hruns : Run (step env) anyStep w₁ as w') :
    (∀ r', (w'.cells id).run = some r' →
      r'.results = r.results ∧ r'.bm.currentPhase = r.bm.currentPhase) ∧
    ∀ row, (w'.cells id).row = some row → row.status ≠ .completed ∧
      ∀ results, row.results.phases = some results → results = r.results := by
  obtain ⟨-, -, -, -, -, row, hrow, hunfinished, -⟩ := (h.lives.2 id).sound.active r hrun
  have hid := h.started hrow
  have hfree : (w.cells id).holdsLoop = false := by
    by_contra hholds
    have hloop := h.lives.1.loop id (by simpa using hholds)
    dsimp only [step] at hstop
    split at hstop
    · next hguard =>
      rw [hguard.2] at hloop
      cases hloop
    · cases hstop
  have hstopped : (w₁.cells id).Stopped r.results r.bm.currentPhase := by
    dsimp only [step] at hstop
    split at hstop
    · obtain rfl := Option.some.inj hstop
      rw [show (w.put id ((w.cells id).stop now)).cells id = (w.cells id).stop now from
        Function.update_self .., Cell.stop, hrun]
      refine ⟨fun r' hr' => ?_, fun row' hrow' => ?_⟩
      · obtain rfl := Option.some.inj hr'
        refine ⟨rfl, rfl, ?_⟩
        unfold Coroutine.Stopping
        dsimp only
        rcases Coroutine.point_of_free hrun hfree with ⟨l, hpoint⟩ | hpoint
        · rw [hpoint]
        · rw [hpoint]
          trivial
      · obtain rfl : row = row' := Option.some.inj (hrow.symm.trans hrow')
        rw [hunfinished.status, hunfinished.phases]
        exact ⟨by simp, fun _ hr => (by cases hr)⟩
    · cases hstop
  have hkept : (w'.cells id).Stopped r.results r.bm.currentPhase := by
    have hreached := h.step hstop
    have hid₁ := lt_of_lt_of_le hid (h.lives.1.step hstop).2.1
    clear hstop
    induction hruns with
    | nil => exact hstopped
    | @cons w w₁ w' a as _ hstep hrest ih =>
      obtain ⟨-, hnext, hmoves⟩ := hreached.lives.1.step hstep
      refine ih ?_ (hreached.step hstep) (lt_of_lt_of_le hid₁ hnext)
      refine hstopped.moves (hmoves id) fun hempty => ?_
      exact run_of_deleted hreached (.cons trivial hstep (.nil _)) hid₁ hempty
  exact ⟨fun r' hr' => ⟨(hkept.run r' hr').1, (hkept.run r' hr').2.1⟩, hkept.row⟩

/-- A benchmark that is stopped while it sleeps in its only phase is not completed. -/
theorem stop_honored_asleep : ∃ w w₁ w' row, Reached plain w ∧
    step plain w (.stop 0 7) = some w₁ ∧
    Run (step plain) anyStep w₁ [.wake 0, .own .timeUp, .own (.finalize 9)] w' ∧
    (w'.cells 0).row = some row ∧ row.status ≠ .completed := by
  have hexec : (exec (step plain) World.initial untilAsleep).any (fun w =>
      (w.cells 0).run.isSome && (exec (step plain) w [.stop 0 7, .wake 0, .own .timeUp,
        .own (.finalize 9)]).any fun w' => (w'.cells 0).row.isSome) = true := by decide +kernel
  obtain ⟨w, hrun, hw⟩ := exists_of_exec hexec
  rw [Bool.and_eq_true] at hw
  obtain ⟨r, hr⟩ := Option.isSome_iff_exists.mp hw.1
  cases hall : exec (step plain) w [.stop 0 7, .wake 0, .own .timeUp, .own (.finalize 9)] with
  | none =>
    rw [hall] at hw
    exact absurd hw.2 (by simp)
  | some w' =>
    rw [hall] at hw
    obtain ⟨row, hrow⟩ := Option.isSome_iff_exists.mp hw.2
    obtain ⟨w₁, hstop, hrest⟩ := Option.bind_eq_some_iff.mp hall
    have hruns := run_of_exec hrest
    exact ⟨w, w₁, w', row, ⟨_, hrun⟩, hstop, hruns, hrow,
      ((stop_honored ⟨_, hrun⟩ hr hstop hruns).2 row hrow).1⟩

end Habeny.Benchmarks
