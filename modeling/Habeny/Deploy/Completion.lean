import Habeny.Deploy.Accounting

/-!
# A deployment ends with a result for every container

Each iteration of the loop hands out, cancels, gives up or picks up something, or it only waits
(`toDo`).  With the account of `Accounting` this says that the loop ends, and with what.  The
one thing that can go wrong is a pool that breaks while names are still queued: the next submit
raises, and the results so far and the names still queued are lost with it.
-/

namespace Habeny.Deploy

open Habeny.Lib Habeny.Agents

/-! ## The loop ends -/

/-- What is left to do: a queued name has to be handed out and picked up, a pending one to be
picked up. -/
def toDo (s : State) : ℕ := 2 * s.queued.length + s.pending.length

lemma length_stillRunning_le (s : State) : (stillRunning s).length ≤ s.pending.length :=
  List.length_filter_le _ _

/-- A future is picked up exactly if fewer are left running. -/
lemma stillRunning_eq_of_length {s : State} (h : s.pending.length ≤ (stillRunning s).length) :
    stillRunning s = s.pending :=
  List.filter_sublist.eq_of_length_le h

lemma toDo_conclude (d : Deployment) (s : State) (r : Round) :
    toDo (conclude d s r) = 2 * s.queued.length + (stillRunning s).length := by
  rw [toDo, (sameLoop_conclude d s r).queued, (sameLoop_conclude d s r).pending]

/-- The part of an iteration before the futures does not add work; if it takes none away, it
has not touched the pending futures, there are some, and nothing was given up. -/
lemma toDo_advance {d : Deployment} {s : State} (r : Round) (hdone : s.done = false) :
    toDo (advance d s r) ≤ toDo s ∧
      (toDo (advance d s r) = toDo s →
        (advance d s r).pending = s.pending ∧ s.pending ≠ [] ∧ (r.stop && r.late) = false) := by
  have hsome : 0 < s.queued.length + s.pending.length := by
    by_contra hzero
    simp only [not_lt, Nat.le_zero, Nat.add_eq_zero_iff, List.length_eq_zero_iff] at hzero
    simp [State.done, hzero] at hdone
  cases hstop : r.stop with
  | true =>
    obtain ⟨hqueued, -, hpending, -, -⟩ := advance_of_stop (d := d) (s := s) hstop
    rw [toDo, toDo, hqueued, hpending]
    cases hlate : r.late with
    | true => simp; omega
    | false =>
      refine ⟨by simp, fun heq => ?_⟩
      simp only [Bool.false_eq_true, if_false, List.length_nil] at heq
      refine ⟨by simp, ?_, by simp⟩
      rw [← List.length_pos_iff]
      omega
  | false =>
    have hfree : free d s ≤ s.queued.length := Nat.min_le_left _ _
    rw [advance_of_not_stop hstop]
    simp only [toDo, completeAll, handOut, List.length_drop, List.length_append, List.length_take,
      min_eq_left hfree, Bool.false_and, and_true]
    refine ⟨by omega, fun heq => ?_⟩
    have hnone : free d s = 0 := by omega
    refine ⟨by simp [hnone], ?_⟩
    rw [← List.length_pos_iff]
    have := d.workers_pos
    rw [free] at hnone
    omega

/-- An iteration that leaves as much to do as before only waits. -/
lemma toDo_round {d : Deployment} {s s' : State} {r : Round} (hround : round d s r = some s') :
    toDo s' ≤ toDo s ∧
      (toDo s' = toDo s → s'.pending = s.pending ∧ s.pending ≠ [] ∧
        (r.stop && r.late) = false ∧ ∀ n ∈ s'.pending, s'.outcome n = none) := by
  obtain ⟨-, hdone, -, ⟨hrefused, rfl⟩ | ⟨-, -, rfl⟩⟩ := round_cases hround
  · rw [refused, Bool.and_eq_true, Option.any_eq_true] at hrefused
    obtain ⟨-, k, hk, hlt⟩ := hrefused
    have hfree : free d s ≤ s.queued.length := Nat.min_le_left _ _
    have hless : toDo (breakOff s r) < toDo s := by
      simp only [decide_eq_true_eq] at hlt
      simp only [toDo, breakOff, handOut, hk, Option.getD_some, List.length_drop,
        List.length_append, List.length_take]
      omega
    exact ⟨hless.le, fun heq => absurd heq hless.ne⟩
  · obtain ⟨hle, hidle⟩ := toDo_advance (d := d) r hdone
    have hpick := length_stillRunning_le (advance d s r)
    rw [toDo_conclude]
    rw [toDo] at hle
    refine ⟨by omega, fun heq => ?_⟩
    obtain ⟨hpending, hne, hlate⟩ := hidle (by rw [toDo]; omega)
    have hstill := stillRunning_eq_of_length (s := advance d s r) (by omega)
    refine ⟨?_, hne, hlate, fun n hn => outcome_of_mem_conclude hn⟩
    rw [(sameLoop_conclude d _ r).pending]
    exact hstill.trans hpending

/-- Every started worker eventually ends, or the deadline of a stop passes. -/
def Fair {d : Deployment} {store : Store} (e : Endless (round d) (start d store)) : Prop :=
  ∀ k, ∀ n ∈ (e.state k).pending, ∃ k', k ≤ k' ∧
    ((e.state (k' + 1)).outcome n ≠ none ∨ ((e.action k').stop && (e.action k').late) = true)

/-- The loop does not go on forever. -/
lemma not_fair {d : Deployment} {store : Store} (e : Endless (round d) (start d store)) :
    ¬ Fair e := by
  intro hfair
  obtain ⟨k₀, hconst⟩ := e.settles toDo fun k => (toDo_round (e.step_eq k)).1
  have hidle : ∀ k, k₀ ≤ k → _ := fun k hk =>
    (toDo_round (e.step_eq k)).2 ((hconst (k + 1) (by omega)).trans (hconst k hk).symm)
  -- from there on the same futures are pending
  have hpending : ∀ j, (e.state (k₀ + j)).pending = (e.state k₀).pending := fun j => by
    induction j with
    | zero => rfl
    | succ j ih => exact (hidle (k₀ + j) (by omega)).1.trans ih
  obtain ⟨n, hn⟩ := List.exists_mem_of_ne_nil _ (hidle k₀ le_rfl).2.1
  obtain ⟨k', hk', hend⟩ := hfair k₀ n hn
  obtain ⟨hkeep, -, hlate, hnone⟩ := hidle k' hk'
  obtain ⟨j, rfl⟩ := Nat.exists_eq_add_of_le hk'
  rcases hend with hcomplete | hgiven
  · exact hcomplete (hnone n (by rw [hkeep, hpending j]; exact hn))
  · exact absurd hgiven (by simp [hlate])

/-- The loop is never stuck: an iteration that observes nothing new is always possible. -/
lemma exists_round {d : Deployment} {s : State} (hraised : s.raised = false)
    (hdone : s.done = false) : ∃ r s', Sound d s r ∧ round d s r = some s' := by
  let quiet : Round :=
    { stop := s.stopNoted, late := false, accepts := none, completes := [], messages := [],
      order := [], now := [] }
  let r : Round := { quiet with order := pickedUp (advance d s quiet) }
  have hrefused : refused d s r = false := by simp [refused, r, quiet]
  have hleft : givenUp r s = [] := by simp [givenUp, r, quiet]
  have hobserved : r.Observed d s := by
    refine ⟨by simp [r, quiet], by simp [r, quiet], ?_⟩
    rw [hleft]
    exact .refl _
  exact ⟨r, _, ⟨hrefused, by simp [r, quiet]⟩,
    round_of_observed hraised hdone (fun h => h) hrefused hobserved⟩

/-! ## The whole run -/

/-- What is promised of a deployment in a state of its loop; `job` is the progress record as
the loop finds it. -/
structure AccountedFor (d : Deployment) (job : Job) (s : State) : Prop where
  /-- No exception leaves the loop. -/
  raised : s.raised = false
  /-- No name has two results, and no other name has one. -/
  nodup : s.recorded.Nodup
  subset : s.recorded ⊆ d.names
  /-- At the end every name has its result, and the counters say so. -/
  all : s.done = true → s.recorded.Perm d.names
  completed : s.done = true → (progress job s.updates).completed = d.names.length
  counts : s.done = true → (progress job s.updates).successful
    + (progress job s.updates).failed = d.names.length
  settled : s.done = true → ∀ n ∈ d.names, (progress job s.updates).settled n
  /-- At no moment has a container lost a final status. -/
  final : ∀ us vs, s.updates = us ++ vs → ∀ n, (progress job us).settled n →
    (progress job s.updates).statusOf n = (progress job us).statusOf n
  /-- An iteration that sees the stop starts nothing, and so does every later one. -/
  stopped : ∀ r s', round d s r = some s' → r.stop = true →
    s'.stopNoted = true ∧ s'.started = s.started
  noted : s.stopNoted = true → ∀ r s', round d s r = some s' → r.stop = true
  /-- The loop goes on until it is done. -/
  next : s.done = false → ∃ r s', Sound d s r ∧ round d s r = some s'

/-- A sound iteration raises nothing. -/
lemma raised_of_sound {d : Deployment} {s s' : State} {r : Round} (hsound : Sound d s r)
    (hround : round d s r = some s') : s'.raised = false := by
  obtain ⟨hraised, -, -, ⟨hrefused, -⟩ | ⟨-, -, rfl⟩⟩ := round_cases hround
  · exact absurd hrefused (by simp [hsound.1])
  · rw [(sameLoop_conclude d _ r).raised]
    cases hstop : r.stop with
    | true =>
      have := (giveUp_frame r (cancelQueued d r s)).2.2.2.2
      rw [(cancelQueued_of_stop hstop).raised] at this
      exact this.trans hraised
    | false =>
      rw [advance_of_not_stop hstop]
      exact hraised

lemma accountedFor_of_accounted {d : Deployment} {job : Job} {s : State} (hjob : job.Fresh)
    (h : Accounted d [] s) (hraised : s.raised = false) : AccountedFor d job s := by
  have hnodup := h.parted.nodup
  rw [List.append_nil] at hnodup
  obtain ⟨hcompleted, hsuccessful, hfailed⟩ := counts_progress job s.updates
  have hall : s.done = true → s.recorded.Perm d.names := fun hdone => by
    have hnames := h.names
    rw [State.done, Bool.and_eq_true, List.isEmpty_iff, List.isEmpty_iff] at hdone
    simpa [hdone] using hnames
  have hlength : s.recorded.length = (s.updates.filterMap Update.settles).length := by
    rw [h.settles]
  refine ⟨hraised, (List.nodup_append.mp hnodup).2.1, ?_, hall, ?_, ?_, ?_, ?_, ?_, ?_, ?_⟩
  · exact fun n hn => h.names.subset (by simp [hn])
  · intro hdone
    rw [hcompleted, hjob.completed, ← hlength, (hall hdone).length_eq, Nat.zero_add]
  · intro hdone
    rw [hsuccessful, hfailed, hjob.successful, hjob.failed, Nat.zero_add, Nat.zero_add,
      ← length_settles_eq, ← hlength, (hall hdone).length_eq]
  · intro hdone n hn
    exact h.last.settled (h.settles ▸ (hall hdone).symm.subset hn) job
  · rintro us vs hsplit n hsettled
    have hn := mem_settles_of_settled (hjob.unsettled n) hsettled
    rw [hsplit]
    exact (hsplit ▸ h.last : SettledLast (us ++ vs)).statusOf_eq hn job
  · exact fun r s' hround hstop => round_of_stop hround hstop
  · exact fun hnoted r s' hround => (round_cases hround).2.2.1 hnoted
  · exact exists_round hraised

/-- **Every container of a deployment is accounted for**, in every run in which no name is
handed to a broken pool and no step message comes after its container's result; and if the
workers end or the deadline of a stop passes, the loop ends. -/
theorem run_accounts_for_all (d : Deployment) (store : Store) (job : Job) (hjob : job.Fresh) :
    (∀ rs s, Run (round d) (Sound d) (start d store) rs s → AccountedFor d job s) ∧
      ∀ e : Endless (round d) (start d store), ¬ Fair e := by
  refine ⟨fun rs s hrun => ?_, not_fair⟩
  have hinv : Accounted d [] s ∧ s.raised = false :=
    hrun.invariant (P := fun s => Accounted d [] s ∧ s.raised = false)
      (fun h hsound hround => ⟨h.1.round hsound hround, raised_of_sound hsound hround⟩)
      ⟨accounted_start d store, rfl⟩
  exact accountedFor_of_accounted hjob hinv.1 hinv.2

/-! ## A pool that breaks -/

/-- Two containers, deployed one after the other. -/
def pair : Deployment :=
  { names := ["gs-0001".toList, "gs-0002".toList], nodup := by decide, mode := .sequential,
    deployWorkers := 4, deployWorkers_pos := by decide, seqId := fun _ => 1 }

/-- A store that knows no container. -/
def emptyStore : Store := 
  { rows := fun _ => none, nextSeqId := 1, owners := fun _ => none, groups := fun _ => false }

/-- An iteration in which one future completes. -/
def finishes (name : Text) (o : Outcome) : Round :=
  { stop := false, late := false, accepts := none, completes := [(name, o)],
    messages := [(name, "Starting container".toList)], order := [name], now := [] }

/-- A worker that has deployed its container. -/
def deployed : Outcome :=
  .returned
    { success := true, error := none, installMessage := none, deployTime := some "1.5".toList,
      ipAddress := none, metadata := none }

/-- The record of a deployment whose containers all wait. -/
def queuedJob (d : Deployment) : Job :=
  progress (progressStart d.names.length) (d.names.map queuedUpdate)

lemma fresh_queuedJob (d : Deployment) : (queuedJob d).Fresh := by
  refine (fresh_progressStart d.names.length).progress ?_
  rw [List.filterMap_eq_nil_iff]
  intro u hu
  obtain ⟨n, -, rfl⟩ := List.mem_map.mp hu
  rfl

instance (d : Deployment) (s : State) (r : Round) : Decidable (Sound d s r) :=
  inferInstanceAs (Decidable (_ ∧ _))

/-- Both containers are deployed. -/
def bothFinish : List Round :=
  [finishes "gs-0001".toList deployed, finishes "gs-0002".toList deployed]

theorem pair_accounted : ∃ s, exec (round pair) (start pair emptyStore) bothFinish = some s ∧
    s.done = true ∧ AccountedFor pair (queuedJob pair) s :=
  ⟨_, rfl, rfl, (run_accounts_for_all pair emptyStore (queuedJob pair) (fresh_queuedJob pair)).1
    bothFinish _ (run_of_execMeets (g := fun s r => decide (Sound pair s r))
      (fun _ _ h => of_decide_eq_true h) rfl (by decide +kernel))⟩

/-- The first worker dies and breaks the pool. -/
def poolBreaks : List Round :=
  [finishes "gs-0001".toList (.raised "A process in the pool was terminated".toList),
    { stop := false, late := false, accepts := some 0, completes := [], messages := [],
      order := [], now := [] }]

/-- The submit of the second container raises, and the loop ends with one result of two. -/
theorem broken_pool_loses_container : ∃ s,
    Run (round pair) anyStep (start pair emptyStore) poolBreaks s ∧ s.raised = true ∧
      (∀ r, round pair s r = none) ∧ s.recorded = ["gs-0001".toList] ∧
      (progress (queuedJob pair) s.updates).completed = 1 ∧
      ¬ (progress (queuedJob pair) s.updates).settled "gs-0002".toList := by
  refine ⟨_, run_of_exec rfl, rfl, fun r => rfl, rfl, rfl, ?_⟩
  rintro ⟨st, hst, hfinal⟩
  obtain rfl : Status.pending = st := Option.some.inj hst
  exact absurd hfinal (by decide)

end Habeny.Deploy
