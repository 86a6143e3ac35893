import Habeny.Deploy.Overlap
import Habeny.Deploy.Worker

/-!
# Containers leave the starting state

A deploy request records its containers as starting before its workers run, and what they report
is saved over that.  An exception in a worker, or a future that raises, leaves nothing to save; a
pool that is found broken by a submit ends the loop before the other containers have results.

The argument follows the loop: at every moment a container is recorded as starting exactly if it has
no result, or one that says nothing of it (`Tracked`).  `leaves_starting_iff` then says which runs
end with no container recorded as starting.
-/

namespace Habeny.Deploy

open Habeny.Lib Habeny.Agents

/-- A container is recorded as starting. -/
def Starting (store : Store) (name : Text) : Prop :=
  ∃ row, store.rows name = some row ∧ row.field .lifecycleStatus = .text "starting".toList

/-- What is saved of a container does not say what has become of it. -/
def Silent (metadata : Option Metadata) : Prop :=
  ∀ m ∈ metadata, ∀ v ∈ m.field .lifecycleStatus, v = .text "starting".toList

/-- A future leaves its container starting. -/
def LeftStarting : Option Outcome → Prop
  | none => False
  | some (.returned report) => Silent report.metadata
  | some (.raised _) => True

/-! ## Saving -/

lemma starting_congr {store store' : Store} {name : Text} (h : store'.rows name = store.rows name) :
    Starting store' name ↔ Starting store name := by
  rw [Starting, Starting, h]

lemma rows_persist_of_ne {r : Result} {name : Text} (h : name ≠ r.agentName) (store : Store)
    (now : Text) : (persistDeployResult store r now).rows name = store.rows name :=
  save_rows_of_ne (p := (now, r)) h

lemma rows_persist_self {store : Store} {r : Result} {row : Row}
    (h : store.rows r.agentName = some row) (now : Text) :
    (persistDeployResult store r now).rows r.agentName =
      some (row.overwrite fun c => r.metadata.bind (·.field c)) :=
  save_rows_self (p := (now, r)) h

lemma isSome_persist {store : Store} {name : Text} (h : (store.rows name).isSome = true)
    (r : Result) (now : Text) :
    ((persistDeployResult store r now).rows name).isSome = true := by
  by_cases hname : name = r.agentName
  · subst hname
    obtain ⟨row, hrow⟩ := Option.isSome_iff_exists.mp h
    rw [rows_persist_self hrow]
    rfl
  · rwa [rows_persist_of_ne hname]

/-- A result that does not say what has become of its container keeps the starting state. -/
lemma starting_persist_of_silent {store : Store} {r : Result} (hsilent : Silent r.metadata)
    (h : Starting store r.agentName) (now : Text) :
    Starting (persistDeployResult store r now) r.agentName := by
  obtain ⟨row, hrow, hstarting⟩ := h
  refine ⟨_, rows_persist_self hrow now, ?_⟩
  show (r.metadata.bind (·.field .lifecycleStatus)).getD (row.field .lifecycleStatus) = _
  cases hv : r.metadata.bind (·.field .lifecycleStatus) with
  | none => exact hstarting
  | some v =>
    obtain ⟨m, hm, hv⟩ := Option.bind_eq_some_iff.mp hv
    exact hsilent m hm v hv

/-- Another one ends it. -/
lemma not_starting_persist {store : Store} {r : Result} (hsilent : ¬Silent r.metadata)
    (h : (store.rows r.agentName).isSome = true) (now : Text) :
    ¬Starting (persistDeployResult store r now) r.agentName := by
  rintro ⟨row', hrow', hstarting⟩
  obtain ⟨row, hrow⟩ := Option.isSome_iff_exists.mp h
  rw [rows_persist_self hrow, Option.some.injEq] at hrow'
  subst hrow'
  refine hsilent fun m hm v hv => ?_
  rw [Option.mem_def.mp hm] at hstarting
  simpa [Row.overwrite, Option.mem_def.mp hv] using hstarting

/-! ## The invariant -/

/-- A container is recorded as starting exactly if it has no result, or one that says nothing. -/
structure Tracked (d : Deployment) (s : State) : Prop where
  row : ∀ n ∈ d.names, (s.store.rows n).isSome = true
  status : ∀ n ∈ d.names, Starting s.store n ↔ n ∉ s.recorded ∨ LeftStarting (s.outcome n)

namespace Tracked

variable {d : Deployment} {s s' : State}

lemma congr (h : Tracked d s) (hstore : s'.store = s.store) (hrecorded : s'.recorded = s.recorded)
    (houtcome : ∀ n ∈ s.recorded, s'.outcome n = s.outcome n) : Tracked d s' where
  row n hn := by
    rw [hstore]
    exact h.row n hn
  status n hn := by
    rw [hstore, hrecorded, h.status n hn]
    by_cases hrec : n ∈ s.recorded
    · rw [houtcome n hrec]
    · simp [hrec]

/-- Recording a result that says as much as its future does. -/
lemma recordResult {r : Result} (h : Tracked d s)
    (hr : Silent r.metadata ↔ LeftStarting (s.outcome r.agentName)) (now : Text) :
    Tracked d (recordResult now s r) := by
  have hstore : (Deploy.recordResult now s r).store = persistDeployResult s.store r now := by
    unfold Deploy.recordResult
    cases r.success <;> rfl
  refine ⟨fun n hn => ?_, fun n hn => ?_⟩
  · rw [hstore]
    exact isSome_persist (h.row n hn) r now
  · rw [hstore, recordResult_recorded, (sameLoop_recordResult now s r).outcome]
    by_cases hname : n = r.agentName
    · subst hname
      simp only [List.mem_append, List.mem_singleton, or_true, not_true, false_or]
      by_cases hsilent : Silent r.metadata
      · refine iff_of_true (starting_persist_of_silent hsilent ?_ now) (hr.mp hsilent)
        exact (h.status _ hn).mpr (.inr (hr.mp hsilent))
      · exact iff_of_false (not_starting_persist hsilent (h.row _ hn) now) (mt hr.mpr hsilent)
    · rw [starting_congr (rows_persist_of_ne hname _ now), h.status n hn]
      simp [hname]

lemma recordAll {rs : List Result} (h : Tracked d s)
    (hr : ∀ r ∈ rs, Silent r.metadata ↔ LeftStarting (s.outcome r.agentName)) (now : Text) :
    Tracked d (rs.foldl (Deploy.recordResult now) s) := by
  induction rs generalizing s with
  | nil => exact h
  | cons r rs ih =>
    refine ih (h.recordResult (hr r List.mem_cons_self) now) fun r' hr' => ?_
    rw [(sameLoop_recordResult now s r).outcome]
    exact hr r' (List.mem_cons_of_mem r hr')

end Tracked

lemma not_silent_interrupted (seqId : ℤ) (started : Bool) :
    ¬Silent (some (interruptedMetadata seqId started)) := by
  intro h
  have hstarting : Value.text (if started then interrupted else "error".toList) =
      .text "starting".toList := h _ rfl _ rfl
  cases started <;> exact absurd (Value.text.inj hstarting) (by decide)

/-- The result of a future says as much as the future does. -/
lemma silent_resultOf (d : Deployment) (s : State) (n : Text) :
    Silent (resultOf d s n).metadata ↔ LeftStarting (s.outcome n) := by
  unfold resultOf
  rcases s.outcome n with _ | ⟨report⟩ | ⟨error⟩
  · exact iff_of_false (not_silent_interrupted (d.seqId n) true) id
  · exact .rfl
  · exact iff_of_true (fun m hm => absurd hm (by simp)) trivial

/-! ## One iteration -/

/-- The loop between two iterations. -/
structure Between (d : Deployment) (s : State) : Prop extends Tracked d s where
  parted : s.raised = false → Parted d [] s
  /-- What has completed has its result. -/
  seen : ∀ n, s.outcome n ≠ none → n ∈ s.recorded

lemma advance_outcome (d : Deployment) (s : State) (r : Round) (n : Text) :
    (advance d s r).outcome n =
      (s.outcome n).or ((r.completes.find? (·.1 = n)).map (·.2)) := by
  have hcancel : (cancelQueued d r s).outcome = s.outcome := by
    cases h : r.stop with
    | true => exact (cancelQueued_of_stop h).outcome
    | false => rw [cancelQueued_of_not_stop h]
  have hgive : (giveUp r (cancelQueued d r s)).outcome = s.outcome := by
    unfold giveUp
    split <;> exact hcancel
  show ((giveUp r (cancelQueued d r s)).outcome n).or _ = _
  rw [hgive]

lemma Tracked.noteStop {d : Deployment} {s : State} (h : Tracked d s) : Tracked d (noteStop s) := by
  unfold Deploy.noteStop
  cases s.stopNoted with
  | true => exact h
  | false => exact h.congr rfl rfl fun _ _ => rfl

/-- What is cancelled has not completed, and its result says so. -/
lemma Tracked.cancelQueued {d : Deployment} {s : State} (h : Tracked d s) (r : Round)
    (hqueued : ∀ n ∈ s.queued, s.outcome n = none) : Tracked d (cancelQueued d r s) := by
  cases hstop : r.stop with
  | false => rwa [cancelQueued_of_not_stop hstop]
  | true =>
    have hnote : Tracked d { Deploy.noteStop s with queued := [] } :=
      h.noteStop.congr rfl rfl fun _ _ => rfl
    rw [Deploy.cancelQueued, if_pos hstop]
    refine hnote.recordAll (fun res hres => ?_) r.now
    obtain ⟨n, hn, rfl⟩ := List.mem_map.mp hres
    refine iff_of_false (not_silent_interrupted (d.seqId n) false) ?_
    show ¬LeftStarting ((Deploy.noteStop s).outcome n)
    rw [(sameLoop_noteStop s).outcome]
    show ¬LeftStarting (s.outcome n)
    rw [hqueued n hn]
    exact id

lemma mem_recorded_disjoint {d : Deployment} {rest : List Text} {s : State} (h : Parted d rest s)
    {n : Text} (hn : n ∈ rest ++ s.pending) : n ∉ s.recorded := by
  intro hrec
  have hnodup := h.nodup
  rw [List.nodup_append] at hnodup
  refine hnodup.2.2 n ?_ n hrec rfl
  rcases List.mem_append.mp hn with hrest | hpending
  · simp [hrest]
  · simp [hpending]

lemma Between.queued {d : Deployment} {s : State} (h : Between d s) (hraised : s.raised = false) :
    ∀ n ∈ s.queued, s.outcome n = none := by
  intro n hn
  by_contra hne
  have hnodup := (h.parted hraised).nodup
  rw [List.nodup_append] at hnodup
  exact hnodup.2.2 n (by simp [hn]) n (h.seen n hne) rfl

lemma Between.advance {d : Deployment} {s : State} {r : Round} (h : Between d s)
    (hraised : s.raised = false)
    (hcompletes : ∀ c ∈ r.completes, c.1 ∈ givenUp r s ++ (advance d s r).pending) :
    Tracked d (advance d s r) := by
  have hparted := (h.parted hraised).advance r
  have hcancel := h.toTracked.cancelQueued r (h.queued hraised)
  have hbefore : Tracked d (handOut (free d (giveUp r (cancelQueued d r s)))
      (giveUp r (cancelQueued d r s))) := by
    refine hcancel.congr ?_ ?_ fun n _ => ?_ <;> unfold giveUp <;> split <;> rfl
  refine hbefore.congr rfl rfl fun n hn => ?_
  -- what completes has no result yet
  have hnone : r.completes.find? (·.1 = n) = none := by
    rw [List.find?_eq_none]
    intro c hc hname
    have hnew := mem_recorded_disjoint hparted (hcompletes c hc)
    exact hnew (of_decide_eq_true hname ▸ hn)
  show ((handOut _ _).outcome n).or _ = _
  rw [hnone, Option.map_none, Option.or_none]

lemma Tracked.conclude {d : Deployment} {s : State} (h : Tracked d s) (r : Round) :
    Tracked d (conclude d s r) := by
  have hdrain : Tracked d (drain r.messages { s with pending := stillRunning s }) :=
    h.congr rfl rfl fun _ _ => rfl
  refine hdrain.recordAll (fun res hres => ?_) r.now
  obtain ⟨n, -, rfl⟩ := List.mem_map.mp hres
  rw [resultOf_agentName]
  exact silent_resultOf d s n

lemma recorded_subset_advance (d : Deployment) (s : State) (r : Round) :
    s.recorded ⊆ (advance d s r).recorded := by
  cases hstop : r.stop with
  | true =>
    rw [(advance_of_stop hstop).2.2.2.1]
    exact List.subset_append_left _ _
  | false =>
    rw [advance_of_not_stop hstop]
    exact List.Subset.refl _

/-- A future that completes in an iteration gets its result in it. -/
lemma recorded_conclude (d : Deployment) (s : State) (r : Round) :
    (conclude d s r).recorded = s.recorded ++ r.order := by
  rw [conclude, recordAll_recorded, resultOf_agentNames]
  rfl

lemma raised_conclude_advance (d : Deployment) (s : State) (r : Round) :
    (conclude d (advance d s r) r).raised = s.raised := by
  rw [(sameLoop_conclude d _ r).raised]
  show (giveUp r (cancelQueued d r s)).raised = s.raised
  rw [(giveUp_frame r _).2.2.2.2]
  cases hstop : r.stop with
  | true => exact (cancelQueued_of_stop hstop).raised
  | false => rw [cancelQueued_of_not_stop hstop]

/-- **One iteration keeps track.** -/
lemma Between.round {d : Deployment} {s s' : State} {r : Round} (h : Between d s)
    (hround : round d s r = some s') : Between d s' := by
  obtain ⟨hraised, -, -, ⟨-, rfl⟩ | ⟨-, ⟨hcompletes, -, horder⟩, rfl⟩⟩ := round_cases hround
  · exact ⟨h.toTracked.congr rfl rfl fun _ _ => rfl, fun hnot => (by cases hnot), h.seen⟩
  · have hparted := (h.parted hraised).advance r
    refine ⟨(h.advance hraised hcompletes).conclude r, fun _ => hparted.conclude horder,
      fun n hn => ?_⟩
    rw [(sameLoop_conclude d _ r).outcome] at hn
    rw [recorded_conclude, List.mem_append]
    by_cases hold : s.outcome n = none
    · right
      refine horder.symm.subset ?_
      obtain ⟨c, hc, hname⟩ : ∃ c ∈ r.completes, c.1 = n := by
        have hsome : (Deploy.advance d s r).outcome n ≠ none := hn
        rw [advance_outcome, hold, Option.none_or, Ne, Option.map_eq_none_iff,
          ← Ne, Option.ne_none_iff_exists'] at hsome
        obtain ⟨c, hc⟩ := hsome
        exact ⟨c, List.mem_of_find?_eq_some hc, by simpa using List.find?_some hc⟩
      rcases List.mem_append.mp (hname ▸ hcompletes c hc) with hgiven | hpending
      · exact List.mem_append_left _ hgiven
      · exact List.mem_append_right _
          (List.mem_filter.mpr ⟨hpending, Option.isSome_iff_ne_none.mpr hn⟩)
    · exact .inl (recorded_subset_advance d s r (h.seen n hold))

/-! ## Runs -/

lemma tracked_of_run {d : Deployment} {guard : State → Round → Prop} {s s' : State}
    {rs : List Round} (hrun : Run (round d) guard s rs s') (h : Between d s) : Between d s' :=
  hrun.invariant (fun h _ hround => h.round hround) h

/-- What has completed stays as it is. -/
lemma outcome_of_round {d : Deployment} {s s' : State} {r : Round} {n : Text} {o : Outcome}
    (h : s.outcome n = some o) (hround : round d s r = some s') : s'.outcome n = some o := by
  obtain ⟨-, -, -, ⟨-, rfl⟩ | ⟨-, -, rfl⟩⟩ := round_cases hround
  · exact h
  · rw [(sameLoop_conclude d _ r).outcome]
    show (advance d s r).outcome n = some o
    rw [advance_outcome, h, Option.some_or]

/-- The pool takes what it is given, and what completes says what has become of its container. -/
def Clean (d : Deployment) (s : State) (r : Round) : Prop :=
  refused d s r = false ∧ ∀ c ∈ r.completes, ¬LeftStarting (some c.2)

/-- A future completes in one way only. -/
def Plays (out : Text → Outcome) (_ : State) (r : Round) : Prop :=
  ∀ c ∈ r.completes, c.2 = out c.1

/-- A clean iteration leaves no future that leaves its container starting. -/
lemma outcome_of_clean {d : Deployment} {s s' : State} {r : Round} (hclean : Clean d s r)
    (h : ∀ n, ¬LeftStarting (s.outcome n)) (hround : round d s r = some s') :
    s'.raised = false ∧ ∀ n, ¬LeftStarting (s'.outcome n) := by
  obtain ⟨hraised, -, -, ⟨hrefused, -⟩ | ⟨-, -, rfl⟩⟩ := round_cases hround
  · exact absurd hrefused (by simp [hclean.1])
  · refine ⟨(raised_conclude_advance d s r).trans hraised, fun n => ?_⟩
    rw [(sameLoop_conclude d _ r).outcome]
    show ¬LeftStarting ((advance d s r).outcome n)
    rw [advance_outcome]
    cases hold : s.outcome n with
    | some o =>
      rw [Option.some_or, ← hold]
      exact h n
    | none =>
      rw [Option.none_or]
      cases hc : r.completes.find? (·.1 = n) with
      | none => exact id
      | some c => exact hclean.2 c (List.mem_of_find?_eq_some hc)

/-- A pool that refuses a container leaves it starting. -/
lemma starting_of_refused {d : Deployment} {s s' : State} {r : Round} (h : Between d s)
    (hrefused : refused d s r = true) (hround : round d s r = some s') :
    s'.raised = true ∧ ∃ n ∈ d.names, Starting s'.store n := by
  obtain ⟨hraised, -, -, ⟨-, rfl⟩ | ⟨hnot, -⟩⟩ := round_cases hround
  · refine ⟨rfl, ?_⟩
    have hparted := h.parted hraised
    have hqueued : s.queued ≠ [] := by
      intro hnil
      simp [refused, free, hnil] at hrefused
    obtain ⟨n, hn⟩ := List.exists_mem_of_ne_nil _ hqueued
    have hnames : n ∈ d.names := hparted.subset (by simp [hn])
    refine ⟨n, hnames, ((h.status n hnames).mpr (.inl fun hrec => ?_))⟩
    have hnodup := hparted.nodup
    rw [List.nodup_append] at hnodup
    exact hnodup.2.2 n (by simp [hn]) n hrec rfl
  · exact absurd hrefused (by simp [hnot])

/-- A future that completes is one of the deployment's, and completes as it does. -/
lemma outcome_of_completes {d : Deployment} {out : Text → Outcome} {s s' : State} {r : Round}
    (h : Between d s) (hplays : Plays out s r) (hround : round d s r = some s')
    (hrefused : refused d s r = false) {c : Text × Outcome} (hc : c ∈ r.completes) :
    c.1 ∈ d.names ∧ s'.outcome c.1 = some c.2 := by
  obtain ⟨hraised, -, -, ⟨hyes, -⟩ | ⟨-, ⟨hcompletes, -, -⟩, rfl⟩⟩ := round_cases hround
  · exact absurd hyes (by simp [hrefused])
  · have hmem := hcompletes c hc
    have hparted := (h.parted hraised).advance r
    refine ⟨hparted.subset (by
      rcases List.mem_append.mp hmem with hgiven | hpending
      · simp [hgiven]
      · simp [hpending]), ?_⟩
    -- it has no result yet, so it had not completed before
    have hnone : s.outcome c.1 = none := by
      by_contra hne
      exact mem_recorded_disjoint hparted hmem (recorded_subset_advance d s r (h.seen _ hne))
    rw [(sameLoop_conclude d _ r).outcome]
    show (advance d s r).outcome c.1 = some c.2
    rw [advance_outcome, hnone, Option.none_or]
    obtain ⟨c', hc'⟩ : ∃ c', r.completes.find? (·.1 = c.1) = some c' := by
      rw [← Option.ne_none_iff_exists', Ne, List.find?_eq_none]
      exact fun hall => hall c hc (by simp)
    have hname : c'.1 = c.1 := by simpa using List.find?_some hc'
    rw [hc', Option.map_some, hplays c' (List.mem_of_find?_eq_some hc'), hname, ← hplays c hc]

/-- **A run leaves no container starting exactly if all its iterations are clean.** -/
theorem run_leaves_starting_iff {d : Deployment} {out : Text → Outcome} {s s' : State}
    {rs : List Round} (hrun : Run (round d) (Plays out) s rs s') (h : Between d s)
    (hraised : s.raised = false) (houtcome : ∀ n, ¬LeftStarting (s.outcome n))
    (hend : s'.done = true ∨ s'.raised = true) :
    (∀ n ∈ d.names, ¬Starting s'.store n) ↔ Run (round d) (Clean d) s rs s' := by
  induction hrun with
  | nil s =>
    refine iff_of_true (fun n hn hstarting => ?_) (.nil s)
    have hdone : s.done = true := hend.resolve_right (by simp [hraised])
    rw [State.done, Bool.and_eq_true, List.isEmpty_iff, List.isEmpty_iff] at hdone
    have hrec : n ∈ s.recorded := by
      have := (h.parted hraised).symm.subset hn
      simpa [hdone] using this
    rcases (h.status n hn).mp hstarting with hnot | hleft
    · exact hnot hrec
    · exact houtcome n hleft
  | @cons s s₁ s' r rs hplays hround hrest ih =>
    have hnext := h.round hround
    by_cases hclean : Clean d s r
    · obtain ⟨hraised', houtcome'⟩ := outcome_of_clean hclean houtcome hround
      rw [ih hnext hraised' houtcome' hend]
      constructor
      · exact fun hrun => .cons hclean hround hrun
      · intro hrun
        cases hrun with
        | cons _ hstep hrun =>
          rw [hround, Option.some.injEq] at hstep
          exact hstep ▸ hrun
    · refine iff_of_false (fun hnone => ?_) fun hrun => ?_
      · cases hrefused : refused d s r with
        | true =>
          -- the exception ends the run
          obtain ⟨hraised', n, hn, hstarting⟩ := starting_of_refused h hrefused hround
          cases hrest with
          | nil => exact hnone n hn hstarting
          | cons _ hstep _ =>
            rw [(round_cases hstep).1] at hraised'
            cases hraised'
        | false =>
          rw [Clean, not_and] at hclean
          obtain ⟨c, hc, hleft⟩ : ∃ c ∈ r.completes, LeftStarting (some c.2) := by
            by_contra hnone
            exact hclean hrefused fun c hc hleft => hnone ⟨c, hc, hleft⟩
          obtain ⟨hn, hout⟩ := outcome_of_completes h hplays hround hrefused hc
          have hend' : s'.outcome c.1 = some c.2 :=
            hrest.invariant (P := fun s => s.outcome c.1 = some c.2)
              (fun h _ hround => outcome_of_round h hround) hout
          have htracked := tracked_of_run hrest hnext
          exact hnone c.1 hn ((htracked.status c.1 hn).mpr (.inr (hend' ▸ hleft)))
      · cases hrun with
        | cons hguard _ _ => exact hclean hguard

/-! ## Requests -/

/-- How the future of a container ends: its worker runs with these calls, or the future raises. -/
inductive Future where
  | works (calls : Calls)
  | breaks (error : Text)

def Future.outcome (name : Text) (settings : Settings) (seqId : ℤ) : Future → Outcome
  | .works calls => .returned (deployContainer name settings seqId calls)
  | .breaks error => .raised error

/-- The worker of a container runs, and none of its calls raises. -/
def Future.getsThrough (name : Text) (settings : Settings) : Future → Bool
  | .works calls => calls.noneRaises name settings
  | .breaks _ => false

lemma leftStarting_outcome_iff (name : Text) (settings : Settings) (seqId : ℤ) (f : Future) :
    ¬LeftStarting (some (f.outcome name settings seqId)) ↔ f.getsThrough name settings = true := by
  cases f with
  | breaks error => exact iff_of_false (fun h => h trivial) (by simp [Future.getsThrough])
  | works calls =>
    have hmetadata := metadata_deployContainer name settings seqId calls
    show ¬Silent _ ↔ calls.noneRaises name settings = true
    split_ifs at hmetadata with hraises
    · refine iff_of_true (fun hsilent => ?_) hraises
      obtain ⟨m, t, hm, ht, hne⟩ := hmetadata
      exact hne (Value.text.inj (hsilent m hm _ ht))
    · exact iff_of_false (fun h => h fun m hm => absurd hm (by simp [hmetadata])) hraises

lemma starting_announce (settings : Settings) (now : Text) (store : Store) (name : Text) :
    Starting (announce settings now store name) name := by
  obtain ⟨row, hrow⟩ := Option.isSome_iff_exists.mp (getOrCreateAgentSeqId_isSome store name now)
  exact ⟨_, writeAgentMetadata_rows_self hrow rfl now, rfl⟩

lemma starting_announceAll {settings : Settings} {now name : Text} {names : List Text}
    (hnodup : names.Nodup) (h : name ∈ names) (store : Store) :
    Starting (names.foldl (announce settings now) store) name := by
  induction names generalizing store with
  | nil => exact absurd h List.not_mem_nil
  | cons n ns ih =>
    rw [List.nodup_cons] at hnodup
    rw [List.foldl_cons]
    rcases List.mem_cons.mp h with rfl | hmem
    · rw [starting_congr (announceAll_rows_of_notMem hnodup.1 _)]
      exact starting_announce settings now store name
    · exact ih hnodup.2 hmem _

/-- The loop of a request begins with its containers recorded as starting. -/
lemma between_start (env : Env) (user : Option Auth.User) (req : Request) (settings : Settings)
    (store : Store) (seqId : Text → ℤ) :
    Between (req.deployment env seqId)
      (start (req.deployment env seqId) (prepare env user req settings store)) := by
  have hstarting : ∀ n ∈ req.names, Starting (prepare env user req settings store) n :=
    fun n hn => starting_announceAll (nodup_containerNames _ _) hn _
  refine ⟨⟨fun n hn => ?_, fun n hn => ?_⟩, fun _ => ?_, fun n hn => absurd rfl hn⟩
  · obtain ⟨row, hrow, -⟩ := hstarting n hn
    exact Option.isSome_iff_exists.mpr ⟨row, hrow⟩
  · exact iff_of_true (hstarting n hn) (.inl List.not_mem_nil)
  · simp [Parted, start, State.recorded]

/-- The pool takes what it is given, and the workers whose futures complete get through. -/
def GetsThrough (d : Deployment) (settings : Settings) (futures : Text → Future) (s : State)
    (r : Round) : Prop :=
  refused d s r = false ∧ ∀ c ∈ r.completes, (futures c.1).getsThrough c.1 settings = true

/-- **When a deploy request has finished, none of its containers is recorded as starting** exactly
if no name was handed to a broken pool, no future raised, and no call of a worker did. -/
theorem leaves_starting_iff {env : Env} {user : Option Auth.User} {req : Request}
    {settings : Settings} {store : Store} {seqId : Text → ℤ} {futures : Text → Future}
    {rs : List Round} {s : State}
    (hrun : Run (round (req.deployment env seqId))
      (Plays fun n => (futures n).outcome n settings (seqId n))
      (start (req.deployment env seqId) (prepare env user req settings store)) rs s)
    (hend : s.done = true ∨ s.raised = true) :
    (∀ n ∈ req.names, ¬Starting s.store n) ↔
      Run (round (req.deployment env seqId))
        (GetsThrough (req.deployment env seqId) settings futures)
        (start (req.deployment env seqId) (prepare env user req settings store)) rs s := by
  have hclean := run_leaves_starting_iff hrun (between_start env user req settings store seqId) rfl
    (fun _ => id) hend
  refine hclean.trans ⟨fun h => ?_, fun h => ?_⟩
  · refine (hrun.both h).mono fun _ r ⟨hplays, hrefused, hleaves⟩ => ⟨hrefused, fun c hc => ?_⟩
    have hout : c.2 = (futures c.1).outcome c.1 settings (seqId c.1) := hplays c hc
    exact (leftStarting_outcome_iff ..).mp (hout ▸ hleaves c hc)
  · refine (hrun.both h).mono fun _ r ⟨hplays, hrefused, hgets⟩ => ⟨hrefused, fun c hc => ?_⟩
    have hout : c.2 = (futures c.1).outcome c.1 settings (seqId c.1) := hplays c hc
    exact hout ▸ (leftStarting_outcome_iff ..).mpr (hgets c hc)

/-- Calls that all return, of a worker that deploys a container. -/
def goodCalls : Calls :=
  { listContainers := .ok [], container := .ok (), osConfig := .ok (), create := .ok true,
    configure := .ok (), start := .ok true, stop := .ok (), destroy := .ok (), wait := .ok (),
    install := .ok ⟨true, [], []⟩, up := .ok true, getIps := .ok [], running := .ok true,
    state := .ok "RUNNING".toList, initPid := .ok 4711, deployTime := "3.0".toList }

/-- The image cannot be downloaded. -/
def badCalls : Calls := { goodCalls with create := .error "no space left on device".toList }

/-- The iteration in which the worker of the one container ends. -/
def webRound (calls : Calls) : Round :=
  { stop := false, late := false, accepts := none,
    completes := [("web-0001".toList,
      (Future.works calls).outcome "web-0001".toList webRequest.settings 7)],
    messages := [], order := ["web-0001".toList], now := [] }

/-- The loop of the one container begins. -/
def webStart : State :=
  start (webRequest.deployment webEnv fun _ => 7)
    (prepare webEnv none webRequest webRequest.settings webStore)

lemma plays_webRound (calls : Calls) (s : State) :
    Plays (fun n => (Future.works calls).outcome n webRequest.settings 7) s (webRound calls) := by
  intro c hc
  rw [List.mem_singleton.mp hc]

/-- A container that is deployed does not stay in the starting state. -/
theorem web_leaves_starting : ∃ s, exec (round (webRequest.deployment webEnv fun _ => 7)) webStart
    [webRound goodCalls] = some s ∧ ∀ n ∈ webRequest.names, ¬Starting s.store n := by
  have hsome : (round (webRequest.deployment webEnv fun _ => 7) webStart
      (webRound goodCalls)).isSome = true := by decide +kernel
  obtain ⟨s, hs⟩ := Option.isSome_iff_exists.mp hsome
  have hdone : (round (webRequest.deployment webEnv fun _ => 7) webStart
      (webRound goodCalls)).all State.done = true := by decide +kernel
  rw [hs] at hdone
  refine ⟨s, by rw [exec, hs]; rfl, ?_⟩
  refine (@leaves_starting_iff webEnv none webRequest webRequest.settings webStore (fun _ => 7)
    (fun _ => .works goodCalls) _ _ (.cons (plays_webRound goodCalls _) hs (.nil s))
    (.inl hdone)).mpr ?_
  refine .cons ⟨by decide +kernel, fun c hc => ?_⟩ hs (.nil s)
  rw [List.mem_singleton.mp hc]
  decide +kernel

/-- A container whose image cannot be downloaded is recorded as starting when the request has
finished. -/
theorem web_stays_starting : ∃ s,
    Run (round (webRequest.deployment webEnv fun _ => 7))
      (Plays fun n => (Future.works badCalls).outcome n webRequest.settings 7) webStart
      [webRound badCalls] s ∧ s.done = true ∧
      (s.store.rows "web-0001".toList).map (·.field .lifecycleStatus) =
        some (.text "starting".toList) := by
  have hround : (round (webRequest.deployment webEnv fun _ => 7) webStart
      (webRound badCalls)).any (fun s => s.done && decide
        ((s.store.rows "web-0001".toList).map (·.field .lifecycleStatus) =
          some (.text "starting".toList))) = true := by decide +kernel
  obtain ⟨s, hs, hend⟩ := (Option.any_eq_true _ _).mp hround
  rw [Bool.and_eq_true, decide_eq_true_iff] at hend
  exact ⟨s, .cons (plays_webRound badCalls _) hs (.nil s), hend.1, hend.2⟩

end Habeny.Deploy
