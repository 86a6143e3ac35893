import Habeny.Deploy.Progress
import Habeny.Lib.Dict
import Habeny.Lib.Transition
import Mathlib.Order.Lattice

/-!
# The deployments that are tracked

The records of deployments stand in a table in the order in which they were put there.  A start
puts a record and then drops finished ones, the first in the table first, while there are more than
the limit.  The key is chosen by the client: a start under a key that has a record takes its place.

Where no start is under a key that has a record, running deployments keep their records, and of the
finished ones those go first that were started first (`tracked_kept`).
-/

namespace Habeny.Deploy

open Habeny.Lib

/-- The record of a deployment. -/
structure TrackedJob where
  status : Text
  startedAt : Text
  finishedAt : Option Text
  siemType : Text
  job : Job

def runningStatus : Text := "running".toList

def TrackedJob.isRunning (r : TrackedJob) : Bool := r.status == runningStatus

def maxTrackedDeployments : ℕ := 20

/-- `deployment_progress` -/
abbrev DeploymentProgress := Dict Text TrackedJob

namespace DeploymentProgress

/-- The keys of the deployments that are not running, in their order. -/
def finished (d : DeploymentProgress) : List Text :=
  d.keys.filter fun k => (d.get k).any fun r => !r.isRunning

/-- The keys of those that are. -/
def runningKeys (d : DeploymentProgress) : List Text :=
  d.keys.filter fun k => (d.get k).any (·.isRunning)

/-- Drop the first finished deployments while there are more than the limit. -/
def trim (d : DeploymentProgress) : DeploymentProgress :=
  ((finished d).take (d.keys.length - maxTrackedDeployments)).foldl Dict.erase d

/-- What a start puts into the table. -/
def newRecord (count : ℕ) (siemType now : Text) : TrackedJob where
  status := runningStatus
  startedAt := now
  finishedAt := none
  siemType := siemType
  job := Deploy.progressStart count

/-- `progress_start` -/
def progressStart (d : DeploymentProgress) (id : Text) (count : ℕ) (siemType now : Text) :
    DeploymentProgress :=
  trim (d.set id (newRecord count siemType now))

/-- Change the record of a deployment, if there is one. -/
def onRecord (d : DeploymentProgress) (id : Text) (f : TrackedJob → TrackedJob) :
    DeploymentProgress :=
  match d.get id with
  | none => d
  | some r => d.set id (f r)

/-- `progress_event` -/
def progressEvent (d : DeploymentProgress) (id : Text) (u : Update) : DeploymentProgress :=
  d.onRecord id fun r => { r with job := Deploy.progressEvent r.job u }

/-- The second part of `progress_finish`, which takes the lock again after the event. -/
def markFinished (d : DeploymentProgress) (id status now : Text) : DeploymentProgress :=
  d.onRecord id fun r => { r with status := status, finishedAt := some now }

/-- `progress_finish` -/
def progressFinish (d : DeploymentProgress) (id status message : Text) (level : Level)
    (now : Text) : DeploymentProgress :=
  (d.progressEvent id (note message level)).markFinished id status now

/-! ## Runs -/

/-- What is done under the lock at once; a `progress_finish` is an event and a mark, and others may
come in between. -/
inductive Action where
  | start (id : Text) (count : ℕ) (siemType now : Text)
  | event (id : Text) (u : Update)
  | mark (id status now : Text)

/-- The table, how many starts there were, and of each deployment which start is its last. -/
structure History where
  records : DeploymentProgress
  starts : ℕ
  begun : Text → ℕ

def History.empty : History where
  records := Dict.empty
  starts := 0
  begun := fun _ => 0

def step (h : History) : Action → Option History
  | .start id count siemType now => some
      { records := h.records.progressStart id count siemType now
        starts := h.starts + 1
        begun := Function.update h.begun id h.starts }
  | .event id u => some { h with records := h.records.progressEvent id u }
  | .mark id status now => some { h with records := h.records.markFinished id status now }

/-- Finishing a deployment is an event and then the mark. -/
lemma step_progressFinish (h : History) (id status message : Text) (level : Level) (now : Text) :
    (step h (.event id (note message level))).bind (fun h' => step h' (.mark id status now)) =
      some { h with records := h.records.progressFinish id status message level now } := rfl

/-- No deployment is started under a key that has a record. -/
def FreshStart (h : History) : Action → Prop
  | .start id .. => id ∉ h.records.keys
  | _ => True

/-- Whether an action is one of this deployment itself, after its start. -/
def Action.isOf (k : Text) : Action → Prop
  | .start .. => False
  | .event id _ | .mark id .. => id = k

/-- What a step has to keep: the records of running deployments, which only their own steps change;
of the finished ones those go that were started before the ones that stay; and after a start there
are not more records than the limit, or than deployments that run. -/
structure Keeps (before : History) (act : Action) (after : History) : Prop where
  present : ∀ k r, before.records.get k = some r → r.isRunning = true → k ∈ after.records.keys
  unchanged : ∀ k r, before.records.get k = some r → r.isRunning = true → ¬act.isOf k →
    after.records.get k = some r
  oldestFirst : ∀ k ∈ before.records.keys, k ∉ after.records.keys → ∀ j r,
    after.records.get j = some r → r.isRunning = false → after.begun k < after.begun j
  bounded : ∀ id count siemType now, act = .start id count siemType now →
    after.records.keys.length ≤ max maxTrackedDeployments after.records.runningKeys.length

/-- The table has its records in the order of the starts. -/
structure InOrder (h : History) : Prop where
  keys : h.records.keys.Pairwise fun k j => h.begun k < h.begun j
  begun : ∀ k ∈ h.records.keys, h.begun k < h.starts

/-! ## One record -/

variable {d : DeploymentProgress} {h h' : History} {act : Action}

lemma keys_onRecord (d : DeploymentProgress) (id : Text) (f : TrackedJob → TrackedJob) :
    (d.onRecord id f).keys = d.keys := by
  rw [onRecord]
  cases hget : d.get id with
  | none => rfl
  | some r => exact Dict.keys_set_of_mem (Dict.mem_keys_of_get hget)

lemma get_onRecord_of_ne {id k : Text} (hk : k ≠ id) (f : TrackedJob → TrackedJob) :
    (d.onRecord id f).get k = d.get k := by
  rw [onRecord]
  cases d.get id with
  | none => rfl
  | some r => exact Dict.get_set_of_ne hk

/-! ## Dropping -/

lemma mem_finished {k : Text} :
    k ∈ finished d ↔ ∃ r, d.get k = some r ∧ r.isRunning = false := by
  rw [finished, List.mem_filter]
  constructor
  · rintro ⟨-, hany⟩
    obtain ⟨r, hget, hr⟩ := (Option.any_eq_true _ _).mp hany
    exact ⟨r, hget, by simpa using hr⟩
  · rintro ⟨r, hget, hr⟩
    exact ⟨Dict.mem_keys_of_get hget, by rw [hget]; simp [hr]⟩

/-- The keys that are dropped. -/
def dropped (d : DeploymentProgress) : List Text :=
  (finished d).take (d.keys.length - maxTrackedDeployments)

lemma get_trim_of_mem {k : Text} (h : k ∈ dropped d) : (trim d).get k = none := by
  rw [trim, Dict.get_eraseAll]
  exact if_pos h

lemma get_trim_of_notMem {k : Text} (h : k ∉ dropped d) : (trim d).get k = d.get k := by
  rw [trim, Dict.get_eraseAll]
  exact if_neg h

lemma mem_keys_trim {k : Text} : k ∈ (trim d).keys ↔ k ∈ d.keys ∧ k ∉ dropped d :=
  Dict.mem_keys_eraseAll

lemma keys_trim_sublist (d : DeploymentProgress) : (trim d).keys.Sublist d.keys :=
  Dict.keys_eraseAll_sublist ..

/-- A running deployment is not dropped. -/
lemma get_trim_running {k : Text} {r : TrackedJob} (hget : d.get k = some r)
    (hr : r.isRunning = true) : (trim d).get k = some r := by
  rw [get_trim_of_notMem, hget]
  intro hmem
  obtain ⟨r', hget', hr'⟩ := mem_finished.mp (List.mem_of_mem_take hmem)
  rw [hget, Option.some.injEq] at hget'
  subst hget'
  rw [hr] at hr'
  cases hr'

lemma get_of_get_trim {k : Text} {r : TrackedJob} (hget : (trim d).get k = some r) :
    d.get k = some r := by
  by_cases hmem : k ∈ dropped d
  · rw [get_trim_of_mem hmem] at hget
    cases hget
  · rwa [get_trim_of_notMem hmem] at hget

/-- Those that are dropped stand before the finished ones that stay. -/
lemma trim_oldestFirst {P : Text → Text → Prop} (hkeys : d.keys.Pairwise P) {k j : Text}
    {r : TrackedJob} (hk : k ∈ d.keys) (hgone : k ∉ (trim d).keys)
    (hj : (trim d).get j = some r) (hr : r.isRunning = false) : P k j := by
  have hdropped : k ∈ dropped d := by
    by_contra hstays
    exact hgone (mem_keys_trim.mpr ⟨hk, hstays⟩)
  have hstays : j ∈ (finished d).drop (d.keys.length - maxTrackedDeployments) := by
    have hmem : j ∈ finished d := mem_finished.mpr ⟨r, get_of_get_trim hj, hr⟩
    rw [← List.take_append_drop (d.keys.length - maxTrackedDeployments) (finished d)] at hmem
    refine (List.mem_append.mp hmem).resolve_left fun htake => ?_
    rw [get_trim_of_mem htake] at hj
    cases hj
  have hsorted : (finished d).Pairwise P := hkeys.sublist List.filter_sublist
  rw [← List.take_append_drop (d.keys.length - maxTrackedDeployments) (finished d),
    List.pairwise_append] at hsorted
  exact hsorted.2.2 k hdropped j hstays

/-- The keys are those that stay and those that are dropped. -/
lemma length_trim_add (d : DeploymentProgress) :
    (trim d).keys.length + (dropped d).length = d.keys.length := by
  have hsub : ∀ k ∈ dropped d, k ∈ d.keys :=
    fun k hk => (List.mem_filter.mp (List.mem_of_mem_take hk)).1
  have hdropped : (dropped d).Nodup := (d.nodup.filter _).sublist (List.take_sublist _ _)
  have hdisjoint : (trim d).keys.Disjoint (dropped d) :=
    fun k hk hk' => (mem_keys_trim.mp hk).2 hk'
  rw [← List.length_append]
  refine List.Perm.length_eq ((List.perm_ext_iff_of_nodup
    ((trim d).nodup.append hdropped hdisjoint) d.nodup).mpr fun k => ?_)
  rw [List.mem_append, mem_keys_trim]
  constructor
  · rintro (⟨hk, -⟩ | hk)
    · exact hk
    · exact hsub k hk
  · intro hk
    by_cases hmem : k ∈ dropped d
    · exact .inr hmem
    · exact .inl ⟨hk, hmem⟩

/-- There are at most as many records left as the limit, or as deployments that run. -/
lemma length_trim (d : DeploymentProgress) :
    (trim d).keys.length ≤ max maxTrackedDeployments (runningKeys (trim d)).length := by
  by_cases hmany : (finished d).length ≤ d.keys.length - maxTrackedDeployments
  · -- all finished ones are dropped
    refine le_trans (le_of_eq ?_) (le_max_right _ _)
    rw [runningKeys, List.filter_eq_self.mpr]
    intro k hk
    obtain ⟨r, hget⟩ := Option.isSome_iff_exists.mp (((trim d).mem_keys k).mp hk)
    rw [hget, Option.any_some]
    by_contra hr
    have hfinished : k ∈ dropped d := by
      rw [dropped, List.take_of_length_le hmany]
      exact mem_finished.mpr ⟨r, get_of_get_trim hget, by simpa using hr⟩
    rw [get_trim_of_mem hfinished] at hget
    cases hget
  · refine le_trans ?_ (le_max_left _ _)
    have hdropped : (dropped d).length = d.keys.length - maxTrackedDeployments := by
      rw [dropped, List.length_take]
      omega
    have hcount := length_trim_add d
    omega

/-! ## Steps -/

lemma InOrder.empty : InOrder .empty where
  keys := List.Pairwise.nil
  begun := fun _ hk => absurd hk List.not_mem_nil

/-- What a start finds in the table once its record is there. -/
lemma inOrder_set {id : Text} {r : TrackedJob} (hin : InOrder h) (hid : id ∉ h.records.keys) :
    InOrder
      { records := h.records.set id r
        starts := h.starts + 1
        begun := Function.update h.begun id h.starts } where
  keys := by
    have hold : ∀ k ∈ h.records.keys, Function.update h.begun id h.starts k = h.begun k :=
      fun k hk => Function.update_of_ne (ne_of_mem_of_not_mem hk hid) ..
    show ((h.records.set id r).keys).Pairwise fun k j =>
      Function.update h.begun id h.starts k < Function.update h.begun id h.starts j
    rw [Dict.keys_set_of_notMem hid, List.pairwise_append]
    refine ⟨?_, List.pairwise_singleton _ _, ?_⟩
    · refine hin.keys.imp_of_mem fun {a b} ha hb hlt => ?_
      rw [hold a ha, hold b hb]
      exact hlt
    · intro a ha b hb
      rw [List.mem_singleton.mp hb, hold a ha, Function.update_self]
      exact hin.begun a ha
  begun := by
    intro k hk
    show Function.update h.begun id h.starts k < h.starts + 1
    by_cases heq : k = id
    · rw [heq, Function.update_self]
      omega
    · rw [Function.update_of_ne heq]
      have hmem : k ∈ h.records.keys := by
        have hset : k ∈ (h.records.set id r).keys := hk
        rw [Dict.keys_set_of_notMem hid, List.mem_append, List.mem_singleton] at hset
        exact hset.resolve_right heq
      have := hin.begun k hmem
      omega

lemma step_inOrder (hin : InOrder h) (hfresh : FreshStart h act) (hstep : step h act = some h') :
    InOrder h' := by
  cases act with
  | start id count siemType now =>
    cases hstep
    have hset := inOrder_set (r := newRecord count siemType now) hin hfresh
    have hkeys := keys_trim_sublist (h.records.set id (newRecord count siemType now))
    exact ⟨hset.keys.sublist hkeys, fun k hk => hset.begun k (hkeys.subset hk)⟩
  | event id u =>
    cases hstep
    exact ⟨by rw [progressEvent, keys_onRecord]; exact hin.keys,
      by rw [progressEvent, keys_onRecord]; exact hin.begun⟩
  | mark id status now =>
    cases hstep
    exact ⟨by rw [markFinished, keys_onRecord]; exact hin.keys,
      by rw [markFinished, keys_onRecord]; exact hin.begun⟩

/-- What a step on the record of one deployment keeps. -/
lemma keeps_onRecord {id : Text} {f : TrackedJob → TrackedJob}
    (hof : ∀ k, act.isOf k ↔ id = k) (hact : ∀ id count siemType now,
      act ≠ .start id count siemType now) :
    Keeps h act { h with records := h.records.onRecord id f } where
  present := fun k r hget _ => by
    show k ∈ (h.records.onRecord id f).keys
    rw [keys_onRecord]
    exact Dict.mem_keys_of_get hget
  unchanged := fun k r hget _ hother => by
    show (h.records.onRecord id f).get k = some r
    rw [get_onRecord_of_ne fun heq => hother ((hof k).mpr heq.symm)]
    exact hget
  oldestFirst := fun k hk hgone => by
    rw [keys_onRecord] at hgone
    exact absurd hk hgone
  bounded := fun id count siemType now heq => absurd heq (hact id count siemType now)

lemma step_keeps (hin : InOrder h) (hfresh : FreshStart h act) (hstep : step h act = some h') :
    Keeps h act h' := by
  cases act with
  | start id count siemType now =>
    cases hstep
    have hget : ∀ k r, h.records.get k = some r → r.isRunning = true →
        (h.records.progressStart id count siemType now).get k = some r := by
      intro k r hk hr
      refine get_trim_running ?_ hr
      have hne : k ≠ id := ne_of_mem_of_not_mem (Dict.mem_keys_of_get hk) hfresh
      rw [Dict.get_set_of_ne hne, hk]
    refine ⟨fun k r hk hr => Dict.mem_keys_of_get (hget k r hk hr),
      fun k r hk hr _ => hget k r hk hr, fun k hk hgone j r hj hr => ?_,
      fun _ _ _ _ _ => length_trim _⟩
    refine trim_oldestFirst (inOrder_set hin hfresh).keys ?_ hgone hj hr
    show k ∈ (h.records.set id _).keys
    rw [Dict.keys_set_of_notMem hfresh]
    exact List.mem_append_left _ hk
  | event id u =>
    cases hstep
    exact keeps_onRecord (fun _ => Iff.rfl) (fun _ _ _ _ => Action.noConfusion)
  | mark id status now =>
    cases hstep
    exact keeps_onRecord (fun _ => Iff.rfl) (fun _ _ _ _ => Action.noConfusion)

/-- **Running deployments are tracked to their end**, in every run in which no deployment is
started under a key that has a record. -/
theorem tracked_kept {acts : List Action} (hrun : Run step FreshStart .empty acts h)
    (hfresh : FreshStart h act) (hstep : step h act = some h') : Keeps h act h' :=
  step_keeps (hrun.invariant (P := InOrder) (fun hin hguard ha => step_inOrder hin hguard ha)
    InOrder.empty) hfresh hstep

def startOf (id : Text) (count : ℕ) : Action := .start id count "wazuh".toList "12:00".toList

/-- A second start under the same key takes the place of a deployment that runs. -/
theorem reused_key_replaces : ∃ h h', Run step anyStep .empty [startOf ['a'] 1] h ∧
    step h (startOf ['a'] 2) = some h' ∧ ¬Keeps h (startOf ['a'] 2) h' := by
  refine ⟨_, _, run_of_exec rfl, rfl, fun hkeeps => ?_⟩
  have hsame := hkeeps.unchanged ['a'] _ rfl rfl id
  exact absurd (congrArg (Option.map fun r : TrackedJob => r.job.total) hsame) (by decide)

/-- Two deployments under different keys. -/
theorem tracked_kept_two : ∃ h h', Run step FreshStart .empty [startOf ['a'] 1] h ∧
    step h (startOf ['b'] 2) = some h' ∧ Keeps h (startOf ['b'] 2) h' := by
  have hrun : Run step FreshStart .empty [startOf ['a'] 1] _ :=
    .cons (by show _ ∉ _; decide) rfl (.nil _)
  exact ⟨_, _, hrun, rfl, tracked_kept hrun (by show _ ∉ _; decide) rfl⟩

end DeploymentProgress

end Habeny.Deploy
