import Habeny.Lib.Text
import Mathlib.Logic.Function.Basic
import Mathlib.Order.Defs.LinearOrder

/-!
# The progress record of a deployment

A deployment has a record of its containers' steps, an activity feed and counters, which the
UI polls.  Every change goes through `progressEvent`; an event that gives a container one of
the final statuses also counts it.
-/

namespace Habeny.Deploy

open Habeny.Lib

/-- The level of an activity line. -/
inductive Level where
  | info
  | success
  | error
  deriving DecidableEq

/-- The status of a container in a deployment. -/
inductive Status where
  | pending
  | running
  | success
  | failed
  deriving DecidableEq

/-- A final status. -/
def Status.settled : Status → Bool
  | .success | .failed => true
  | .pending | .running => false

/-- A container's current step. -/
structure ContainerStep where
  step : Text
  status : Status
  error : Option Text
  deriving DecidableEq

/-- An activity line. -/
structure FeedLine where
  level : Level
  container : Option Text
  message : Text
  deriving DecidableEq

/-- The progress record of a running deployment. -/
structure Job where
  total : ℕ
  completed : ℕ
  successful : ℕ
  failed : ℕ
  containers : Text → Option ContainerStep
  events : List FeedLine

/-- The record of a deployment that starts. -/
def progressStart (count : ℕ) : Job :=
  { total := count, completed := 0, successful := 0, failed := 0, containers := fun _ => none,
    events := [] }

/-- What an event is about: a line, and a container's new status and error. -/
structure Update where
  message : Text
  level : Level
  container : Option Text
  status : Option Status
  error : Option Text

/-- A line about no container. -/
def note (message : Text) (level : Level) : Update :=
  { message := message, level := level, container := none, status := none, error := none }

/-- The step of a container that waits for a worker. -/
def queuedText : Text := "Queued".toList

/-- What a container's step becomes by an event about it. -/
def stepAfter (u : Update) (c : Option ContainerStep) : ContainerStep :=
  let old := c.getD ⟨queuedText, .pending, none⟩
  { step := u.message, status := u.status.getD old.status,
    error := if u.error.isSome then u.error else old.error }

/-- Append an activity line and, if given, update the container's step; a final status
counts. -/
def progressEvent (job : Job) (u : Update) : Job :=
  let job := { job with events := job.events ++ [⟨u.level, u.container, u.message⟩] }
  match u.container with
  | none => job
  | some name =>
    let job :=
      { job with
        containers := Function.update job.containers name
          (some (stepAfter u (job.containers name))) }
    match u.status with
    | some .success =>
      { job with completed := job.completed + 1, successful := job.successful + 1 }
    | some .failed => { job with completed := job.completed + 1, failed := job.failed + 1 }
    | _ => job

/-- The record after some events. -/
def progress (job : Job) (us : List Update) : Job := us.foldl progressEvent job

/-- The status of a container in a record. -/
def Job.statusOf (job : Job) (name : Text) : Option Status := (job.containers name).map (·.status)

/-- A container has a final status. -/
def Job.settled (job : Job) (name : Text) : Prop :=
  ∃ st, job.statusOf name = some st ∧ st.settled = true

/-- A record that has counted and settled nothing yet. -/
structure Job.Fresh (job : Job) : Prop where
  completed : job.completed = 0
  successful : job.successful = 0
  failed : job.failed = 0
  unsettled : ∀ name, ¬ job.settled name

lemma fresh_progressStart (count : ℕ) : (progressStart count).Fresh where
  completed := rfl
  successful := rfl
  failed := rfl
  unsettled := by
    rintro name ⟨st, hst, -⟩
    simp [progressStart, Job.statusOf] at hst

/-- A container is being deployed. -/
def runningUpdate (name message : Text) : Update :=
  { message := message, level := .info, container := some name, status := some .running,
    error := none }

/-- A container waits for a worker. -/
def queuedUpdate (name : Text) : Update :=
  { message := queuedText, level := .info, container := some name, status := some .pending,
    error := none }

/-- The container that an event gives a final status, if it does. -/
def Update.settles (u : Update) : Option Text :=
  if u.status.any Status.settled then u.container else none

/-- Whether an event gives a container this status. -/
def Update.sets (u : Update) (st : Status) : Bool :=
  u.container.isSome && decide (u.status = some st)

/-! ## What events change -/

@[simp] lemma progress_nil (job : Job) : progress job [] = job := rfl

@[simp] lemma progress_append (job : Job) (us vs : List Update) :
    progress job (us ++ vs) = progress (progress job us) vs := List.foldl_append

lemma progress_concat (job : Job) (us : List Update) (u : Update) :
    progress job (us ++ [u]) = progressEvent (progress job us) u := by
  rw [progress_append]
  rfl

lemma statusOf_progressEvent_of_ne {job : Job} {u : Update} {name : Text}
    (h : u.container ≠ some name) :
    (progressEvent job u).statusOf name = job.statusOf name := by
  unfold progressEvent Job.statusOf
  cases hc : u.container with
  | none => rfl
  | some other =>
    have hne : name ≠ other := fun he => h (by rw [hc, he])
    dsimp only
    split <;> simp only [Function.update_of_ne hne]

lemma statusOf_progressEvent_self {job : Job} {u : Update} {name : Text} {st : Status}
    (h : u.container = some name) (hs : u.status = some st) :
    (progressEvent job u).statusOf name = some st := by
  unfold progressEvent Job.statusOf
  simp only [h, hs]
  cases st <;> simp only [stepAfter, hs, Function.update_self, Option.map_some, Option.getD_some]

/-- An event about a container that does not set its status leaves the one it has. -/
lemma statusOf_progressEvent_keep {job : Job} {u : Update} {name : Text}
    (h : u.container = some name) (hs : u.status = none) :
    (progressEvent job u).statusOf name = some ((job.statusOf name).getD .pending) := by
  unfold progressEvent Job.statusOf
  simp only [h, hs, stepAfter, Function.update_self, Option.map_some, Option.getD_none]
  cases job.containers name <;> rfl

/-- Events about other containers leave a container's status. -/
lemma statusOf_progress_of_silent {name : Text} {us : List Update}
    (h : ∀ u ∈ us, u.container ≠ some name) (job : Job) :
    (progress job us).statusOf name = job.statusOf name := by
  induction us generalizing job with
  | nil => rfl
  | cons u us ih =>
    rw [progress, List.foldl_cons]
    have hrest := ih (fun v hv => h v (List.mem_cons_of_mem _ hv)) (progressEvent job u)
    rw [progress] at hrest
    rw [hrest, statusOf_progressEvent_of_ne (h u List.mem_cons_self)]

lemma Update.settles_eq_some {u : Update} {name : Text} (h : u.settles = some name) :
    u.container = some name ∧ ∃ st, u.status = some st ∧ st.settled = true := by
  rw [Update.settles] at h
  split at h
  · rename_i hst
    exact ⟨h, Option.any_eq_true _ _ |>.mp hst⟩
  · exact absurd h (by simp)

/-- A container that has got a final status has been settled by an event. -/
lemma mem_settles_of_settled {job : Job} {name : Text} (hjob : ¬ job.settled name)
    {us : List Update} (h : (progress job us).settled name) :
    name ∈ us.filterMap Update.settles := by
  induction us using List.reverseRecOn with
  | nil => exact absurd h hjob
  | append_singleton us u ih =>
    rw [progress_concat] at h
    rw [List.filterMap_append, List.mem_append]
    obtain ⟨st, hst, hfinal⟩ := h
    by_cases hc : u.container = some name
    · cases hs : u.status with
      | some st' =>
        rw [statusOf_progressEvent_self hc hs, Option.some.injEq] at hst
        subst hst
        right
        simp [Update.settles, hs, hfinal, hc]
      | none =>
        rw [statusOf_progressEvent_keep hc hs, Option.some.injEq] at hst
        left
        cases ho : (progress job us).statusOf name with
        | none =>
          rw [ho, Option.getD_none] at hst
          subst hst
          exact absurd hfinal (by decide)
        | some st' =>
          rw [ho, Option.getD_some] at hst
          subst hst
          exact ih ⟨st', ho, hfinal⟩
    · rw [statusOf_progressEvent_of_ne hc] at hst
      exact .inl (ih ⟨st, hst, hfinal⟩)

/-- How an event counts. -/
lemma counts_progressEvent (job : Job) (u : Update) :
    (progressEvent job u).completed = job.completed + (if u.settles.isSome then 1 else 0) ∧
      (progressEvent job u).successful = job.successful + (if u.sets .success then 1 else 0) ∧
      (progressEvent job u).failed = job.failed + (if u.sets .failed then 1 else 0) := by
  unfold progressEvent Update.settles Update.sets
  rcases u.container with - | name
  · simp
  · rcases u.status with - | (- | - | - | -) <;> simp [Status.settled]

lemma length_settles_singleton (u : Update) :
    ([u].filterMap Update.settles).length = if u.settles.isSome then 1 else 0 := by
  cases h : u.settles <;> simp [h]

/-- What the counters say after some events. -/
lemma counts_progress (job : Job) (us : List Update) :
    (progress job us).completed = job.completed + (us.filterMap Update.settles).length ∧
      (progress job us).successful = job.successful + us.countP (Update.sets · .success) ∧
      (progress job us).failed = job.failed + us.countP (Update.sets · .failed) := by
  induction us using List.reverseRecOn with
  | nil => exact ⟨rfl, rfl, rfl⟩
  | append_singleton us u ih =>
    obtain ⟨hc, hs, hf⟩ := counts_progressEvent (progress job us) u
    rw [progress_concat]
    refine ⟨?_, ?_, ?_⟩
    · rw [hc, ih.1, List.filterMap_append, List.length_append, length_settles_singleton,
        Nat.add_assoc]
    · rw [hs, ih.2.1, List.countP_append, List.countP_singleton, Nat.add_assoc]
    · rw [hf, ih.2.2, List.countP_append, List.countP_singleton, Nat.add_assoc]

/-- An event that settles a container sets it to a success or to a failure. -/
lemma settles_isSome_eq (u : Update) : (if u.settles.isSome then 1 else 0)
    = (if u.sets .success then 1 else 0) + (if u.sets .failed then 1 else 0) := by
  unfold Update.settles Update.sets
  rcases u.container with - | name
  · simp
  · rcases u.status with - | (- | - | - | -) <;> simp [Status.settled]

/-- The settled containers are the successes and the failures. -/
lemma length_settles_eq (us : List Update) :
    (us.filterMap Update.settles).length
      = us.countP (Update.sets · .success) + us.countP (Update.sets · .failed) := by
  induction us using List.reverseRecOn with
  | nil => rfl
  | append_singleton us u ih =>
    rw [List.filterMap_append, List.length_append, length_settles_singleton, List.countP_append,
      List.countP_append, List.countP_singleton, List.countP_singleton, ih, settles_isSome_eq]
    omega

/-- Events that settle nothing leave a fresh record fresh. -/
lemma Job.Fresh.progress {job : Job} (h : job.Fresh) {us : List Update}
    (hus : us.filterMap Update.settles = []) : (progress job us).Fresh := by
  obtain ⟨hc, hs, hf⟩ := counts_progress job us
  have hlen := length_settles_eq us
  rw [hus, List.length_nil] at hc hlen
  refine ⟨hc.trans h.completed, ?_, ?_, fun name hset => ?_⟩
  · rw [hs, h.successful]
    omega
  · rw [hf, h.failed]
    omega
  · have := mem_settles_of_settled (h.unsettled name) hset
    simp [hus] at this

/-! ## Events that settle each container last -/

/-- After an event that settles a container no event is about it. -/
def SettledLast (us : List Update) : Prop :=
  us.Pairwise fun u v => ∀ name, u.settles = some name → v.container ≠ some name

lemma SettledLast.concat {us : List Update} {u : Update} (h : SettledLast us)
    (hu : ∀ name ∈ us.filterMap Update.settles, u.container ≠ some name) :
    SettledLast (us ++ [u]) := by
  refine List.pairwise_append.mpr ⟨h, List.pairwise_singleton _ _, ?_⟩
  rintro v hv w hw name hname
  rw [List.mem_singleton] at hw
  subst hw
  exact hu name (List.mem_filterMap.mpr ⟨v, hv, hname⟩)

/-- **A container that an event has settled keeps its status.** -/
lemma SettledLast.statusOf_eq {us vs : List Update} (h : SettledLast (us ++ vs)) {name : Text}
    (hname : name ∈ us.filterMap Update.settles) (job : Job) :
    (progress job (us ++ vs)).statusOf name = (progress job us).statusOf name := by
  obtain ⟨u, hu, hset⟩ := List.mem_filterMap.mp hname
  rw [progress_append]
  exact statusOf_progress_of_silent
    (fun v hv => (List.pairwise_append.mp h).2.2 u hu v hv name hset) _

lemma SettledLast.settled {us : List Update} (h : SettledLast us) {name : Text}
    (hname : name ∈ us.filterMap Update.settles) (job : Job) : (progress job us).settled name := by
  obtain ⟨u, hu, hset⟩ := List.mem_filterMap.mp hname
  obtain ⟨us₁, us₂, rfl⟩ := List.mem_iff_append.mp hu
  obtain ⟨hc, st, hst, hfinal⟩ := Update.settles_eq_some hset
  refine ⟨st, ?_, hfinal⟩
  have hlast : ∀ v ∈ us₂, v.container ≠ some name := fun v hv =>
    List.rel_of_pairwise_cons (List.pairwise_append.mp h).2.1 hv name hset
  rw [progress_append, progress, List.foldl_cons]
  exact (statusOf_progress_of_silent hlast _).trans (statusOf_progressEvent_self hc hst)

end Habeny.Deploy
