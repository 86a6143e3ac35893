import Habeny.Agents.Metadata
import Habeny.Deploy.Progress
import Habeny.Lib.Transition
import Mathlib.Data.List.Perm.Basic

/-!
# The deployment loop

`run_deployment_workers` hands containers to a pool of workers, one for each free worker,
waits for some of them to finish, and records a result for each.  A stop of the server
cancels what waits and, past its deadline, gives up what runs.  One iteration of the loop is
`round`; what the iteration observes of the world (the stop, the pool, the futures that
complete and the order in which it goes through them, the step messages) is a `Round`.
-/

namespace Habeny.Deploy

open Habeny.Lib Habeny.Agents

lemma unnumbered_none : ∀ m ∈ (none : Option Metadata), m.seqId = none := nofun

/-- What a worker's dictionary says, as far as the parent process reads it.  The metadata is
`none` where it is missing or empty; it never has the row's number under its own key. -/
structure Report where
  success : Bool
  error : Option Text
  installMessage : Option Text
  deployTime : Option Text
  ipAddress : Option Text
  metadata : Option Metadata
  unnumbered : ∀ m ∈ metadata, m.seqId = none := by exact unnumbered_none

/-- The result of one container. -/
structure Result extends Report where
  agentName : Text

/-- How a future completes. -/
inductive Outcome where
  | returned (report : Report)
  | raised (error : Text)

inductive ParallelMode where
  | sequential
  | threading
  | multiprocessing
  deriving DecidableEq

def workerCount (mode : ParallelMode) (deployWorkers containers : ℕ) : ℕ :=
  match mode with
  | .sequential => 1
  | .threading | .multiprocessing => min deployWorkers (max 1 containers)

/-- What a deployment is asked to do.  The names of a request are distinct and the number of
workers is configured to be at least one. -/
structure Deployment where
  names : List Text
  nodup : names.Nodup
  mode : ParallelMode
  deployWorkers : ℕ
  deployWorkers_pos : 0 < deployWorkers
  seqId : Text → ℤ

/-- The number of workers of a deployment. -/
def Deployment.workers (d : Deployment) : ℕ := workerCount d.mode d.deployWorkers d.names.length

lemma Deployment.workers_pos (d : Deployment) : 0 < d.workers := by
  have := d.deployWorkers_pos
  unfold Deployment.workers workerCount
  cases d.mode <;> simp only <;> omega

/-! ## Results -/

/-- The first text of two that is there and not empty (`or`). -/
def orText (a b : Option Text) : Option Text :=
  match a with
  | some (c :: cs) => some (c :: cs)
  | some [] | none => b

def unknownError : Text := "Unknown error".toList

/-- The error that is reported for a result. -/
def Result.errorText (r : Result) : Text :=
  (orText (orText r.error r.installMessage) (some unknownError)).getD []

def deployedUpdate (r : Result) : Update :=
  { message := "Deployed in ".toList ++ r.deployTime.getD "0".toList ++ "s".toList
      ++ (match orText r.ipAddress none with
        | some ip => " (".toList ++ ip ++ ")".toList
        | none => []),
    level := .success, container := some r.agentName, status := some .success, error := none }

def failedUpdate (r : Result) : Update :=
  { message := "Failed: ".toList ++ r.errorText, level := .error, container := some r.agentName,
    status := some .failed, error := some r.errorText }

def failedWarning (r : Result) : Text :=
  "Failed to deploy container ".toList ++ r.agentName ++ ": ".toList ++ r.errorText

def interrupted : Text := "interrupted".toList

/-- The metadata of a container that a stop keeps from finishing or from starting. -/
def interruptedMetadata (seqId : ℤ) (started : Bool) : Metadata :=
  { seqId := none, agentSeqId := some (some seqId),
    field := fun c =>
      if c = .lifecycleStatus then some (.text (if started then interrupted else "error".toList))
      else none }

def interruptedText : Text :=
  "Interrupted: Habeny stopped before this container finished deploying; delete and redeploy it".toList

def cancelledText : Text := "Cancelled: Habeny stopped before this container was deployed".toList

/-- The result of a container that a stop keeps from finishing or from starting. -/
def interruptedResult (name : Text) (seqId : ℤ) (started : Bool) : Result :=
  { agentName := name, success := false,
    error := some (if started then interruptedText else cancelledText), installMessage := none,
    deployTime := none, ipAddress := none, metadata := some (interruptedMetadata seqId started),
    unnumbered := by simp [interruptedMetadata] }

/-- Save a worker's deploy result in the parent process. -/
def persistDeployResult (s : Store) (r : Result) (now : Text) : Store :=
  match r.metadata with
  | none => s
  | some metadata => writeAgentMetadata s r.agentName metadata now

/-! ## The state of the loop -/

structure State where
  queued : List Text
  pending : List Text
  /-- The names handed to the pool so far. -/
  started : List Text
  /-- How the futures completed that have. -/
  outcome : Text → Option Outcome
  results : List Result
  warnings : List Text
  /-- The events reported so far. -/
  updates : List Update
  store : Store
  stopNoted : Bool
  abandoned : Bool
  /-- An exception has left the loop. -/
  raised : Bool

/-- The loop begins. -/
def start (d : Deployment) (store : Store) : State :=
  { queued := d.names, pending := [], started := [], outcome := fun _ => none, results := [],
    warnings := [], updates := [], store := store, stopNoted := false, abandoned := false,
    raised := false }

/-- Nothing is queued and nothing runs. -/
def State.done (s : State) : Bool := s.queued.isEmpty && s.pending.isEmpty

/-- The names that have a result. -/
def State.recorded (s : State) : List Text := s.results.map (·.agentName)

/-- What one iteration observes. -/
structure Round where
  /-- The server is stopping, and its deadline has passed. -/
  stop : Bool
  late : Bool
  /-- How many submits the pool takes before it is broken, if it is in this iteration. -/
  accepts : Option ℕ
  /-- The futures that complete before the iteration looks at them. -/
  completes : List (Text × Outcome)
  /-- The step messages that have arrived. -/
  messages : List (Text × Text)
  /-- The order in which the iteration goes through the futures it picks up. -/
  order : List Text
  now : Text

def State.emit (s : State) (u : Update) : State := { s with updates := s.updates ++ [u] }

/-- Record a result: save it, report it, and count it. -/
def recordResult (now : Text) (s : State) (r : Result) : State :=
  let s := { s with store := persistDeployResult s.store r now,
                    results := s.results ++ [{ r with metadata := none, unnumbered := unnumbered_none }] }
  if r.success then s.emit (deployedUpdate r)
  else { s.emit (failedUpdate r) with warnings := s.warnings ++ [failedWarning r] }

def stopMessage : Text :=
  "Habeny is stopping: finishing containers in progress, cancelling the rest".toList

/-- A stop is reported once. -/
def noteStop (s : State) : State :=
  if s.stopNoted then s else { s.emit (note stopMessage .error) with stopNoted := true }

/-- The part of an iteration that reacts to a stop: what is queued is cancelled. -/
def cancelQueued (d : Deployment) (r : Round) (s : State) : State :=
  if r.stop then
    (s.queued.map fun n => interruptedResult n (d.seqId n) false).foldl (recordResult r.now)
      { noteStop s with queued := [] }
  else s

/-- The names that are given up because the deadline of the stop has passed. -/
def givenUp (r : Round) (s : State) : List Text := if r.stop && r.late then s.pending else []

/-- Give up what runs past the deadline. -/
def giveUp (r : Round) (s : State) : State :=
  if r.stop && r.late && !s.pending.isEmpty then { s with pending := [], abandoned := true } else s

/-- Hand the next `k` names to the pool. -/
def handOut (k : ℕ) (s : State) : State :=
  { s with queued := s.queued.drop k, pending := s.pending ++ s.queued.take k,
           started := s.started ++ s.queued.take k }

/-- How many names there are to hand out: one for each free worker. -/
def free (d : Deployment) (s : State) : ℕ := min s.queued.length (d.workers - s.pending.length)

/-- The pool is found broken by a submit of this iteration. -/
def refused (d : Deployment) (s : State) (r : Round) : Bool :=
  !r.stop && r.accepts.any fun k => decide (k < free d s)

/-- Futures complete. -/
def completeAll (completes : List (Text × Outcome)) (s : State) : State :=
  { s with outcome := fun n => (s.outcome n).or ((completes.find? (·.1 = n)).map (·.2)) }

/-- The futures among the running ones that have completed are picked up. -/
def pickedUp (s : State) : List Text := s.pending.filter fun n => (s.outcome n).isSome

def stillRunning (s : State) : List Text := s.pending.filter fun n => (s.outcome n).isNone

/-- Report the step messages that have arrived. -/
def drain (messages : List (Text × Text)) (s : State) : State :=
  { s with updates := s.updates ++ messages.map fun m => runningUpdate m.1 m.2 }

/-- The result of a future that has been picked up or given up. -/
def resultOf (d : Deployment) (s : State) (name : Text) : Result :=
  match s.outcome name with
  | none => interruptedResult name (d.seqId name) true
  | some (.returned report) => { report with agentName := name }
  | some (.raised error) =>
    { agentName := name, success := false, error := some error, installMessage := none,
      deployTime := none, ipAddress := none, metadata := none }

/-- The iteration up to the point where it looks at the futures that have completed. -/
def advance (d : Deployment) (s : State) (r : Round) : State :=
  let s := giveUp r (cancelQueued d r s)
  completeAll r.completes (handOut (free d s) s)

/-- The rest of the iteration: step messages are reported, then the results are recorded. -/
def conclude (d : Deployment) (s : State) (r : Round) : State :=
  let s := drain r.messages { s with pending := stillRunning s }
  (r.order.map (resultOf d s)).foldl (recordResult r.now) s

/-- The submit after the last one that the pool takes raises, and the exception leaves the
loop. -/
def breakOff (s : State) (r : Round) : State :=
  let k := r.accepts.getD 0
  { handOut k s with queued := s.queued.drop (k + 1), raised := true }

/-- What an iteration can observe: only running futures complete, only started workers send
messages, and the iteration goes once through the futures it gives up or picks up. -/
def Round.Observed (d : Deployment) (s : State) (r : Round) : Prop :=
  (∀ c ∈ r.completes, c.1 ∈ givenUp r s ++ (advance d s r).pending) ∧
    (∀ m ∈ r.messages, m.1 ∈ (advance d s r).started) ∧
    r.order.Perm (givenUp r s ++ pickedUp (advance d s r))

instance (d : Deployment) (s : State) (r : Round) : Decidable (r.Observed d s) :=
  inferInstanceAs (Decidable (_ ∧ _ ∧ _))

/-- One iteration of the loop.  There is none once the loop has ended, and none that observes
what cannot be, among that a stop that is taken back. -/
def round (d : Deployment) (s : State) (r : Round) : Option State :=
  if s.raised || s.done || s.stopNoted && !r.stop then none
  else if refused d s r then some (breakOff s r)
  else if r.Observed d s then some (conclude d (advance d s r) r)
  else none

/-- What an iteration can do. -/
lemma round_cases {d : Deployment} {s s' : State} {r : Round} (h : round d s r = some s') :
    s.raised = false ∧ s.done = false ∧ (s.stopNoted = true → r.stop = true) ∧
      (refused d s r = true ∧ s' = breakOff s r ∨
        refused d s r = false ∧ r.Observed d s ∧ s' = conclude d (advance d s r) r) := by
  unfold round at h
  by_cases hend : (s.raised || s.done || s.stopNoted && !r.stop) = true
  · simp [hend] at h
  · rw [if_neg hend] at h
    simp only [Bool.or_eq_true, Bool.and_eq_true, Bool.not_eq_true', not_or, not_and,
      Bool.not_eq_true, Bool.not_eq_false] at hend
    refine ⟨hend.1.1, hend.1.2, hend.2, ?_⟩
    by_cases hr : refused d s r = true
    · rw [if_pos hr, Option.some.injEq] at h
      exact .inl ⟨hr, h.symm⟩
    · rw [if_neg hr] at h
      by_cases ho : r.Observed d s
      · rw [if_pos ho, Option.some.injEq] at h
        exact .inr ⟨by simpa using hr, ho, h.symm⟩
      · simp [ho] at h

lemma round_of_observed {d : Deployment} {s : State} {r : Round} (hraised : s.raised = false)
    (hdone : s.done = false) (hstop : s.stopNoted = true → r.stop = true)
    (hr : refused d s r = false) (ho : r.Observed d s) :
    round d s r = some (conclude d (advance d s r) r) := by
  have hend : (s.raised || s.done || s.stopNoted && !r.stop) = false := by
    cases hs : s.stopNoted with
    | false => simp [hraised, hdone]
    | true => simp [hraised, hdone, hstop hs]
  rw [round, hend, hr]
  simp [ho]

end Habeny.Deploy
