import Habeny.Lib.Dict
import Habeny.Lib.Text

/-!
# Log schedules

A schedule uploads a log to a container again and again.  Its record is in memory and, as it was
when it was last saved, in the table of records; the runner that uploads is a task of the event
loop and is lost with the process.  When the program starts, the schedules that the table has as
running are interrupted and then resumed, one after another.

A runner works from one sleep to the next without giving way.  Times are in microseconds.
-/

namespace Habeny.Logs

open Habeny.Lib

/-! ## Records and runners -/

inductive ScheduleStatus where
  | starting
  | running
  | interrupted
  | completed
  | stopped
  | error
  deriving DecidableEq

/-- The schedule has ended. -/
def ScheduleStatus.final : ScheduleStatus → Bool
  | .completed | .stopped | .error => true
  | .starting | .running | .interrupted => false

/-- What is uploaded. -/
structure LogUpload where
  content : Text
  destinationPath : Text
  append : Bool

/-- The record of a schedule. -/
structure Schedule where
  agentId : Text
  intervalSeconds : ℤ
  durationSeconds : Option ℤ
  indefinite : Bool
  status : ScheduleStatus
  createdAt : ℤ
  request : LogUpload
  statusBeforeRestart : Option ScheduleStatus := none
  lastRun : Option ℤ := none
  runs : ℕ := 0
  lastError : Option Text := none
  error : Option Text := none
  resumedAt : Option ℤ := none
  resumes : ℕ := 0
  completedNote : Option Text := none

/-- A runner: its arguments, when it began, whether its next wait is cancelled, and whether it has
ended. -/
structure Runner where
  agentId : Text
  upload : LogUpload
  intervalSeconds : ℤ
  duration : Option ℤ
  indefinite : Bool
  startTime : Option ℤ := none
  cancelled : Bool := false
  ended : Bool := false

def second : ℤ := 1000000

/-- What happens when a runner looks for its container and uploads. -/
inductive Course where
  | listRaises (error : Text)
  | missing
  | uploadRaises (error : Text)
  | uploaded (failure : Option (Option Text))

/-- Whether an upload is started. -/
def Course.uploads : Course → Bool
  | .uploadRaises _ | .uploaded _ => true
  | .listRaises _ | .missing => false

/-- One round of a runner that began at `start`: the record that it leaves, and whether it has
ended. -/
def Runner.round (t : Runner) (start now : ℤ) (course : Course) (r : Schedule) : Schedule × Bool :=
  match course with
  | .listRaises e | .uploadRaises e => ({ r with status := .error, error := some e }, true)
  | .missing =>
    ({ r with status := .stopped, error := some "Container not found".toList }, true)
  | .uploaded failure =>
    let r := { r with
      lastRun := some now
      runs := r.runs + 1
      lastError := failure.elim r.lastError fun e => e }
    if !t.indefinite && t.duration.any fun d => decide (d ≤ now - start) then
      ({ r with status := .completed }, true)
    else (r, false)

/-- A schedule that was in progress when the program stopped is interrupted. -/
def Schedule.recover (r : Schedule) : Schedule :=
  match r.status with
  | .starting | .running =>
    { r with statusBeforeRestart := some r.status, status := .interrupted }
  | _ => r

/-- What is left of the duration of a schedule. -/
def Schedule.remaining (r : Schedule) (now : ℤ) : Option ℤ :=
  if r.indefinite then none else some (r.durationSeconds.getD 0 * second - (now - r.createdAt))

/-- Whether a schedule is resumed, or completed if its time is over. -/
def Schedule.resumable (r : Schedule) : Bool :=
  decide (r.status = .interrupted) &&
    decide (r.statusBeforeRestart = some .running ∨ r.statusBeforeRestart = some .starting)

def Schedule.ranOut (r : Schedule) : Schedule :=
  { r with
    status := .completed
    completedNote := some "Its time ran out while Habeny was stopped".toList }

def Schedule.resumed (r : Schedule) (now : ℤ) : Schedule :=
  { r with status := .starting, resumedAt := some now, resumes := r.resumes + 1 }

/-! ## The system -/

/-- The schedules in memory and in the table, the runners, the runners that are to be cancelled
soon, and the schedules that the start of the program has still to look at; and what an observer
keeps: the uploads that were started, newest first, and the schedules whose stop was answered. -/
structure Schedules where
  memory : Dict Text Schedule
  saved : Dict Text Schedule
  runners : Text → Option Runner
  cancelSoon : List Text
  toResume : List Text
  uploads : List Text
  answered : Text → Bool

inductive ScheduleAction where
  /-- `POST /agents/{agent_id}/logs/schedule`; `allowed` when the licence and the container are. -/
  | create (id agentId : Text) (upload : LogUpload) (intervalSeconds : ℤ)
      (durationSeconds : Option ℤ) (indefinite allowed : Bool) (now : ℤ)
  /-- A runner goes on. -/
  | run (id : Text) (course : Course) (now : ℤ)
  /-- `POST /agents/logs/schedules/{schedule_id}/stop`; `allowed` when the user sees the container. -/
  | stop (id : Text) (allowed : Bool)
  /-- A record is saved, as the periodic flush does with one after another. -/
  | save (id : Text)
  /-- The program was asked to end. -/
  | interruptForShutdown
  /-- A runner is cancelled that was to be cancelled soon. -/
  | cancelSoon (id : Text)
  /-- The process is lost, and a new one loads the table. -/
  | restart
  /-- The new process looks at the next schedule. -/
  | resumeNext (now : ℤ)

namespace Schedules

variable (s : Schedules)

def start : Schedules where
  memory := .empty
  saved := .empty
  runners := fun _ => none
  cancelSoon := []
  toResume := []
  uploads := []
  answered := fun _ => false

/-- `task.cancel()`, if there is a runner that has not ended. -/
def cancel (id : Text) : Text → Option Runner :=
  Function.update s.runners id
    ((s.runners id).map fun t => if t.ended then t else { t with cancelled := true })

/-- Write a record to the table. -/
def save (id : Text) : Schedules :=
  match s.memory.get id with
  | some r => { s with saved := s.saved.set id r }
  | none => s

/-- Set a record and write it to the table. -/
def put (id : Text) (r : Schedule) : Schedules :=
  { s with memory := s.memory.set id r, saved := s.saved.set id r }

def create (id agentId : Text) (upload : LogUpload) (intervalSeconds : ℤ)
    (durationSeconds : Option ℤ) (indefinite allowed : Bool) (now : ℤ) : Schedules :=
  if !allowed || decide (intervalSeconds < 5) ||
      (!indefinite && durationSeconds.all fun d => decide (d = 0)) then s
  else
    { s.put id
        { agentId, intervalSeconds, durationSeconds, indefinite, status := .starting,
          createdAt := now, request := upload } with
      runners := Function.update s.runners id (some
        { agentId, upload, intervalSeconds, duration := durationSeconds.map (· * second),
          indefinite }) }

/-- A runner goes on.  One that is cancelled ends; it notes that unless it has not begun or the
program is ending. -/
def run (id : Text) (course : Course) (now : ℤ) (t : Runner) (r : Schedule) : Schedules :=
  if t.cancelled then
    { s with
      memory :=
        if t.startTime.isSome && decide (r.status ≠ .interrupted) then
          s.memory.set id { r with status := .stopped }
        else s.memory
      runners := Function.update s.runners id (some { t with ended := true }) }
  else
    -- the first round begins by saying that the schedule runs
    let r := if t.startTime.isSome then r else { r with status := .running }
    let round := t.round (t.startTime.getD now) now course r
    { s with
      memory := s.memory.set id round.1
      runners := Function.update s.runners id
        (some { t with startTime := some (t.startTime.getD now), ended := round.2 })
      uploads := if course.uploads then id :: s.uploads else s.uploads }

def stop (id : Text) (allowed : Bool) : Schedules :=
  match s.memory.get id with
  | some r =>
    if allowed then
      { s with
        memory := s.memory.set id { r with status := .stopped }
        runners := s.cancel id
        answered := Function.update s.answered id true }
    else s
  | none => s

/-- A schedule that is in progress when the program ends. -/
def inProgress (r : Schedule) : Bool :=
  decide (r.status = .running ∨ r.status = .starting)

def interruptForShutdown : Schedules :=
  { s with
    memory := s.memory.map Schedule.recover
    cancelSoon := s.cancelSoon ++
      s.memory.keys.filter fun id => (s.memory.get id).any inProgress && (s.runners id).isSome }

/-- A new process has what is in the table; what was in progress is interrupted and saved. -/
def restart : Schedules :=
  { s with
    memory := s.saved.map Schedule.recover
    saved := s.saved.map Schedule.recover
    runners := fun _ => none
    cancelSoon := []
    toResume := s.saved.keys }

def resume (id : Text) (now : ℤ) (r : Schedule) : Schedules :=
  if !r.resumable then s
  else if (r.remaining now).any fun d => decide (d ≤ 0) then s.put id r.ranOut
  else
    { s.put id (r.resumed now) with
      runners := Function.update s.runners id (some
        { agentId := r.agentId, upload := r.request, intervalSeconds := r.intervalSeconds,
          duration := r.remaining now, indefinite := r.indefinite }) }

/-- Nothing else of the event loop runs while the schedules are resumed. -/
def step (s : Schedules) : ScheduleAction → Option Schedules
  | .create id agentId upload intervalSeconds durationSeconds indefinite allowed now =>
    if s.toResume = [] ∧ s.memory.get id = none then
      some (s.create id agentId upload intervalSeconds durationSeconds indefinite allowed now)
    else none
  | .run id course now =>
    match s.runners id, s.memory.get id with
    | some t, some r =>
      if s.toResume = [] ∧ t.ended = false then some (s.run id course now t r) else none
    | _, _ => none
  | .stop id allowed => if s.toResume = [] then some (s.stop id allowed) else none
  | .save id => some (s.save id)
  | .interruptForShutdown => some s.interruptForShutdown
  | .cancelSoon id =>
    if s.toResume = [] ∧ id ∈ s.cancelSoon then
      some { s with runners := s.cancel id, cancelSoon := s.cancelSoon.erase id }
    else none
  | .restart => some s.restart
  | .resumeNext now =>
    match s.toResume with
    | [] => none
    | id :: rest =>
      match s.memory.get id with
      | some r => some { s.resume id now r with toResume := rest }
      | none => some { s with toResume := rest }

end Schedules

end Habeny.Logs
