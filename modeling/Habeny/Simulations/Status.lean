import Habeny.Lib.Text
import Habeny.Lib.Transition

/-!
# The status of a simulation

Three parties write the status of a simulation: its runner, a request to stop it, and the
interruption when the program is asked to end.  Each of them looks at the status before it writes,
apart from the runner of custom logs and from every runner's handler of exceptions.  Attacks and
custom logs run in the event loop, as requests do; syslog devices run in a thread of their own; and
the interruption is a signal handler of the event loop's thread.

The status is final once it has left `running`, as long as no party looks at it while another one is
between its look and its write, and what is written without a look finds the simulation running
(`Apart`).
-/

namespace Habeny.Simulations

open Habeny.Lib

/-! ## The parties -/

/-- The runners: `run_simulation`, `run_custom_log_simulation` and `run_syslog_simulation`. -/
inductive Kind where
  | attack
  | customLogs
  | syslog
  deriving DecidableEq

inductive SimulationStatus where
  | running
  | completed
  | failed
  | stopped
  | interrupted
  deriving DecidableEq

/-- Where a runner is: before the next round or, with custom logs, waiting for the results; in a
round; behind the last one; between its look and its write; in its handler of exceptions; behind its
write; or at its end. -/
inductive Place where
  | looping
  | working
  | finishing
  | deciding
  | failing
  | logging
  | ended
  deriving DecidableEq

/-- A simulation: its record's status, events and error; its runner; and whether a stop request or
the interruption has looked at the status and is about to write it. -/
structure Simulation where
  kind : Kind
  status : SimulationStatus
  events : ℕ
  error : Option Text
  place : Place
  stopping : Bool
  interrupting : Bool

inductive SimulationAction where
  /-- The runner looks whether to go on; `more` when its time is not over. -/
  | look (more : Bool)
  /-- A round is done. -/
  | work (events : ℕ)
  /-- The results of the containers with custom logs are there. -/
  | results (containers successes eventsEach : ℕ)
  /-- Something that the runner does raises an exception. -/
  | raises (error : Text)
  /-- The runner looks at the status after its last round. -/
  | finish
  /-- The runner writes how it ended. -/
  | decide
  /-- The handler of exceptions writes that the runner failed. -/
  | fail
  /-- The runner ends. -/
  | done
  /-- `POST /simulations/{simulation_id}/stop` looks at the status. -/
  | stopLook
  /-- It writes it. -/
  | stopWrite
  /-- `interrupt_running_simulations` looks at the status. -/
  | interruptLook
  /-- It writes it. -/
  | interruptWrite

namespace Simulation

def start (kind : Kind) : Simulation where
  kind
  status := .running
  events := 0
  error := none
  place := .looping
  stopping := false
  interrupting := false

/-- The runner is in the event loop, between two waits. -/
def holdsLoop (s : Simulation) : Bool :=
  decide (s.kind ≠ .syslog) &&
    decide (s.place ∈ [Place.finishing, .deciding, .failing, .logging])

/-- The runner can go on: a thread always can, the event loop when no request and no signal handler
has it. -/
def runnerMayGo (s : Simulation) : Bool :=
  decide (s.kind = .syslog) || (!s.stopping && !s.interrupting)

/-- A runner's steps. -/
def stepRunner (s : Simulation) : SimulationAction → Option Simulation
  | .look more =>
    if s.kind ≠ .customLogs ∧ s.place = .looping then
      some { s with place := if more && decide (s.status = .running) then .working else .finishing }
    else none
  | .work events =>
    if s.kind ≠ .customLogs ∧ s.place = .working then
      some { s with place := .looping, events := s.events + events }
    else none
  | .results containers successes eventsEach =>
    -- what the containers did decides, whatever the status is by now
    if s.kind = .customLogs ∧ s.place = .looping then
      some { s with
        place := .logging
        events := eventsEach * successes
        status := if successes = containers then .completed else .failed }
    else none
  | .raises error =>
    if s.place ∈ [Place.looping, .working, .logging] then
      some { s with place := .failing, error := some error }
    else none
  | .finish =>
    if s.place = .finishing then
      some { s with place := if s.status = .running then .deciding else .logging }
    else none
  | .decide =>
    if s.place = .deciding then
      some { s with place := .logging, status := if s.events = 0 then .failed else .completed }
    else none
  | .fail => if s.place = .failing then some { s with place := .ended, status := .failed } else none
  | .done => if s.place = .logging then some { s with place := .ended } else none
  | _ => none

def step (s : Simulation) : SimulationAction → Option Simulation
  | .stopLook =>
    if !s.holdsLoop && !s.stopping && !s.interrupting then
      some { s with stopping := decide (s.status = .running) }
    else none
  | .stopWrite =>
    if s.stopping && !s.interrupting then
      some { s with stopping := false, status := .stopped }
    else none
  | .interruptLook =>
    if s.interrupting then none else some { s with interrupting := decide (s.status = .running) }
  | .interruptWrite =>
    if s.interrupting then some { s with interrupting := false, status := .interrupted } else none
  | a => if s.runnerMayGo then s.stepRunner a else none

/-! ## What is claimed -/

/-- A status that is not `running` stays. -/
def Kept (s s' : Simulation) : Prop := s.status ≠ .running → s'.status = s.status

/-- A party is between its look at the status and its write, or a runner is in its handler. -/
def between (s : Simulation) : Bool :=
  s.stopping || s.interrupting || decide (s.place = .deciding ∨ s.place = .failing)

/-- The condition under which the status is final: nobody sees the simulation running while another
party is between its look and its write; the results of custom logs come in, and a runner raises,
only while nobody is in between and the simulation is running, or for an exception has failed. -/
def Apart (s : Simulation) : SimulationAction → Prop
  | .finish | .stopLook | .interruptLook => s.status = .running → s.between = false
  | .results .. => s.status = .running ∧ s.between = false
  | .raises _ => (s.status = .running ∨ s.status = .failed) ∧ s.between = false
  | .look _ | .work _ | .decide | .fail | .done | .stopWrite | .interruptWrite => True

/-- The parties that are in between are apart, and a runner that has written left `running`. -/
structure Sound (s : Simulation) : Prop where
  stopping : s.stopping = true → s.status = .running ∧ s.interrupting = false ∧
    s.place ≠ .deciding ∧ s.place ≠ .failing
  interrupting : s.interrupting = true → s.status = .running ∧ s.place ≠ .deciding ∧
    s.place ≠ .failing
  deciding : s.place = .deciding → s.status = .running
  failing : s.place = .failing → s.status = .running ∨ s.status = .failed
  left : s.place = .logging ∨ s.place = .ended → s.status ≠ .running

lemma sound_start (kind : Kind) : Sound (start kind) := by
  constructor <;> simp [start]

variable {s s' : Simulation}

lemma between_eq_false_iff : s.between = false ↔
    s.stopping = false ∧ s.interrupting = false ∧ s.place ≠ .deciding ∧ s.place ≠ .failing := by
  simp [between, and_assoc]

lemma Kept.of_running (h : s.status = .running) (s' : Simulation) : Kept s s' :=
  fun hne => absurd h hne

/-! ## The runner -/

/-- A runner that goes on without a look or a write. -/
lemma Sound.move (hs : Sound s) {place : Place} {events : ℕ}
    (hdeciding : place ≠ .deciding) (hfailing : place ≠ .failing)
    (hleft : place = .logging ∨ place = .ended → s.status ≠ .running) :
    Sound { s with place, events } where
  stopping := fun h => ⟨(hs.stopping h).1, (hs.stopping h).2.1, hdeciding, hfailing⟩
  interrupting := fun h => ⟨(hs.interrupting h).1, hdeciding, hfailing⟩
  deciding := fun h => absurd h hdeciding
  failing := fun h => absurd h hfailing
  left := hleft

/-- Nobody else than the runner is in between. -/
lemma sound_of_runner (hstopping : s.stopping = false) (hinterrupting : s.interrupting = false)
    (hdeciding : s.place = .deciding → s.status = .running)
    (hfailing : s.place = .failing → s.status = .running ∨ s.status = .failed)
    (hleft : s.place = .logging ∨ s.place = .ended → s.status ≠ .running) : Sound s where
  stopping := fun h => absurd (hstopping.symm.trans h) (by simp)
  interrupting := fun h => absurd (hinterrupting.symm.trans h) (by simp)
  deciding := hdeciding
  failing := hfailing
  left := hleft

/-- Nobody is in between after a write. -/
lemma sound_written (hstopping : s.stopping = false) (hinterrupting : s.interrupting = false)
    (hdeciding : s.place ≠ .deciding) (hfailing : s.place ≠ .failing)
    (hstatus : s.status ≠ .running) : Sound s :=
  sound_of_runner hstopping hinterrupting (fun h => absurd h hdeciding)
    (fun h => absurd h hfailing) fun _ => hstatus

/-- A write over `running`. -/
lemma keeps_written (hrunning : s.status = .running) (hstopping : s'.stopping = false)
    (hinterrupting : s'.interrupting = false) (hdeciding : s'.place ≠ .deciding)
    (hfailing : s'.place ≠ .failing) (hstatus : s'.status ≠ .running) : Sound s' ∧ Kept s s' :=
  ⟨sound_written hstopping hinterrupting hdeciding hfailing hstatus, .of_running hrunning s'⟩

/-- While a runner decides or fails, nobody else is in between. -/
lemma Sound.alone (hs : Sound s) (h : s.place = .deciding ∨ s.place = .failing) :
    s.stopping = false ∧ s.interrupting = false := by
  constructor
  · by_contra hstopping
    obtain ⟨-, -, hdeciding, hfailing⟩ := hs.stopping (Bool.not_eq_false _ ▸ hstopping)
    exact h.elim hdeciding hfailing
  · by_contra hinterrupting
    obtain ⟨-, hdeciding, hfailing⟩ := hs.interrupting (Bool.not_eq_false _ ▸ hinterrupting)
    exact h.elim hdeciding hfailing

lemma stepRunner_keeps {a : SimulationAction} (hs : Sound s) (hguard : Apart s a)
    (hstep : s.stepRunner a = some s') : Sound s' ∧ Kept s s' := by
  cases a with
  | look more =>
    simp only [stepRunner] at hstep
    split_ifs at hstep with h hmore
    · obtain rfl := Option.some.inj hstep
      exact ⟨hs.move (by simp) (by simp) (by simp), fun _ => rfl⟩
    · obtain rfl := Option.some.inj hstep
      exact ⟨hs.move (by simp) (by simp) (by simp), fun _ => rfl⟩
  | work events =>
    simp only [stepRunner] at hstep
    split_ifs at hstep
    obtain rfl := Option.some.inj hstep
    exact ⟨hs.move (by simp) (by simp) (by simp), fun _ => rfl⟩
  | results containers successes eventsEach =>
    simp only [stepRunner] at hstep
    split_ifs at hstep with h hall
    · obtain rfl := Option.some.inj hstep
      obtain ⟨hstopping, hinterrupting, -⟩ := between_eq_false_iff.mp hguard.2
      exact keeps_written hguard.1 hstopping hinterrupting (by simp) (by simp) (by simp)
    · obtain rfl := Option.some.inj hstep
      obtain ⟨hstopping, hinterrupting, -⟩ := between_eq_false_iff.mp hguard.2
      exact keeps_written hguard.1 hstopping hinterrupting (by simp) (by simp) (by simp)
  | raises error =>
    simp only [stepRunner] at hstep
    split_ifs at hstep
    obtain rfl := Option.some.inj hstep
    obtain ⟨hstatus, hbetween⟩ := hguard
    obtain ⟨hstopping, hinterrupting, -⟩ := between_eq_false_iff.mp hbetween
    exact ⟨sound_of_runner hstopping hinterrupting (fun h => absurd h (by simp)) (fun _ => hstatus)
      fun h => absurd h (by simp), fun _ => rfl⟩
  | finish =>
    simp only [stepRunner] at hstep
    split_ifs at hstep with h hrunning
    · obtain rfl := Option.some.inj hstep
      obtain ⟨hstopping, hinterrupting, -⟩ := between_eq_false_iff.mp (hguard hrunning)
      exact ⟨sound_of_runner hstopping hinterrupting (fun _ => hrunning)
        (fun h => absurd h (by simp)) fun h => absurd h (by simp), fun _ => rfl⟩
    · obtain rfl := Option.some.inj hstep
      exact ⟨hs.move (by simp) (by simp) fun _ => hrunning, fun _ => rfl⟩
  | decide =>
    simp only [stepRunner] at hstep
    split_ifs at hstep with h hevents
    · obtain rfl := Option.some.inj hstep
      obtain ⟨hstopping, hinterrupting⟩ := hs.alone (.inl h)
      exact keeps_written (hs.deciding h) hstopping hinterrupting (by simp) (by simp) (by simp)
    · obtain rfl := Option.some.inj hstep
      obtain ⟨hstopping, hinterrupting⟩ := hs.alone (.inl h)
      exact keeps_written (hs.deciding h) hstopping hinterrupting (by simp) (by simp) (by simp)
  | fail =>
    simp only [stepRunner] at hstep
    split_ifs at hstep with h
    obtain rfl := Option.some.inj hstep
    obtain ⟨hstopping, hinterrupting⟩ := hs.alone (.inr h)
    refine ⟨sound_written hstopping hinterrupting (by simp) (by simp) (by simp), fun hne => ?_⟩
    exact ((hs.failing h).resolve_left hne).symm
  | done =>
    simp only [stepRunner] at hstep
    split_ifs at hstep with h
    obtain rfl := Option.some.inj hstep
    exact ⟨hs.move (by simp) (by simp) fun _ => hs.left (.inl h), fun _ => rfl⟩
  | stopLook | stopWrite | interruptLook | interruptWrite => simp [stepRunner] at hstep

/-! ## The other parties -/

/-- **Every step of parties that are apart** keeps them apart, and keeps a status that is not
`running`. -/
lemma step_keeps {a : SimulationAction} (hs : Sound s) (hguard : Apart s a)
    (hstep : step s a = some s') : Sound s' ∧ Kept s s' := by
  cases a with
  | stopLook =>
    simp only [step] at hstep
    split_ifs at hstep with h
    obtain rfl := Option.some.inj hstep
    simp only [Bool.and_eq_true, Bool.not_eq_true'] at h
    refine ⟨⟨fun hrunning => ?_, fun hinterrupting => ?_, hs.deciding, hs.failing, hs.left⟩,
      fun _ => rfl⟩
    · have hrunning := of_decide_eq_true hrunning
      obtain ⟨-, hinterrupting, hdeciding, hfailing⟩ := between_eq_false_iff.mp (hguard hrunning)
      exact ⟨hrunning, hinterrupting, hdeciding, hfailing⟩
    · exact absurd (h.2.symm.trans hinterrupting) (by simp)
  | stopWrite =>
    simp only [step] at hstep
    split_ifs at hstep with h
    obtain rfl := Option.some.inj hstep
    simp only [Bool.and_eq_true, Bool.not_eq_true'] at h
    obtain ⟨hrunning, hinterrupting, hdeciding, hfailing⟩ := hs.stopping h.1
    exact keeps_written hrunning rfl hinterrupting hdeciding hfailing (by simp)
  | interruptLook =>
    simp only [step] at hstep
    split_ifs at hstep with h
    obtain rfl := Option.some.inj hstep
    refine ⟨⟨fun hstopping => ?_, fun hrunning => ?_, hs.deciding, hs.failing, hs.left⟩,
      fun _ => rfl⟩
    · -- a stop that is in between saw the simulation running
      obtain ⟨hrunning, -, hdeciding, hfailing⟩ := hs.stopping hstopping
      have hstopping' := (between_eq_false_iff.mp (hguard hrunning)).1
      exact absurd (hstopping'.symm.trans hstopping) (by simp)
    · have hrunning := of_decide_eq_true hrunning
      obtain ⟨-, -, hdeciding, hfailing⟩ := between_eq_false_iff.mp (hguard hrunning)
      exact ⟨hrunning, hdeciding, hfailing⟩
  | interruptWrite =>
    simp only [step] at hstep
    split_ifs at hstep with h
    obtain rfl := Option.some.inj hstep
    obtain ⟨hrunning, hdeciding, hfailing⟩ := hs.interrupting h
    have hstopping : s.stopping = false := by
      by_contra hstopping
      have := (hs.stopping (Bool.not_eq_false _ ▸ hstopping)).2.1
      exact absurd (this.symm.trans h) (by simp)
    exact keeps_written hrunning hstopping rfl hdeciding hfailing (by simp)
  | look | work | results | raises | finish | decide | fail | done =>
    simp only [step] at hstep
    split_ifs at hstep
    exact stepRunner_keeps hs hguard hstep

/-- What has left `running` stays as it is in every run of parties that are apart. -/
lemma run_keeps {as : List SimulationAction} (hs : Sound s) (hrun : Run step Apart s as s') :
    Sound s' ∧ Kept s s' := by
  refine hrun.invariant (P := fun s' => Sound s' ∧ Kept s s') (fun h hguard hstep => ?_)
    ⟨hs, fun _ => rfl⟩
  obtain ⟨hsound, hkept⟩ := step_keeps h.1 hguard hstep
  refine ⟨hsound, fun hne => ?_⟩
  have hsame := h.2 hne
  rw [hkept (by rw [hsame]; exact hne), hsame]

/-- **The status of a simulation is final.**  In every run of its runner, of requests to stop it and
of the interruption that keep apart, a status that has left `running` never changes, and when the
runner has ended the status is not `running`. -/
theorem status_final {kind : Kind} {as bs : List SimulationAction}
    (hrun : Run step Apart (start kind) as s) (hafter : Run step Apart s bs s') :
    Kept s s' ∧ (s.place = .ended → s.status ≠ .running) := by
  have hs := (run_keeps (sound_start kind) hrun).1
  exact ⟨(run_keeps hs hafter).2, fun h => hs.left (.inr h)⟩

/-! ## Stopped simulations that complete or fail -/

/-- A stop of a simulation that another status replaces. -/
def StopOverwritten (kind : Kind) : Prop :=
  ∃ as bs s s', Run step anyStep (start kind) as s ∧ Run step anyStep s bs s' ∧
    s.status = .stopped ∧ s'.status ≠ .stopped

/-- The statuses after one run and after another one that goes on from there. -/
def statuses (kind : Kind) (as bs : List SimulationAction) :
    Option (SimulationStatus × SimulationStatus) :=
  (exec step (start kind) as).bind fun s => (exec step s bs).map fun s' => (s.status, s'.status)

lemma exists_of_statuses {kind : Kind} {as bs : List SimulationAction}
    {o : SimulationStatus × SimulationStatus} (h : statuses kind as bs = some o) :
    ∃ s s', exec step (start kind) as = some s ∧ exec step s bs = some s' ∧ s.status = o.1 ∧
      s'.status = o.2 := by
  obtain ⟨s, hs, hrest⟩ := Option.bind_eq_some_iff.mp h
  obtain ⟨s', hs', rfl⟩ := Option.map_eq_some_iff.mp hrest
  exact ⟨s, s', hs, hs', rfl, rfl⟩

lemma stopOverwritten_of_statuses {kind : Kind} (as bs : List SimulationAction)
    {o : SimulationStatus} (h : statuses kind as bs = some (.stopped, o)) (ho : o ≠ .stopped) :
    StopOverwritten kind := by
  obtain ⟨s, s', hs, hs', hstopped, rfl⟩ := exists_of_statuses h
  exact ⟨as, bs, s, s', run_of_exec hs, run_of_exec hs', hstopped, ho⟩

/-- **A stop is overwritten.**  An attack that was stopped in a round fails when that raises, custom
logs complete after they were stopped, and syslog devices complete when their last look comes before
the stop. -/
theorem status_changes :
    StopOverwritten .attack ∧ StopOverwritten .customLogs ∧ StopOverwritten .syslog := by
  refine ⟨?_, ?_, ?_⟩
  · exact stopOverwritten_of_statuses [.look true, .stopLook, .stopWrite]
      [.raises "boom".toList, .fail] (o := .failed) (by decide) (by decide)
  · exact stopOverwritten_of_statuses [.stopLook, .stopWrite] [.results 2 2 60]
      (o := .completed) (by decide) (by decide)
  · exact stopOverwritten_of_statuses
      [.look true, .work 5, .look false, .finish, .stopLook, .stopWrite] [.decide]
      (o := .completed) (by decide) (by decide)

/-- A simulation that completes and is stopped too late. -/
def lateStop : List SimulationAction :=
  [.look true, .work 5, .look false, .finish, .decide, .done]

instance (s : Simulation) : (a : SimulationAction) → Decidable (Apart s a)
  | .finish | .stopLook | .interruptLook =>
    inferInstanceAs (Decidable (s.status = .running → s.between = false))
  | .results .. => inferInstanceAs (Decidable (s.status = .running ∧ s.between = false))
  | .raises _ =>
    inferInstanceAs (Decidable ((s.status = .running ∨ s.status = .failed) ∧ s.between = false))
  | .look _ | .work _ | .decide | .fail | .done | .stopWrite | .interruptWrite =>
    inferInstanceAs (Decidable True)

theorem status_final_lateStop : ∃ s s', exec step (start .attack) lateStop = some s ∧
    exec step s [.stopLook, .interruptLook] = some s' ∧ s.status = .completed ∧
    Kept s s' ∧ (s.place = .ended → s.status ≠ .running) := by
  have hstatuses : statuses .attack lateStop [.stopLook, .interruptLook]
      = some (.completed, .completed) := by decide
  obtain ⟨s, s', hs, hs', hcompleted, -⟩ := exists_of_statuses hstatuses
  have hmeets : execMeets step (fun s a => decide (Apart s a)) (start .attack) lateStop = true := by
    decide
  have hmeets' : (exec step (start .attack) lateStop).all (fun s =>
      execMeets step (fun s a => decide (Apart s a)) s [.stopLook, .interruptLook]) = true := by
    decide
  rw [hs, Option.all_some] at hmeets'
  exact ⟨s, s', hs, hs', hcompleted, status_final
    (run_of_execMeets (fun _ _ h => of_decide_eq_true h) hs hmeets)
    (run_of_execMeets (fun _ _ h => of_decide_eq_true h) hs' hmeets')⟩

end Simulation

end Habeny.Simulations
