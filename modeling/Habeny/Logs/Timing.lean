import Habeny.Lib.Transition
import Habeny.Logs.Schedules

/-!
# When a log schedule ends

One schedule that is not indefinite, in time.  Sleeps, looks for the container and uploads take
time, and nothing else; a runner goes on at the moment at which its sleep is over.  The server may
stop at any moment, also during an upload, and start again at any later one; then what is left of
the duration is counted from the creation.

A runner that began at `s` with the duration `d` looks at the clock after each upload, and so its
last sleep begins before `s + d`.  What carries the bound over restarts is that `s + d` never
passes the end that the schedule was created with (`InTime.duration`).
-/

namespace Habeny.Logs

open Habeny.Lib

/-! ## The system in time -/

/-- A request for a schedule that is not indefinite. -/
structure DefiniteRequest where
  agentId : Text
  upload : LogUpload
  intervalSeconds : ℤ
  durationSeconds : ℤ
  five_le_interval : 5 ≤ intervalSeconds
  interval_le : intervalSeconds ≤ 86400
  ten_le_duration : 10 ≤ durationSeconds
  duration_le : durationSeconds ≤ 604800

/-- What happens in a round, and the microseconds that the look for the container and the upload
take. -/
structure Round where
  course : Course
  lookup : ℕ
  upload : ℕ

/-- An upload: when it was started, and its length, from the look for its container on. -/
structure StartedUpload where
  started : ℤ
  length : ℕ
  deriving DecidableEq

/-- One schedule: the clock, its record in memory while the server runs and as it was last saved,
its runner and when that goes on, whether a new process has still to look at the schedule, and
the uploads that were started, newest first. -/
structure TimedSchedule where
  now : ℤ
  memory : Option Schedule
  saved : Schedule
  runner : Option Runner
  wake : ℤ
  toResume : Bool
  uploads : List StartedUpload

inductive TimedAction where
  /-- Time passes, but not beyond the moment at which the runner goes on. -/
  | wait (microseconds : ℕ)
  /-- The runner goes on; `interrupted` when the program is asked to end meanwhile. -/
  | round (x : Round) (interrupted : Bool)
  | save
  | stop
  | interruptForShutdown
  /-- The process is lost. -/
  | halt
  /-- The process is lost during an upload, perhaps after it was asked to end, and after it saved
  the record. -/
  | haltDuring (lookup upload : ℕ) (interrupted saved : Bool)
  | restart
  | resume

/-- A runner goes on. -/
def TimedAction.isRound : TimedAction → Bool
  | .round _ _ => true
  | _ => false

namespace TimedSchedule

/-- `POST /agents/{agent_id}/logs/schedule`. -/
def create (q : DefiniteRequest) (createdAt : ℤ) : TimedSchedule :=
  let r : Schedule :=
    { agentId := q.agentId, intervalSeconds := q.intervalSeconds,
      durationSeconds := some q.durationSeconds, indefinite := false, status := .starting,
      createdAt, request := q.upload }
  { now := createdAt
    memory := some r
    saved := r
    runner := some
      { agentId := q.agentId, upload := q.upload, intervalSeconds := q.intervalSeconds,
        duration := some (q.durationSeconds * second), indefinite := false }
    wake := createdAt
    toResume := false
    uploads := [] }

variable (s : TimedSchedule)

/-- The record while an upload is in progress. -/
def during (t : Runner) (r : Schedule) (interrupted : Bool) : Schedule :=
  let r := if t.startTime.isSome then r else { r with status := .running }
  if interrupted then r.recover else r

def round (x : Round) (interrupted : Bool) (t : Runner) (r : Schedule) : TimedSchedule :=
  let start := t.startTime.getD s.wake
  let later := s.wake + x.lookup + x.upload
  let round := t.round start later x.course (during t r interrupted)
  { s with
    now := later
    memory := some round.1
    runner := if round.2 || interrupted then none else some { t with startTime := some start }
    wake := later + t.intervalSeconds * second
    uploads :=
      if x.course.uploads then ⟨s.wake + x.lookup, x.lookup + x.upload⟩ :: s.uploads
      else s.uploads }

def haltDuring (lookup upload : ℕ) (interrupted saved : Bool) (t : Runner) (r : Schedule) :
    TimedSchedule :=
  { s with
    now := s.wake + lookup + upload
    memory := none
    saved := if saved then during t r interrupted else s.saved
    runner := none
    uploads := ⟨s.wake + lookup, lookup + upload⟩ :: s.uploads }

def stop (r : Schedule) : TimedSchedule :=
  { s with memory := some { r with status := .stopped }, runner := none }

def interruptForShutdown (r : Schedule) : TimedSchedule :=
  { s with
    memory := some r.recover
    runner := if Schedules.inProgress r then none else s.runner }

def restart : TimedSchedule :=
  { s with memory := some s.saved.recover, saved := s.saved.recover, toResume := true }

def resume (r : Schedule) : TimedSchedule :=
  if !r.resumable then { s with toResume := false }
  else if (r.remaining s.now).any fun d => decide (d ≤ 0) then
    { s with memory := some r.ranOut, saved := r.ranOut, toResume := false }
  else
    { s with
      memory := some (r.resumed s.now)
      saved := r.resumed s.now
      runner := some
        { agentId := r.agentId, upload := r.request, intervalSeconds := r.intervalSeconds,
          duration := r.remaining s.now, indefinite := r.indefinite }
      wake := s.now
      toResume := false }

def step (s : TimedSchedule) : TimedAction → Option TimedSchedule
  | .wait microseconds =>
    if s.runner.all fun _ => decide (s.now + microseconds ≤ s.wake) then
      some { s with now := s.now + microseconds }
    else none
  | .round x interrupted =>
    match s.runner, s.memory with
    | some t, some r => some (s.round x interrupted t r)
    | _, _ => none
  | .save => s.memory.map fun r => { s with saved := r }
  | .stop => if s.toResume then none else s.memory.map s.stop
  | .interruptForShutdown => s.memory.map s.interruptForShutdown
  | .halt => some { s with memory := none, runner := none, toResume := false }
  | .haltDuring lookup upload interrupted saved =>
    match s.runner, s.memory with
    | some t, some r => some (s.haltDuring lookup upload interrupted saved t r)
    | _, _ => none
  | .restart => if s.memory.isSome then none else some s.restart
  | .resume => if s.toResume then s.memory.map s.resume else none

end TimedSchedule

/-! ## What a round and a start of the server leave -/

/-- A record has the terms of its request. -/
structure Schedule.HasTerms (r : Schedule) (q : DefiniteRequest) (createdAt : ℤ) : Prop where
  created : r.createdAt = createdAt
  interval : r.intervalSeconds = q.intervalSeconds
  duration : r.durationSeconds = some q.durationSeconds
  finite : r.indefinite = false

variable {q : DefiniteRequest} {createdAt : ℤ} {r : Schedule}

lemma Schedule.HasTerms.recover (h : r.HasTerms q createdAt) : r.recover.HasTerms q createdAt := by
  unfold Schedule.recover
  split <;> exact ⟨h.created, h.interval, h.duration, h.finite⟩

lemma Schedule.HasTerms.during (h : r.HasTerms q createdAt) (t : Runner) (interrupted : Bool) :
    (TimedSchedule.during t r interrupted).HasTerms q createdAt := by
  have hrunning : (if t.startTime.isSome then r
      else { r with status := .running }).HasTerms q createdAt := by
    split
    · exact h
    · exact ⟨h.created, h.interval, h.duration, h.finite⟩
  cases interrupted with
  | false => exact hrunning
  | true => exact hrunning.recover

lemma Schedule.HasTerms.round (h : r.HasTerms q createdAt) (t : Runner) (start now : ℤ)
    (course : Course) : (t.round start now course r).1.HasTerms q createdAt := by
  cases course with
  | listRaises e => exact ⟨h.created, h.interval, h.duration, h.finite⟩
  | missing => exact ⟨h.created, h.interval, h.duration, h.finite⟩
  | uploadRaises e => exact ⟨h.created, h.interval, h.duration, h.finite⟩
  | uploaded failure =>
    simp only [Runner.round]
    split <;> exact ⟨h.created, h.interval, h.duration, h.finite⟩

lemma Schedule.HasTerms.remaining (h : r.HasTerms q createdAt) (now : ℤ) :
    r.remaining now = some (q.durationSeconds * second - (now - createdAt)) := by
  rw [Schedule.remaining, h.finite, h.duration, h.created]
  rfl

/-- A runner with a duration sleeps again only while its time is not over. -/
lemma Runner.lt_of_not_ended {t : Runner} {d start now : ℤ} {course : Course}
    (hfinite : t.indefinite = false) (hd : t.duration = some d)
    (h : (t.round start now course r).2 = false) : now < start + d := by
  cases course with
  | listRaises e => exact absurd h Bool.true_eq_false.mp
  | missing => exact absurd h Bool.true_eq_false.mp
  | uploadRaises e => exact absurd h Bool.true_eq_false.mp
  | uploaded failure =>
    by_contra hover
    have hle : d ≤ now - start := by omega
    simp [Runner.round, hfinite, hd, hle] at h

/-! ## The bound -/

/-- A runner that goes on at `wake` is in time: counted from when it began, or will begin, its
duration ends before the schedule's does, and its sleep began before that. -/
structure InTime (q : DefiniteRequest) (createdAt wake : ℤ) (t : Runner) : Prop where
  finite : t.indefinite = false
  interval : t.intervalSeconds = q.intervalSeconds
  duration : ∃ d, t.duration = some d ∧ d ≤ q.durationSeconds * second ∧
    t.startTime.getD wake + d ≤ createdAt + q.durationSeconds * second ∧
    t.startTime.getD wake ≤ wake ∧
    wake < t.startTime.getD wake + d + q.intervalSeconds * second

/-- What holds of a schedule in every run. -/
structure Timely (q : DefiniteRequest) (createdAt : ℤ) (s : TimedSchedule) : Prop where
  created_le : createdAt ≤ s.now
  now_le : ∀ t, s.runner = some t → s.now ≤ s.wake
  alive : s.memory = none → s.runner = none
  saved : s.saved.HasTerms q createdAt
  memory : ∀ r, s.memory = some r → r.HasTerms q createdAt
  runner : ∀ t, s.runner = some t → InTime q createdAt s.wake t
  uploads : ∀ u ∈ s.uploads,
    u.started < createdAt + (q.durationSeconds + q.intervalSeconds) * second + u.length

lemma DefiniteRequest.interval_pos (q : DefiniteRequest) :
    0 < q.intervalSeconds * second :=
  Int.mul_pos (by have := q.five_le_interval; omega) (by decide)

lemma DefiniteRequest.duration_pos (q : DefiniteRequest) :
    0 < q.durationSeconds * second :=
  Int.mul_pos (by have := q.ten_le_duration; omega) (by decide)

/-- What a runner may still sleep. -/
def left (wake : ℤ) (t : Runner) : ℤ :=
  t.startTime.getD wake + t.duration.getD 0 - wake

namespace InTime

variable {wake : ℤ} {t : Runner}

/-- An upload of a runner in time is started before the schedule's end and one interval. -/
lemma upload_lt (h : InTime q createdAt wake t) (lookup upload : ℕ) :
    wake + lookup < createdAt + (q.durationSeconds + q.intervalSeconds) * second +
      (lookup + upload : ℕ) := by
  obtain ⟨d, -, -, hend, -, hwake⟩ := h.duration
  rw [Int.add_mul]
  omega

lemma left_le (h : InTime q createdAt wake t) : left wake t ≤ q.durationSeconds * second := by
  obtain ⟨d, hd, hle, -, hstart, -⟩ := h.duration
  rw [left, hd, Option.getD_some]
  omega

lemma lt_left (h : InTime q createdAt wake t) : -(q.intervalSeconds * second) < left wake t := by
  obtain ⟨d, hd, -, -, -, hwake⟩ := h.duration
  rw [left, hd, Option.getD_some]
  omega

/-- A runner that begins at once, with a duration that ends when the schedule's does. -/
lemma begin (hfinite : t.indefinite = false) (hinterval : t.intervalSeconds = q.intervalSeconds)
    (hnew : t.startTime = none)
    {now : ℤ} (hd : t.duration = some (q.durationSeconds * second - (now - createdAt)))
    (hcreated : createdAt ≤ now) (hpos : 0 < q.durationSeconds * second - (now - createdAt)) :
    InTime q createdAt now t := by
  have hinterval_pos := q.interval_pos
  refine ⟨hfinite, hinterval, _, hd, by omega, ?_, ?_, ?_⟩ <;> rw [hnew, Option.getD_none]
  · omega
  · omega

/-- A runner that sleeps again is in time again. -/
lemma next (h : InTime q createdAt wake t) {now : ℤ} (hle : wake ≤ now) {course : Course}
    (hended : (t.round (t.startTime.getD wake) now course r).2 = false) :
    InTime q createdAt (now + t.intervalSeconds * second)
      { t with startTime := some (t.startTime.getD wake) } := by
  obtain ⟨d, hd, hled, hend, hstart, -⟩ := h.duration
  have hlt := Runner.lt_of_not_ended h.finite hd hended
  have hpos := q.interval_pos
  rw [h.interval]
  refine ⟨h.finite, rfl, d, hd, hled, hend, ?_, ?_⟩ <;> rw [Option.getD_some]
  · omega
  · omega

end InTime

namespace Timely

variable {s s' : TimedSchedule} {t : Runner}

lemma create (q : DefiniteRequest) (createdAt : ℤ) :
    Timely q createdAt (.create q createdAt) := by
  have hpos := q.duration_pos
  refine ⟨le_rfl, fun _ _ => le_rfl, fun h => ?_, ⟨rfl, rfl, rfl, rfl⟩, ?_, ?_, ?_⟩
  · cases h
  · rintro _ ⟨⟩
    exact ⟨rfl, rfl, rfl, rfl⟩
  · rintro _ ⟨⟩
    refine InTime.begin rfl rfl rfl ?_ le_rfl ?_
    · show some (q.durationSeconds * second) =
        some (q.durationSeconds * second - (createdAt - createdAt))
      rw [Int.sub_self, Int.sub_zero]
    · show 0 < q.durationSeconds * second - (createdAt - createdAt)
      rw [Int.sub_self, Int.sub_zero]
      exact hpos
  · intro u hu
    cases hu

lemma round (h : Timely q createdAt s) (ht : s.runner = some t) (hr : s.memory = some r)
    (x : Round) (interrupted : Bool) : Timely q createdAt (s.round x interrupted t r) := by
  have hin := h.runner t ht
  have hcreated := h.created_le
  have hnow := h.now_le t ht
  have hpos := q.interval_pos
  refine ⟨?_, ?_, ?_, h.saved, ?_, ?_, ?_⟩
  · show createdAt ≤ s.wake + x.lookup + x.upload
    omega
  · intro t' ht'
    show s.wake + x.lookup + x.upload ≤ s.wake + x.lookup + x.upload + t.intervalSeconds * second
    rw [hin.interval]
    omega
  · intro hmemory
    cases hmemory
  · rintro _ ⟨⟩
    exact ((h.memory r hr).during t interrupted).round _ _ _ _
  · -- the runner sleeps again only if it did not end
    intro t' ht'
    simp only [TimedSchedule.round] at ht'
    split at ht'
    · cases ht'
    · next hgoes =>
      cases ht'
      rw [Bool.or_eq_true, not_or, Bool.not_eq_true] at hgoes
      exact hin.next (by omega) hgoes.1
  · intro u hu
    simp only [TimedSchedule.round] at hu
    split at hu
    · rcases List.mem_cons.mp hu with rfl | hu
      · exact hin.upload_lt x.lookup x.upload
      · exact h.uploads u hu
    · exact h.uploads u hu

lemma haltDuring (h : Timely q createdAt s) (ht : s.runner = some t) (hr : s.memory = some r)
    (lookup upload : ℕ) (interrupted saved : Bool) :
    Timely q createdAt (s.haltDuring lookup upload interrupted saved t r) := by
  have hin := h.runner t ht
  have hcreated := h.created_le
  have hnow := h.now_le t ht
  refine ⟨?_, fun _ ht' => ?_, fun _ => rfl, ?_, fun _ hr' => ?_, fun _ ht' => ?_, ?_⟩
  · show createdAt ≤ s.wake + lookup + upload
    omega
  · cases ht'
  · simp only [TimedSchedule.haltDuring]
    split
    · exact (h.memory r hr).during t interrupted
    · exact h.saved
  · cases hr'
  · cases ht'
  · intro u hu
    rcases List.mem_cons.mp hu with rfl | hu
    · exact hin.upload_lt lookup upload
    · exact h.uploads u hu

lemma resume (h : Timely q createdAt s) (hr : s.memory = some r) :
    Timely q createdAt (s.resume r) := by
  have hterms := h.memory r hr
  unfold TimedSchedule.resume
  split
  · exact ⟨h.created_le, h.now_le, h.alive, h.saved, h.memory, h.runner, h.uploads⟩
  · split
    · have hout : r.ranOut.HasTerms q createdAt :=
        ⟨hterms.created, hterms.interval, hterms.duration, hterms.finite⟩
      refine ⟨h.created_le, h.now_le, fun hmemory => ?_, hout, ?_, h.runner, h.uploads⟩
      · cases hmemory
      · rintro _ ⟨⟩
        exact hout
    · next hleft =>
      rw [hterms.remaining] at hleft
      have hpos : 0 < q.durationSeconds * second - (s.now - createdAt) := by
        by_contra hover
        exact hleft (decide_eq_true (Int.not_lt.mp hover))
      have hresumed : (r.resumed s.now).HasTerms q createdAt :=
        ⟨hterms.created, hterms.interval, hterms.duration, hterms.finite⟩
      refine ⟨h.created_le, fun _ _ => le_rfl, fun hmemory => ?_, hresumed, ?_, ?_, h.uploads⟩
      · cases hmemory
      · rintro _ ⟨⟩
        exact hresumed
      · rintro _ ⟨⟩
        exact InTime.begin hterms.finite hterms.interval rfl (hterms.remaining s.now)
          h.created_le hpos

/-- Every step keeps a schedule in time. -/
theorem step {a : TimedAction} (h : Timely q createdAt s) (hs : s.step a = some s') :
    Timely q createdAt s' := by
  cases a with
  | wait microseconds =>
    simp only [TimedSchedule.step] at hs
    split at hs
    · next hwait =>
      cases hs
      refine ⟨?_, fun t ht => ?_, h.alive, h.saved, h.memory, h.runner, h.uploads⟩
      · exact h.created_le.trans (Int.le_add_of_nonneg_right (Int.natCast_nonneg _))
      · rw [show s.runner = some t from ht] at hwait
        exact of_decide_eq_true hwait
    · cases hs
  | round x interrupted =>
    simp only [TimedSchedule.step] at hs
    split at hs
    · next t r ht hr =>
      cases hs
      exact h.round ht hr x interrupted
    · cases hs
  | save =>
    obtain ⟨r, hr, rfl⟩ := Option.map_eq_some_iff.mp hs
    exact ⟨h.created_le, h.now_le, h.alive, h.memory r hr, h.memory, h.runner, h.uploads⟩
  | stop =>
    simp only [TimedSchedule.step] at hs
    split at hs
    · cases hs
    · obtain ⟨r, hr, rfl⟩ := Option.map_eq_some_iff.mp hs
      have hterms := h.memory r hr
      refine ⟨h.created_le, fun _ ht => ?_, fun _ => rfl, h.saved, ?_, fun _ ht => ?_, h.uploads⟩
      · cases ht
      · rintro _ ⟨⟩
        exact ⟨hterms.created, hterms.interval, hterms.duration, hterms.finite⟩
      · cases ht
  | interruptForShutdown =>
    obtain ⟨r, hr, rfl⟩ := Option.map_eq_some_iff.mp hs
    have hrunner : ∀ t, (s.interruptForShutdown r).runner = some t → s.runner = some t := by
      intro t ht
      simp only [TimedSchedule.interruptForShutdown] at ht
      split at ht
      · cases ht
      · exact ht
    refine ⟨h.created_le, fun t ht => h.now_le t (hrunner t ht), fun hmemory => ?_, h.saved, ?_,
      fun t ht => h.runner t (hrunner t ht), h.uploads⟩
    · cases hmemory
    · rintro _ ⟨⟩
      exact (h.memory r hr).recover
  | halt =>
    cases hs
    refine ⟨h.created_le, fun _ ht => ?_, fun _ => rfl, h.saved, fun _ hr => ?_, fun _ ht => ?_,
      h.uploads⟩
    · cases ht
    · cases hr
    · cases ht
  | haltDuring lookup upload interrupted saved =>
    simp only [TimedSchedule.step] at hs
    split at hs
    · next t r ht hr =>
      cases hs
      exact h.haltDuring ht hr lookup upload interrupted saved
    · cases hs
  | restart =>
    simp only [TimedSchedule.step] at hs
    split at hs
    · cases hs
    · cases hs
      refine ⟨h.created_le, h.now_le, fun hmemory => ?_, h.saved.recover, ?_, h.runner,
        h.uploads⟩
      · cases hmemory
      · rintro _ ⟨⟩
        exact h.saved.recover
  | resume =>
    simp only [TimedSchedule.step] at hs
    split at hs
    · obtain ⟨r, hr, rfl⟩ := Option.map_eq_some_iff.mp hs
      exact h.resume hr
    · cases hs

end Timely

/-! ## The loop ends -/

/-- The server is not started again. -/
def notResumed (_ : TimedSchedule) (a : TimedAction) : Prop := a ≠ .resume

section Ends

variable {s s' : TimedSchedule} {t' : Runner}

/-- Between two rounds a runner sleeps on. -/
lemma runner_of_step {a : TimedAction} (hs : s.step a = some s') (hresume : a ≠ .resume)
    (hround : a.isRound = false) (ht' : s'.runner = some t') :
    s.runner = some t' ∧ s'.wake = s.wake := by
  cases a with
  | wait microseconds =>
    simp only [TimedSchedule.step] at hs
    split at hs <;> cases hs
    exact ⟨ht', rfl⟩
  | round x interrupted => exact absurd hround Bool.true_eq_false.mp
  | save =>
    obtain ⟨r, -, rfl⟩ := Option.map_eq_some_iff.mp hs
    exact ⟨ht', rfl⟩
  | stop =>
    simp only [TimedSchedule.step] at hs
    split at hs
    · cases hs
    · obtain ⟨r, -, rfl⟩ := Option.map_eq_some_iff.mp hs
      cases ht'
  | interruptForShutdown =>
    obtain ⟨r, -, rfl⟩ := Option.map_eq_some_iff.mp hs
    simp only [TimedSchedule.interruptForShutdown] at ht'
    split at ht'
    · cases ht'
    · exact ⟨ht', rfl⟩
  | halt =>
    cases hs
    cases ht'
  | haltDuring lookup upload interrupted saved =>
    simp only [TimedSchedule.step] at hs
    split at hs <;> cases hs
    cases ht'
  | restart =>
    simp only [TimedSchedule.step] at hs
    split at hs <;> cases hs
    exact ⟨ht', rfl⟩
  | resume => exact absurd rfl hresume

/-- A round that does not end a runner leaves it less to sleep, by an interval at least. -/
lemma left_of_round {t : Runner} (hin : InTime q createdAt s.wake t) (x : Round)
    (interrupted : Bool) (ht' : (s.round x interrupted t r).runner = some t') :
    left (s.round x interrupted t r).wake t' + q.intervalSeconds * second ≤ left s.wake t := by
  simp only [TimedSchedule.round] at ht'
  split at ht'
  · cases ht'
  · cases ht'
    simp only [left, TimedSchedule.round, Option.getD_some, hin.interval]
    omega

/-- While the server runs, a runner has the less to sleep the more rounds it made. -/
lemma left_of_run {bs : List TimedAction} (hrun : Run TimedSchedule.step notResumed s bs s')
    (h : Timely q createdAt s) (ht' : s'.runner = some t') :
    ∃ t, s.runner = some t ∧
      left s'.wake t' + q.intervalSeconds * second * bs.countP TimedAction.isRound ≤
        left s.wake t := by
  induction hrun with
  | nil => exact ⟨t', ht', by simp⟩
  | @cons s s₁ s' a bs hresume hs hrest ih =>
    obtain ⟨t₁, ht₁, hle⟩ := ih (h.step hs) ht'
    cases hround : a.isRound with
    | false =>
      obtain ⟨ht, hwake⟩ := runner_of_step hs hresume hround ht₁
      refine ⟨t₁, ht, ?_⟩
      rw [List.countP_cons_of_neg (by simp [hround]), ← hwake]
      exact hle
    | true =>
      cases a with
      | round x interrupted =>
        simp only [TimedSchedule.step] at hs
        split at hs
        · next t r ht hr =>
          cases hs
          refine ⟨t, ht, ?_⟩
          have hstep := left_of_round (h.runner t ht) x interrupted ht₁
          rw [List.countP_cons_of_pos hround, Int.natCast_succ, Int.mul_add, Int.mul_one]
          omega
        · cases hs
      | wait | save | stop | interruptForShutdown | halt | haltDuring | restart | resume =>
        exact absurd hround Bool.false_eq_true.mp

/-- A runner of a schedule can go on as long as it has not ended. -/
lemma exists_round (h : Timely q createdAt s) (hrunner : s.runner ≠ none) (x : Round)
    (interrupted : Bool) : ∃ s', s.step (.round x interrupted) = some s' := by
  obtain ⟨t, ht⟩ := Option.ne_none_iff_exists'.mp hrunner
  obtain ⟨r, hr⟩ := Option.ne_none_iff_exists'.mp fun hmemory => hrunner (h.alive hmemory)
  refine ⟨s.round x interrupted t r, ?_⟩
  simp only [TimedSchedule.step, ht, hr]

end Ends

section Schedules

variable (all : Schedules) (id : Text)

/-- What the system does with a request is what is timed here. -/
lemma create_eq (q : DefiniteRequest) (createdAt : ℤ) :
    let after := all.create id q.agentId q.upload q.intervalSeconds (some q.durationSeconds)
      false true createdAt
    let s := TimedSchedule.create q createdAt
    after.memory.get id = s.memory ∧ after.saved.get id = some s.saved ∧
      after.runners id = s.runner := by
  have hinterval : ¬q.intervalSeconds < 5 := Int.not_lt.mpr q.five_le_interval
  have hduration : q.durationSeconds ≠ 0 := by
    have := q.ten_le_duration
    omega
  simp [Schedules.create, Schedules.put, hinterval, hduration, TimedSchedule.create]

/-- So is what it does with a schedule when the program starts. -/
lemma resume_eq {s : TimedSchedule} {r : Schedule} (hmemory : all.memory.get id = s.memory)
    (hsaved : all.saved.get id = some s.saved) (hrunner : all.runners id = s.runner) :
    (all.resume id s.now r).memory.get id = (s.resume r).memory ∧
      (all.resume id s.now r).saved.get id = some (s.resume r).saved ∧
      (all.resume id s.now r).runners id = (s.resume r).runner := by
  unfold Schedules.resume TimedSchedule.resume
  split_ifs
  · exact ⟨hmemory, hsaved, hrunner⟩
  · simp [Schedules.put, hrunner]
  · simp [Schedules.put]

/-- And a round that takes no time. -/
lemma run_eq {s : TimedSchedule} {t : Runner} {r : Schedule} (hcancelled : t.cancelled = false)
    (hwake : s.wake = s.now) (course : Course) :
    (all.run id course s.now t r).memory.get id =
        (s.round ⟨course, 0, 0⟩ false t r).memory ∧
      (all.run id course s.now t r).runners id = some
        { t with
          startTime := some (t.startTime.getD s.now)
          ended := (s.round ⟨course, 0, 0⟩ false t r).runner.isNone } := by
  unfold Schedules.run TimedSchedule.round TimedSchedule.during
  simp only [hcancelled, hwake]
  cases hended : (t.round (t.startTime.getD s.now) s.now course
    (if t.startTime.isSome then r else { r with status := .running })).2 <;> simp [hended]

end Schedules

end Habeny.Logs
