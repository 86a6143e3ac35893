import Habeny.Logs.Schedules
import Habeny.Reports.Confidential
import Habeny.Requests.Isolation

/-!
# A schedule for a group

A group is given a schedule by giving one to each of its members, one after another, by the
endpoint for a single container.  A member that is refused ends the loop, and a member for which
something raises is passed over (`Setting.refused`, `Setting.passed`, `Setting.starts`); what was
started before stays started.  `allOrNone_iff` says for which groups either every member has its
schedule or none.
-/

namespace Habeny.Logs

open Habeny.Lib Habeny.Auth Habeny.Tenancy Habeny.Reports
open Requests (LogScheduleRequest groupNotFound logTargetNotFound intervalTooShort
  durationRequired)

/-- What a request for a group finds when the schedules are `s`: the licence, the database, the
containers; and for each container what raises, the id and the time of its schedule. -/
structure Setting (s : Schedules) where
  license : Licensing.Server
  groups : Text → Bool
  agents : Text → List Text
  nodup : ∀ group, (agents group).Nodup
  owners : Owners
  containers : List Text
  /-- The database fails before the members are known. -/
  groupRaises : Option Text
  listRaises : Text → Option Text
  seeRaises : Text → Option Text
  saveRaises : Text → Option Text
  scheduleId : Text → Text
  distinct : Function.Injective scheduleId
  new : ∀ agentId, s.memory.get (scheduleId agentId) = none ∧ s.runners (scheduleId agentId) = none
  now : Text → ℤ

namespace Setting

variable {s : Schedules} (env : Setting s) (user : Option User) (upload : LogUpload)
  (schedule : LogScheduleRequest)

/-! ## The endpoints -/

/-- Whether a container exists and the user may see it. -/
def found (agentId : Text) : Except Text Bool :=
  match env.listRaises agentId with
  | some e => .error e
  | none =>
    if agentId ∉ env.containers then .ok false
    else
      match env.seeRaises agentId with
      | some e => .error e
      | none => .ok (canSee env.owners user agentId)

/-- The record of a new schedule. -/
def record (agentId : Text) : Schedule where
  agentId := agentId
  intervalSeconds := schedule.intervalSeconds
  durationSeconds := schedule.durationSeconds.map fun d => (d : ℤ)
  indefinite := schedule.indefinite
  status := .starting
  createdAt := env.now agentId
  request := upload

/-- The runner of a new schedule. -/
def runner (agentId : Text) : Runner where
  agentId := agentId
  upload := upload
  intervalSeconds := schedule.intervalSeconds
  duration := schedule.durationSeconds.map fun d => (d : ℤ) * second
  indefinite := schedule.indefinite

/-- Start the schedule of a container. -/
def start (s' : Schedules) (agentId : Text) : Schedules :=
  { s'.put (env.scheduleId agentId) (env.record upload schedule agentId) with
    runners := Function.update s'.runners (env.scheduleId agentId)
      (some (runner upload schedule agentId)) }

def couldNotSchedule (e : Text) : ApiResponse PublicSchedule :=
  failed "Failed to schedule log upload".toList e

/-- Schedule periodic log uploads to a container (`schedule_log_upload`). -/
def scheduleLogUpload (s' : Schedules) (agentId : Text) :
    Except Refusal (ApiResponse PublicSchedule) × Schedules :=
  match Licensing.require env.license 0 0 with
  | .error e => (.error e, s')
  | .ok () =>
    match env.found user agentId with
    | .error e => (.ok (couldNotSchedule e), s')
    | .ok false => (.error (logTargetNotFound agentId), s')
    | .ok true =>
      if schedule.intervalSeconds < 5 then (.error intervalTooShort, s')
      else if !schedule.indefinite && decide (schedule.durationSeconds.getD 0 = 0) then
        (.error durationRequired, s')
      else
        match env.saveRaises agentId with
        -- the record is in memory when its saving raises
        | some e =>
          (.ok (couldNotSchedule e),
            { s' with
              memory := s'.memory.set (env.scheduleId agentId)
                (env.record upload schedule agentId) })
        | none =>
          (.ok (succeed "Log schedule created".toList
              (schedulePublic (env.scheduleId agentId) (env.record upload schedule agentId))),
            env.start upload schedule s' agentId)

/-- The loop over the members. -/
def scheduleEach (s' : Schedules) (schedules : List PublicSchedule) :
    List Text → Except Refusal (List PublicSchedule) × Schedules
  | [] => (.ok schedules, s')
  | agentId :: agentIds =>
    match env.scheduleLogUpload user upload schedule s' agentId with
    | (.error e, s'') => (.error e, s'')
    | (.ok result, s'') =>
      scheduleEach s'' (schedules ++ if result.success then result.data.toList else []) agentIds

/-- The members of a group that the user can see. -/
def members (group : Text) : List Text := visible env.owners user (env.agents group)

/-- Schedule periodic log uploads to all containers in a group (`schedule_logs_to_group`). -/
def scheduleLogsToGroup (group : Text) :
    Except Refusal (ApiResponse (List PublicSchedule)) × Schedules :=
  match env.groupRaises with
  | some e => (.ok (failed "Failed to schedule logs to group".toList e), s)
  | none =>
    if !env.groups group then (.error groupNotFound, s)
    else if (env.members user group).isEmpty then
      (.ok (failed "No containers in group".toList "empty_group".toList), s)
    else
      match env.scheduleEach user upload schedule s [] (env.members user group) with
      | (.error e, s') => (.error e, s')
      | (.ok schedules, s') => (.ok (succeed "Log schedules created".toList schedules), s')

end Setting

/-! ## All or none -/

/-- A schedule of a container that is new and has a runner. -/
structure Started (s s' : Schedules) (agentId id : Text) : Prop where
  new : s.memory.get id = none ∧ s.runners id = none
  record : ∃ r, s'.memory.get id = some r ∧ r.agentId = agentId ∧ r.status = .starting
  runner : ∃ t, s'.runners id = some t ∧ t.agentId = agentId ∧ t.ended = false ∧ t.cancelled = false

/-- A request fails. -/
def Fails {α : Type} (answer : Except Refusal (ApiResponse α)) : Prop :=
  ∀ a, answer = .ok a → a.success = false

namespace Setting

variable {s : Schedules} (env : Setting s) (user : Option User) (upload : LogUpload)
  (schedule : LogScheduleRequest) (group : Text)

/-- Every member that exists has one new schedule, which the answer lists, or the request fails and
starts none. -/
def AllOrNone : Prop :=
  let r := env.scheduleLogsToGroup user upload schedule group
  (∃ answer schedules, r.1 = .ok answer ∧ answer.success = true ∧ answer.data = some schedules ∧
    ∀ a ∈ env.members user group, a ∈ env.containers →
      ∃ id, Started s r.2 a id ∧ (∀ id', Started s r.2 a id' → id' = id) ∧
        id ∈ schedules.map PublicSchedule.scheduleId) ∨
  (Fails r.1 ∧ ∀ a id, ¬Started s r.2 a id)

/-- Something raises before it is known whether a container is there. -/
def lookRaises (agentId : Text) : Bool :=
  (env.listRaises agentId).isSome ||
    decide (agentId ∈ env.containers) && (env.seeRaises agentId).isSome

/-- The request has neither a duration nor runs indefinitely. -/
def lacksDuration : Bool :=
  !schedule.indefinite && decide (schedule.durationSeconds.getD 0 = 0)

def licensed : Bool := (Licensing.require env.license 0 0).toOption.isSome

/-- A member at which the loop ends. -/
def refused (agentId : Text) : Bool :=
  !env.licensed || !env.lookRaises agentId &&
    (decide (agentId ∉ env.containers) || lacksDuration schedule)

/-- A member that gets its schedule. -/
def starts (agentId : Text) : Bool :=
  !env.refused schedule agentId && !env.lookRaises agentId && (env.saveRaises agentId).isNone

/-- A member that is passed over. -/
def passed (agentId : Text) : Bool :=
  !env.refused schedule agentId && !env.starts schedule agentId

/-- The condition under which all members get their schedule or none: every member that exists gets
it and none ends the loop, or those before the first that ends the loop are passed over. -/
def Undivided : Prop :=
  env.groupRaises.isSome = true ∨ env.groups group = false ∨
    (∀ a ∈ env.members user group, env.refused schedule a = false ∧
      (a ∈ env.containers → env.starts schedule a = true)) ∨
    ∃ before a after, env.members user group = before ++ a :: after ∧
      (∀ b ∈ before, env.passed schedule b = true) ∧ env.refused schedule a = true

variable {env user upload schedule group}

/-! ## One member -/

lemma canSee_of_mem_members {a : Text} (h : a ∈ env.members user group) :
    canSee env.owners user a = true :=
  (Requests.mem_visible.mp h).2

lemma nodup_members : (env.members user group).Nodup := by
  unfold members visible
  split_ifs
  · exact env.nodup group
  · exact (env.nodup group).filter _

/-- What is found of a container that the user may see. -/
lemma found_cases {a : Text} (hsee : canSee env.owners user a = true) :
    (env.lookRaises a = true ∧ ∃ e, env.found user a = .error e) ∨
      (env.lookRaises a = false ∧ env.found user a = .ok (decide (a ∈ env.containers))) := by
  unfold found lookRaises
  cases hlist : env.listRaises a with
  | some e => exact .inl ⟨rfl, e, rfl⟩
  | none =>
    by_cases hmem : a ∈ env.containers
    · cases hraise : env.seeRaises a with
      | some e => exact .inl ⟨by simp [hmem], e, by simp [hmem]⟩
      | none => exact .inr ⟨by simp, by simp [hmem, hsee]⟩
    · exact .inr ⟨by simp [hmem], by simp [hmem]⟩

lemma require_of_licensed (h : env.licensed = true) : Licensing.require env.license 0 0 = .ok () := by
  unfold licensed at h
  cases hrequire : Licensing.require env.license 0 0 with
  | error e => simp [hrequire, Except.toOption] at h
  | ok u => rfl

lemma require_of_not_licensed (h : env.licensed = false) :
    ∃ e, Licensing.require env.license 0 0 = .error e := by
  unfold licensed at h
  cases hrequire : Licensing.require env.license 0 0 with
  | error e => exact ⟨e, rfl⟩
  | ok u => simp [hrequire, Except.toOption] at h

/-- The request model has checked the interval. -/
lemma not_intervalTooShort : ¬schedule.intervalSeconds < 5 := by
  have hbounds := schedule.interval_bounds
  omega

variable {a : Text}

/-- A member that is refused changes nothing. -/
lemma scheduleLogUpload_refused (upload : LogUpload) (s' : Schedules) (hsee : canSee env.owners user a = true)
    (h : env.refused schedule a = true) :
    ∃ e, env.scheduleLogUpload user upload schedule s' a = (.error e, s') := by
  unfold scheduleLogUpload
  cases hlicensed : env.licensed with
  | false =>
    obtain ⟨e, he⟩ := require_of_not_licensed hlicensed
    exact ⟨e, by rw [he]⟩
  | true =>
    rw [require_of_licensed hlicensed]
    rcases found_cases hsee with ⟨hlook, -⟩ | ⟨hlook, hfound⟩
    · simp [refused, hlicensed, hlook] at h
    · rw [hfound]
      by_cases hmem : a ∈ env.containers
      · have hlacks : lacksDuration schedule = true := by
          simpa [refused, hlicensed, hlook, hmem] using h
        rw [decide_eq_true hmem]
        simp only [if_neg not_intervalTooShort]
        exact ⟨durationRequired, if_pos hlacks⟩
      · rw [decide_eq_false hmem]
        exact ⟨logTargetNotFound a, rfl⟩

/-- A member that gets its schedule. -/
lemma scheduleLogUpload_starts (s' : Schedules) (hsee : canSee env.owners user a = true)
    (h : env.starts schedule a = true) :
    env.scheduleLogUpload user upload schedule s' a
      = (.ok (succeed "Log schedule created".toList
          (schedulePublic (env.scheduleId a) (env.record upload schedule a))),
        env.start upload schedule s' a) := by
  simp only [starts, Bool.and_eq_true, Bool.not_eq_true', Option.isNone_iff_eq_none] at h
  obtain ⟨⟨hrefused, hlook⟩, hsave⟩ := h
  simp only [refused, hlook, Bool.or_eq_false_iff, Bool.not_eq_false', Bool.not_false,
    Bool.true_and, decide_eq_false_iff_not, not_not] at hrefused
  obtain ⟨hlicensed, hmem, hlacks⟩ := hrefused
  rcases found_cases hsee with ⟨hraises, -⟩ | ⟨-, hfound⟩
  · exact absurd (hraises.symm.trans hlook) (by decide)
  · unfold scheduleLogUpload
    rw [require_of_licensed hlicensed, hfound, decide_eq_true hmem]
    simp only [if_neg not_intervalTooShort]
    rw [if_neg (by rw [← lacksDuration, hlacks]; decide), hsave]

/-- A member that is passed over leaves the runners as they are. -/
lemma scheduleLogUpload_passed (upload : LogUpload) (s' : Schedules) (hsee : canSee env.owners user a = true)
    (h : env.passed schedule a = true) :
    ∃ e s'', env.scheduleLogUpload user upload schedule s' a = (.ok (couldNotSchedule e), s'') ∧
      s''.runners = s'.runners ∧
      ∀ id, id ≠ env.scheduleId a → s''.memory.get id = s'.memory.get id := by
  simp only [passed, Bool.and_eq_true, Bool.not_eq_true'] at h
  obtain ⟨hrefused, hstarts⟩ := h
  have hlicensed : env.licensed = true := by
    rw [refused, Bool.or_eq_false_iff] at hrefused
    simpa using hrefused.1
  unfold scheduleLogUpload
  rw [require_of_licensed hlicensed]
  rcases found_cases hsee with ⟨-, e, hfound⟩ | ⟨hlook, hfound⟩
  · exact ⟨e, s', by rw [hfound], rfl, fun _ _ => rfl⟩
  · simp only [refused, hlicensed, hlook, Bool.not_true, Bool.false_or, Bool.not_false,
      Bool.true_and, Bool.or_eq_false_iff, decide_eq_false_iff_not, not_not] at hrefused
    obtain ⟨hmem, hlacks⟩ := hrefused
    have hsave : ∃ e, env.saveRaises a = some e := by
      rw [← Option.isSome_iff_exists]
      simpa [starts, refused, hlicensed, hlook, hmem, hlacks] using hstarts
    obtain ⟨e, he⟩ := hsave
    rw [hfound, decide_eq_true hmem]
    simp only [if_neg not_intervalTooShort]
    rw [if_neg (by rw [← lacksDuration, hlacks]; decide), he]
    exact ⟨e, _, rfl, rfl, fun id hid => Dict.get_set_of_ne hid⟩

/-! ## The loop -/

/-- What the turns of some members have done. -/
structure Ran (env : Setting s) (upload : LogUpload) (schedule : LogScheduleRequest)
    (s' s'' : Schedules) (done : List Text) : Prop where
  started : ∀ a ∈ done, env.starts schedule a = true →
    s''.memory.get (env.scheduleId a) = some (env.record upload schedule a) ∧
      s''.runners (env.scheduleId a) = some (runner upload schedule a)
  runners : ∀ id, (∀ a ∈ done, env.starts schedule a = true → id ≠ env.scheduleId a) →
    s''.runners id = s'.runners id
  memory : ∀ id, (∀ a ∈ done, id ≠ env.scheduleId a) → s''.memory.get id = s'.memory.get id

variable {s' : Schedules}

lemma Ran.nil : Ran env upload schedule s' s' [] :=
  ⟨fun _ h => absurd h List.not_mem_nil, fun _ _ => rfl, fun _ _ => rfl⟩

variable {s₁ s'' : Schedules} {done : List Text}

/-- A member that gets its schedule has its turn before the others. -/
lemma Ran.cons_starts (hstarts : env.starts schedule a = true) (hnew : a ∉ done)
    (h : Ran env upload schedule (env.start upload schedule s' a) s'' done) :
    Ran env upload schedule s' s'' (a :: done) := by
  have hother : ∀ b ∈ done, env.scheduleId a ≠ env.scheduleId b := fun b hb heq =>
    hnew (env.distinct heq ▸ hb)
  refine ⟨fun b hb hb' => ?_, fun id hid => ?_, fun id hid => ?_⟩
  · rcases List.mem_cons.mp hb with rfl | hmem
    · rw [h.memory _ hother, h.runners _ fun c hc _ => hother c hc]
      exact ⟨Dict.get_set_self, Function.update_self ..⟩
    · exact h.started b hmem hb'
  · rw [h.runners id fun b hb => hid b (List.mem_cons_of_mem a hb)]
    exact Function.update_of_ne (hid a List.mem_cons_self hstarts) ..
  · rw [h.memory id fun b hb => hid b (List.mem_cons_of_mem a hb)]
    exact Dict.get_set_of_ne (hid a List.mem_cons_self)

/-- A member that is passed over has its turn before the others. -/
lemma Ran.cons_passed (hstarts : env.starts schedule a = false)
    (hrunners : s₁.runners = s'.runners)
    (hmemory : ∀ id, id ≠ env.scheduleId a → s₁.memory.get id = s'.memory.get id)
    (h : Ran env upload schedule s₁ s'' done) : Ran env upload schedule s' s'' (a :: done) := by
  refine ⟨fun b hb hb' => ?_, fun id hid => ?_, fun id hid => ?_⟩
  · rcases List.mem_cons.mp hb with rfl | hmem
    · exact absurd (hb'.symm.trans hstarts) (by decide)
    · exact h.started b hmem hb'
  · rw [h.runners id fun b hb => hid b (List.mem_cons_of_mem a hb), hrunners]
  · rw [h.memory id fun b hb => hid b (List.mem_cons_of_mem a hb),
      hmemory id (hid a List.mem_cons_self)]

/-- The members before the first that is refused. -/
def reached (env : Setting s) (schedule : LogScheduleRequest) (agentIds : List Text) : List Text :=
  agentIds.takeWhile fun a => !env.refused schedule a

/-- The public record of a new schedule. -/
def made (env : Setting s) (upload : LogUpload) (schedule : LogScheduleRequest) (a : Text) :
    PublicSchedule :=
  schedulePublic (env.scheduleId a) (env.record upload schedule a)

/-- **What the loop does**: the members have their turns until one is refused, and the answer has
the schedules that were made if none is. -/
lemma scheduleEach_spec (upload : LogUpload) (schedule : LogScheduleRequest) (s' : Schedules)
    (schedules : List PublicSchedule) {agentIds : List Text}
    (hsee : ∀ a ∈ agentIds, canSee env.owners user a = true) (hnodup : agentIds.Nodup) :
    Ran env upload schedule s' (env.scheduleEach user upload schedule s' schedules agentIds).2
        (env.reached schedule agentIds) ∧
      ((∃ a ∈ agentIds, env.refused schedule a = true) →
        ∃ e, (env.scheduleEach user upload schedule s' schedules agentIds).1 = .error e) ∧
      ((∀ a ∈ agentIds, env.refused schedule a = false) →
        (env.scheduleEach user upload schedule s' schedules agentIds).1
          = .ok (schedules ++ (agentIds.filter (env.starts schedule)).map
              (env.made upload schedule))) := by
  induction agentIds generalizing s' schedules with
  | nil => exact ⟨.nil, by simp, by simp [scheduleEach]⟩
  | cons a agentIds ih =>
    obtain ⟨hseen, hseens⟩ := List.forall_mem_cons.mp hsee
    obtain ⟨hnew, hnodup⟩ := List.nodup_cons.mp hnodup
    cases hrefused : env.refused schedule a with
    | true =>
      obtain ⟨e, he⟩ := scheduleLogUpload_refused upload s' hseen hrefused
      rw [scheduleEach, he]
      refine ⟨?_, fun _ => ⟨e, rfl⟩, fun hall => ?_⟩
      · rw [reached, List.takeWhile_cons_of_neg (by simp [hrefused])]
        exact .nil
      · exact absurd ((hall a List.mem_cons_self).symm.trans hrefused) (by decide)
    | false =>
      have hreached : env.reached schedule (a :: agentIds) = a :: env.reached schedule agentIds := by
        rw [reached, List.takeWhile_cons_of_pos (by simp [hrefused]), reached]
      have hnot : a ∉ env.reached schedule agentIds := fun hmem =>
        hnew ((List.takeWhile_sublist _).subset hmem)
      have hsome : (∃ b ∈ a :: agentIds, env.refused schedule b = true) ↔
          ∃ b ∈ agentIds, env.refused schedule b = true := by simp [hrefused]
      have hnone : (∀ b ∈ a :: agentIds, env.refused schedule b = false) ↔
          ∀ b ∈ agentIds, env.refused schedule b = false := by simp [hrefused]
      rw [hreached, hsome, hnone]
      cases hstarts : env.starts schedule a with
      | true =>
        rw [scheduleEach, scheduleLogUpload_starts s' hseen hstarts]
        obtain ⟨hran, herror, hok⟩ := ih _ _ hseens hnodup
        refine ⟨hran.cons_starts hstarts hnot, herror, fun hall => (hok hall).trans ?_⟩
        rw [List.filter_cons_of_pos hstarts, List.map_cons, List.append_assoc]
        rfl
      | false =>
        have hpassed : env.passed schedule a = true := by
          rw [passed, hrefused, hstarts]
          rfl
        obtain ⟨e, s₁, he, hrunners, hmemory⟩ := scheduleLogUpload_passed upload s' hseen hpassed
        rw [scheduleEach, he]
        obtain ⟨hran, herror, hok⟩ := ih _ _ hseens hnodup
        refine ⟨hran.cons_passed hstarts hrunners hmemory, herror, fun hall => (hok hall).trans ?_⟩
        rw [List.filter_cons_of_neg (by simp [hstarts])]
        simp [couldNotSchedule, failed]

/-- What is started is started for the members that had their turn. -/
lemma Ran.started_iff {id : Text} (h : Ran env upload schedule s s'' done) :
    Started s s'' a id ↔
      (a ∈ done ∧ env.starts schedule a = true) ∧ id = env.scheduleId a := by
  constructor
  · rintro ⟨⟨-, hnone⟩, -, t, ht, hagent, -⟩
    have hmade : ∃ b ∈ done, env.starts schedule b = true ∧ id = env.scheduleId b := by
      by_contra hnot
      push Not at hnot
      rw [h.runners id hnot, hnone] at ht
      cases ht
    obtain ⟨b, hb, hstarts, rfl⟩ := hmade
    rw [(h.started b hb hstarts).2] at ht
    obtain rfl : b = a := by
      rw [← hagent, ← Option.some.inj ht]
      rfl
    exact ⟨⟨hb, hstarts⟩, rfl⟩
  · rintro ⟨⟨ha, hstarts⟩, rfl⟩
    obtain ⟨hmemory, hrunners⟩ := h.started a ha hstarts
    exact ⟨env.new a, ⟨_, hmemory, rfl, rfl⟩, ⟨_, hrunners, rfl, rfl, rfl⟩⟩

/-- A start is the step of the schedules that creates one. -/
theorem start_eq_create (hlacks : lacksDuration schedule = false) :
    env.start upload schedule s' a
      = s'.create (env.scheduleId a) a upload schedule.intervalSeconds
          (schedule.durationSeconds.map fun d => (d : ℤ)) schedule.indefinite true (env.now a) := by
  have hallowed : ¬(!true || decide ((schedule.intervalSeconds : ℤ) < 5) ||
      (!schedule.indefinite && (schedule.durationSeconds.map fun d => (d : ℤ)).all
        fun d => decide (d = 0))) = true := by
    have hbounds := schedule.interval_bounds
    have hinterval : ¬(schedule.intervalSeconds : ℤ) < 5 := by omega
    unfold lacksDuration at hlacks
    cases hduration : schedule.durationSeconds <;> simp_all
  rw [Schedules.create, if_neg hallowed, start, runner, Option.map_map]
  rfl

/-! ## All or none of a group -/

lemma reached_of_none_refused {agentIds : List Text}
    (h : ∀ a ∈ agentIds, env.refused schedule a = false) : env.reached schedule agentIds = agentIds :=
  List.takeWhile_eq_self_iff.mpr fun a ha => by rw [h a ha]; rfl

lemma passed_iff : env.passed schedule a = true ↔
    (!env.refused schedule a) = true ∧ (!env.starts schedule a) = true := by
  rw [passed, Bool.and_eq_true]

/-- Where some member is refused, nothing is started exactly if those before the first are passed
over. -/
lemma reached_idle_iff {agentIds : List Text}
    (h : ∃ a ∈ agentIds, env.refused schedule a = true) :
    (∀ a ∈ env.reached schedule agentIds, env.starts schedule a = false) ↔
      ∃ before a after, agentIds = before ++ a :: after ∧
        (∀ b ∈ before, env.passed schedule b = true) ∧ env.refused schedule a = true := by
  constructor
  · intro hidle
    have hsplit := List.takeWhile_append_dropWhile (p := fun a => !env.refused schedule a)
      (l := agentIds)
    cases hrest : agentIds.dropWhile fun a => !env.refused schedule a with
    | nil =>
      obtain ⟨a, ha, hrefused⟩ := h
      have hall := List.dropWhile_eq_nil_iff.mp hrest a ha
      exact absurd hrefused (by simpa using hall)
    | cons a after =>
      have hrefused : env.refused schedule a = true := by
        have hne : agentIds.dropWhile (fun a => !env.refused schedule a) ≠ [] := by
          rw [hrest]
          exact List.cons_ne_nil a after
        simpa [hrest] using List.head_dropWhile_not (fun a => !env.refused schedule a) hne
      refine ⟨env.reached schedule agentIds, a, after, ?_, fun b hb => ?_, hrefused⟩
      · rw [← hrest]
        exact hsplit.symm
      · rw [passed, hidle b hb, List.mem_takeWhile_imp hb]
        rfl
  · rintro ⟨before, a, after, rfl, hpassed, hrefused⟩
    have hbefore : env.reached schedule (before ++ a :: after) = before := by
      rw [reached, List.takeWhile_append_of_pos fun b hb => (passed_iff.mp (hpassed b hb)).1,
        List.takeWhile_cons_of_neg (by simp [hrefused]), List.append_nil]
    rw [hbefore]
    intro b hb
    simpa using (passed_iff.mp (hpassed b hb)).2

lemma not_started_self {id : Text} : ¬Started s s a id := by
  rintro ⟨⟨-, hnone⟩, -, t, ht, -⟩
  rw [hnone] at ht
  cases ht

/-- A request that fails before its loop starts nothing. -/
lemma allOrNone_of_fails (answer : Except Refusal (ApiResponse (List PublicSchedule)))
    (h : env.scheduleLogsToGroup user upload schedule group = (answer, s)) (hfails : Fails answer) :
    env.AllOrNone user upload schedule group := by
  refine .inr ⟨?_, fun a id => ?_⟩
  · rw [h]
    exact hfails
  · rw [h]
    exact not_started_self

/-- A loop that ends at a member. -/
lemma allOrNone_of_refused {e : Refusal} {s'' : Schedules}
    (h : env.scheduleLogsToGroup user upload schedule group = (.error e, s''))
    (hran : Ran env upload schedule s s'' (env.reached schedule (env.members user group))) :
    env.AllOrNone user upload schedule group ↔
      ∀ a ∈ env.reached schedule (env.members user group), env.starts schedule a = false := by
  unfold AllOrNone
  rw [h]
  constructor
  · rintro (⟨answer, schedules, hanswer, -⟩ | ⟨-, hnone⟩)
    · cases hanswer
    · intro a ha
      by_contra hstarts
      exact hnone a _ (hran.started_iff.mpr ⟨⟨ha, by simpa using hstarts⟩, rfl⟩)
  · intro hidle
    refine .inr ⟨fun a ha => (by cases ha), fun a id hstarted => ?_⟩
    obtain ⟨⟨ha, hstarts⟩, -⟩ := hran.started_iff.mp hstarted
    exact absurd (hstarts.symm.trans (hidle a ha)) (by decide)

/-- A loop that ends after all members. -/
lemma allOrNone_of_all {s'' : Schedules}
    (h : env.scheduleLogsToGroup user upload schedule group = (.ok (succeed
      "Log schedules created".toList (((env.members user group).filter (env.starts schedule)).map
        (env.made upload schedule))), s''))
    (hran : Ran env upload schedule s s'' (env.members user group)) :
    env.AllOrNone user upload schedule group ↔
      ∀ a ∈ env.members user group, a ∈ env.containers → env.starts schedule a = true := by
  unfold AllOrNone
  rw [h]
  constructor
  · rintro (⟨answer, schedules, -, -, -, hall⟩ | ⟨hfails, -⟩)
    · intro a ha hmem
      obtain ⟨id, hstarted, -⟩ := hall a ha hmem
      exact (hran.started_iff.mp hstarted).1.2
    · exact absurd (hfails _ rfl) (by simp [succeed])
  · intro hall
    refine .inl ⟨_, _, rfl, rfl, rfl, fun a ha hmem => ⟨env.scheduleId a, ?_, ?_, ?_⟩⟩
    · exact hran.started_iff.mpr ⟨⟨ha, hall a ha hmem⟩, rfl⟩
    · intro id' hstarted
      exact (hran.started_iff.mp hstarted).2
    · rw [List.map_map]
      exact List.mem_map.mpr ⟨a, List.mem_filter.mpr ⟨ha, hall a ha hmem⟩, rfl⟩

/-- **For which groups all members get their schedule or none**: those of which every member that
exists gets it and no member ends the loop, or the members before the first that ends it are passed
over.  A member that no longer exists after one that does leaves a schedule behind. -/
theorem allOrNone_iff (env : Setting s) (user : Option User) (upload : LogUpload)
    (schedule : LogScheduleRequest) (group : Text) :
    env.AllOrNone user upload schedule group ↔ env.Undivided user schedule group := by
  unfold Undivided
  cases hraises : env.groupRaises with
  | some e =>
    refine iff_of_true (allOrNone_of_fails _ (by rw [scheduleLogsToGroup, hraises]) ?_) (.inl rfl)
    rintro _ ⟨⟩
    rfl
  | none =>
    cases hgroup : env.groups group with
    | false =>
      refine iff_of_true (allOrNone_of_fails (.error groupNotFound) ?_ ?_)
        (.inr (.inl rfl))
      · simp [scheduleLogsToGroup, hraises, hgroup]
      · rintro _ ⟨⟩
    | true =>
      by_cases hempty : env.members user group = []
      · refine iff_of_true (allOrNone_of_fails (.ok (failed
          "No containers in group".toList "empty_group".toList)) ?_ ?_)
          (.inr (.inr (.inl (by simp [hempty]))))
        · simp [scheduleLogsToGroup, hraises, hgroup, hempty]
        · rintro _ ⟨⟩
          rfl
      · obtain ⟨hran, herror, hok⟩ := scheduleEach_spec upload schedule s []
          (fun a (ha : a ∈ env.members user group) => canSee_of_mem_members ha) nodup_members
        have hloop : env.scheduleLogsToGroup user upload schedule group
            = match env.scheduleEach user upload schedule s [] (env.members user group) with
              | (.error e, s') => (.error e, s')
              | (.ok schedules, s') => (.ok (succeed "Log schedules created".toList schedules),
                s') := by
          simp [scheduleLogsToGroup, hraises, hgroup, hempty]
        generalize env.scheduleEach user upload schedule s [] (env.members user group) = r
          at hran herror hok hloop
        obtain ⟨result, s''⟩ := r
        by_cases hrefused : ∃ a ∈ env.members user group, env.refused schedule a = true
        · obtain ⟨e, rfl⟩ := herror hrefused
          rw [allOrNone_of_refused hloop hran, reached_idle_iff hrefused]
          refine ⟨fun h => .inr (.inr (.inr h)), ?_⟩
          rintro (h | h | h | h)
          · cases h
          · cases h
          · obtain ⟨a, ha, hrefused⟩ := hrefused
            exact absurd ((h a ha).1.symm.trans hrefused) (by decide)
          · exact h
        · have hnone : ∀ a ∈ env.members user group, env.refused schedule a = false :=
            fun a ha => by simpa using fun h => hrefused ⟨a, ha, h⟩
          obtain rfl := hok hnone
          rw [reached_of_none_refused hnone] at hran
          rw [allOrNone_of_all hloop hran]
          refine ⟨fun h => .inr (.inr (.inl fun a ha => ⟨hnone a ha, h a ha⟩)), ?_⟩
          rintro (h | h | h | ⟨before, a, after, hsplit, -, h⟩)
          · cases h
          · cases h
          · exact fun a ha => (h a ha).2
          · refine absurd ⟨a, ?_, h⟩ hrefused
            rw [hsplit]
            exact List.mem_append_right _ List.mem_cons_self

/-- A group of two containers of which the second no longer exists. -/
def oneGone : Setting Schedules.start where
  license :=
    { enforced := false, serverId := [], licenseFile := none, trialStart := none, today := 0 }
  groups := fun _ => true
  agents := fun _ => [['a'], ['b']]
  nodup := fun _ => by decide
  owners := fun _ => none
  containers := [['a']]
  groupRaises := none
  listRaises := fun _ => none
  seeRaises := fun _ => none
  saveRaises := fun _ => none
  scheduleId := id
  distinct := Function.injective_id
  new := fun _ => ⟨rfl, rfl⟩
  now := fun _ => 0

def everyMinute : LogScheduleRequest where
  intervalSeconds := 60
  durationSeconds := none
  indefinite := true
  interval_bounds := by decide
  duration_bounds := fun _ h => by cases h

def aLine : LogUpload where
  content := "x".toList
  destinationPath := "/var/log/x.log".toList
  append := true

/-- The request fails, and the first container has its schedule. -/
theorem oneGone_not_allOrNone : ¬oneGone.AllOrNone none aLine everyMinute ['g'] := by
  have hresult : (oneGone.scheduleLogsToGroup none aLine everyMinute ['g']).1
      = .error (logTargetNotFound ['b']) := rfl
  have hstarted : Started Schedules.start
      (oneGone.scheduleLogsToGroup none aLine everyMinute ['g']).2 ['a'] ['a'] :=
    ⟨⟨rfl, rfl⟩, ⟨_, rfl, rfl, rfl⟩, ⟨_, rfl, rfl, rfl, rfl⟩⟩
  rintro (⟨answer, schedules, hanswer, -⟩ | ⟨-, hnone⟩)
  · rw [hresult] at hanswer
    cases hanswer
  · exact hnone _ _ hstarted

end Setting

end Habeny.Logs
