import Habeny.Agents.Membership
import Habeny.Lib.Confined
import Habeny.Logs.Schedules
import Habeny.Requests.Serve
import Habeny.Simulations.Status

/-!
# What a team's requests change

The requests of a user who is no administrator: on containers, on their logs, for simulations, and
on the members of groups; and the stops of simulations and of log schedules.  Each endpoint looks
for itself which containers the user can see.

A container is known by its name.  A request changes only containers that its user can see when it
is made, and the jobs that it starts are for such containers only (`request_isolated`).  A
simulation has a team of its own; the team of a log schedule is that of its container.
-/

namespace Habeny.Requests

open Habeny.Lib Habeny.Auth Habeny.Tenancy Habeny.Agents Habeny.Simulations

variable (s : Setup) (user : Option User)

/-! ## The members of groups -/

/-- What an endpoint for the members of a group answers. -/
structure GroupAnswer where
  message : Text
  group : Text
  changed : ℕ
  invalid : List Text

/-- How many rows an update by names changes, one name after the other. -/
def liveRows (store : Store) (names : List Text) : ℕ :=
  names.countP fun n => (store.rows n).any Row.isLive

/-- The machine with a row for a container. -/
def Machine.withRow (m : Machine) (now : Text) (name : Text) : Machine :=
  { m with
    store := (getOrCreateAgentSeqId m.store name now).1
    known := if name ∈ m.known then m.known else m.known ++ [name] }

/-- Assign containers to a group. -/
def assignGroupAgents (group : Text) (ids : List Text) : Handler GroupAnswer := do
  let m ← look
  if !m.store.groups group then Prog.fail groupNotFound
  else
    let existing := visible m.store.owners user m.containers
    let valid := ids.filter fun n => decide (n ∈ existing)
    let invalid := ids.filter fun n => decide (n ∉ existing)
    let updated ← Prog.take fun m =>
      let m := valid.foldl (fun m n => m.withRow s.now n) m
      (liveRows m.store valid, { m with store := assignAgentsToGroup m.store group valid })
    Prog.ret
      { message := "Assigned ".toList ++ number updated ++ " containers to ".toList ++ group,
        group, changed := updated, invalid }

/-- Remove containers from a group. -/
def removeGroupAgents (group : Text) (ids : List Text) : Handler GroupAnswer := do
  let m ← look
  if !m.store.groups group then Prog.fail groupNotFound
  else
    let members := visible m.store.owners user ids
    let updated ← Prog.take fun m =>
      (liveRows m.store members, { m with store := removeAgentsFromGroup m.store members })
    Prog.ret
      { message := "Removed ".toList ++ number updated ++ " containers from ".toList ++ group,
        group, changed := updated, invalid := [] }

lemma foldl_withRow_store (now : Text) (names : List Text) (m : Machine) :
    (names.foldl (fun m n => m.withRow now n) m).store =
      names.foldl (fun store n => (getOrCreateAgentSeqId store n now).1) m.store := by
  induction names generalizing m with
  | nil => rfl
  | cons name names ih => exact ih (m.withRow now name)

/-- The endpoints are the operations on the fleet. -/
lemma assignGroupAgents_store (group : Text) (ids : List Text) (m : Machine) :
    (assignGroupAgents s user group ids m).env.store =
      (Fleet.assign ⟨m.store, m.containers⟩ user group ids s.now).store := by
  cases hgroup : m.store.groups group with
  | false =>
    simp only [assignGroupAgents, Prog.bind_apply, Prog.andThen, look, Prog.take, hgroup,
      Fleet.assign]
    rfl
  | true =>
    simp only [assignGroupAgents, Prog.bind_apply, Prog.andThen, look, Prog.take, hgroup,
      Fleet.assign, if_true, ← foldl_withRow_store]
    rfl

lemma removeGroupAgents_store (group : Text) (ids : List Text) (m : Machine) :
    (removeGroupAgents user group ids m).env.store =
      (Fleet.remove ⟨m.store, m.containers⟩ user group ids).store := by
  cases hgroup : m.store.groups group with
  | false =>
    simp only [removeGroupAgents, Prog.bind_apply, Prog.andThen, look, Prog.take, hgroup,
      Fleet.remove]
    rfl
  | true =>
    simp only [removeGroupAgents, Prog.bind_apply, Prog.andThen, look, Prog.take, hgroup,
      Fleet.remove]
    rfl

/-! ## Stopping simulations and schedules -/

/-- What a stop reads of the record of a simulation, and what it writes. -/
structure SimulationRecord where
  teamId : Option ℕ
  status : SimulationStatus
  stoppedAt : Option Text

abbrev SimulationRecords := Text → Option SimulationRecord

def statusText : SimulationStatus → Text
  | .running => "running".toList
  | .completed => "completed".toList
  | .failed => "failed".toList
  | .stopped => "stopped".toList
  | .interrupted => "interrupted".toList

def simulationNotFound (id : Text) : Refusal :=
  .http 404 ("Simulation ".toList ++ id ++ " not found".toList)

/-- Stop a running simulation. -/
def stopSimulation (id now : Text) (sims : SimulationRecords) :
    Except Refusal Answer × SimulationRecords :=
  match sims id with
  | none => (.error (simulationNotFound id), sims)
  | some r =>
    if !sameTeam user r.teamId then (.error (simulationNotFound id), sims)
    else if r.status ≠ .running then
      (.ok ⟨false, "Simulation is not running (status: ".toList ++ statusText r.status ++ [')'],
        none, .none⟩, sims)
    else
      (.ok (succeeded ("Simulation ".toList ++ id ++ " stopped".toList)),
        Function.update sims id (some { r with status := .stopped, stoppedAt := some now }))

def scheduleNotFound : Refusal := .http 404 "Schedule not found".toList

/-- Stop a scheduled log upload. -/
def stopLogSchedule (owners : Owners) (id : Text) (schedules : Logs.Schedules) :
    Except Refusal Answer × Logs.Schedules :=
  match schedules.memory.get id with
  | none => (.error scheduleNotFound, schedules)
  | some r =>
    if !canSee owners user r.agentId then (.error scheduleNotFound, schedules)
    else (.ok (succeeded "Schedule stopped".toList), schedules.stop id true)

/-! ## The requests -/

/-- A request to one of the endpoints. -/
inductive TeamRequest where
  | start (name : Text)
  | stop (name : Text)
  | delete (name : Text)
  | bulk (operation : Text) (names : List Text)
  | bulkGroup (group operation : Text)
  | upload (name : Text) (req : LogUploadRequest)
  | uploadToGroup (group : Text)
  | schedule (name : Text) (req : LogScheduleRequest)
  | scheduleForGroup (group : Text) (req : LogScheduleRequest)
  | simulate (req : SimulationRequest)
  | simulateLogs (req : CustomLogRequest)
  | assign (group : Text) (ids : List Text)
  | remove (group : Text) (ids : List Text)

/-- Serve a request; what it answers is left out. -/
def TeamRequest.serve : TeamRequest → Handler Unit
  | .start name => do let _ ← withRoot s (startAgent s user name)
  | .stop name => do let _ ← withRoot s (stopAgent s user name)
  | .delete name => do let _ ← withRoot s (deleteAgent s user name)
  | .bulk operation names => do let _ ← withRoot s (bulkAgentOperation s user operation names)
  | .bulkGroup group operation => do let _ ← bulkGroupOperation s user group operation
  | .upload name req => do let _ ← uploadLogsToAgent s user name req
  | .uploadToGroup group => do let _ ← uploadLogsToGroup s user group
  | .schedule name req => do let _ ← scheduleLogUpload s user name req
  | .scheduleForGroup group req => do let _ ← scheduleLogsToGroup s user group req
  | .simulate req => do let _ ← startSimulation s user req
  | .simulateLogs req => do let _ ← loadSimulation s user req
  | .assign group ids => do let _ ← assignGroupAgents s user group ids
  | .remove group ids => do let _ ← removeGroupAgents user group ids

/-! ## What may change -/

/-- A deed is for some containers only: the containers that it operates on, or in which it or the
job that it starts writes files. -/
def Deed.Within (V : Text → Prop) : Deed → Prop
  | .simulation targets => ∀ n ∈ targets, V n
  | .logUpload n | .logSchedule n | .start n | .stop n | .delete n => V n
  -- these make containers
  | .deployment _ | .benchmark _ => False

/-- A container is as it was: whether it exists and runs, its owner, and its row, which has its
group. -/
structure SameContainer (m₀ m : Machine) (n : Text) : Prop where
  running : m.running n = m₀.running n
  exists_iff : n ∈ m.containers ↔ n ∈ m₀.containers
  owner : m.store.owners n = m₀.store.owners n
  row : m.store.rows n = m₀.store.rows n

/-- All other containers are as they were. -/
def Untouched (V : Text → Prop) (m₀ m : Machine) : Prop := ∀ n, ¬V n → SameContainer m₀ m n

/-- A program that operates on some containers only. -/
abbrev Stays {α : Type} (V : Text → Prop) (m₀ : Machine) (p : Handler α) : Prop :=
  Confined (Untouched V m₀) (Deed.Within V) p fun _ => True

/-- The containers that a user can see on a machine. -/
def Sees (user : Option User) (m : Machine) (n : Text) : Prop :=
  canSee m.store.owners user n = true

lemma canSee_iff {owners : Owners} {user : Option User} {n : Text} :
    canSee owners user n = true ↔
      isUnrestricted user = true ∨ owners.teamOf n = teamOf user := by
  unfold canSee visible
  by_cases h : isUnrestricted user = true
  · simp [h]
  · by_cases hteam : owners.teamOf n = teamOf user <;> simp [h, hteam]

lemma mem_visible {owners : Owners} {user : Option User} {names : List Text} {n : Text} :
    n ∈ visible owners user names ↔ n ∈ names ∧ canSee owners user n = true := by
  rw [canSee_iff]
  unfold visible
  by_cases h : isUnrestricted user = true
  · simp [h]
  · simp [h]

variable {s user} {m₀ : Machine} {V : Text → Prop}

lemma Untouched.refl : Untouched V m₀ m₀ := fun _ _ => ⟨rfl, Iff.rfl, rfl, rfl⟩

/-- A container that the user sees later was one that the user saw, as no other has a new owner. -/
lemma Untouched.sees {m : Machine} (h : Untouched (Sees user m₀) m₀ m) {n : Text}
    (hn : canSee m.store.owners user n = true) : Sees user m₀ n := by
  by_contra hnot
  have howner := (h n hnot).owner
  refine hnot (canSee_iff.mpr ?_)
  rwa [canSee_iff, Owners.teamOf, howner] at hn

/-- A change of some containers leaves the others. -/
lemma Untouched.change {m : Machine} (h : Untouched V m₀ m) {m' : Machine}
    (hm' : ∀ n, ¬V n → SameContainer m m' n) : Untouched V m₀ m' := fun n hn =>
  { running := (hm' n hn).running.trans (h n hn).running
    exists_iff := (hm' n hn).exists_iff.trans (h n hn).exists_iff
    owner := (hm' n hn).owner.trans (h n hn).owner
    row := (hm' n hn).row.trans (h n hn).row }

/-! ## The parts of the programs -/

lemma look_stays : Confined (Untouched V m₀) (Deed.Within V) look (Untouched V m₀) :=
  Confined.take fun _ hm => ⟨hm, hm⟩

lemma emit_stays {d : Deed} (h : d.Within V) : Stays V m₀ (Prog.emit d : Handler Unit) :=
  Confined.emit h trivial

lemma take_stays {α : Type} {f : Machine → α × Machine}
    (h : ∀ m, Untouched V m₀ m → Untouched V m₀ (f m).2) : Stays V m₀ (Prog.take f) :=
  Confined.take fun m hm => ⟨h m hm, trivial⟩

lemma ofExcept_confined {α : Type} {x : Except Refusal α} {post : α → Prop}
    (h : ∀ a, x = .ok a → post a) :
    Confined (Untouched V m₀) (Deed.Within V) (ofExcept x) post := by
  cases x with
  | ok a => exact Confined.ret (h a rfl)
  | error e => exact Confined.fail

lemma requireLicense_stays (adding existing : ℕ) : Stays V m₀ (requireLicense s adding existing) :=
  ofExcept_confined fun _ _ => trivial

lemma checkRoot_stays : Stays V m₀ (checkRoot s) := by
  unfold checkRoot
  split_ifs
  · exact Confined.ret trivial
  · exact Confined.fail

lemma withRoot_stays {p : Handler Answer} (hp : Stays V m₀ p) : Stays V m₀ (withRoot s p) :=
  Confined.bind checkRoot_stays fun _ _ => hp

/-- A container runs or no longer does. -/
lemma setRunning_same {m : Machine} {name n : Text} (hne : n ≠ name) (running : Bool) :
    SameContainer m (m.setRunning name running) n :=
  ⟨Function.update_of_ne hne _ _, Iff.rfl, rfl, rfl⟩

lemma ne_of_sees {name n : Text} (hname : V name) (hn : ¬V n) : n ≠ name := by
  rintro rfl
  exact hn hname

lemma lxcStart_stays {name : Text} (hname : V name) : Stays V m₀ (lxcStart s name) := by
  refine Confined.bind (emit_stays hname) fun _ _ => take_stays fun m hm => ?_
  split_ifs
  · exact hm.change fun n hn => setRunning_same (ne_of_sees hname hn) true
  · exact hm

lemma lxcShutdown_stays {name : Text} (hname : V name) : Stays V m₀ (lxcShutdown s name) := by
  refine Confined.bind (emit_stays hname) fun _ _ => take_stays fun m hm => ?_
  split_ifs
  · exact hm.change fun n hn => setRunning_same (ne_of_sees hname hn) false
  · exact hm

lemma lxcStop_stays {name : Text} (hname : V name) : Stays V m₀ (lxcStop s name) := by
  refine Confined.bind (emit_stays hname) fun _ _ => take_stays fun m hm => ?_
  dsimp only
  split_ifs
  · exact hm.change fun n hn => setRunning_same (ne_of_sees hname hn) false
  · exact hm

lemma shutdownOrStop_stays {name : Text} (hname : V name) :
    Stays V m₀ (shutdownOrStop s name) := by
  refine Confined.bind (lxcShutdown_stays hname) fun down _ => ?_
  cases down with
  | true => exact Confined.ret trivial
  | false => exact lxcStop_stays hname

lemma whenRunning_stays {p : Handler Unit} (hp : Stays V m₀ p) (m : Machine) (name : Text) :
    Stays V m₀ (whenRunning m name p) := by
  unfold whenRunning
  split_ifs
  · exact hp
  · exact Confined.ret trivial

lemma lxcDestroy_stays {name : Text} (hname : V name) : Stays V m₀ (lxcDestroy s name) := by
  refine Confined.bind (emit_stays hname) fun _ _ => take_stays fun m hm => ?_
  split_ifs
  · refine hm.change fun n hn => ⟨rfl, ?_, rfl, rfl⟩
    simp [ne_of_sees hname hn]
  · exact hm

lemma deleteAgentMetadata_stays {name : Text} (hname : V name) :
    Stays V m₀ (deleteAgentMetadata s name) := by
  refine take_stays fun m hm => hm.change fun n hn => ?_
  have hne := ne_of_sees hname hn
  exact ⟨rfl, Iff.rfl, by simp [forget, hne], Function.update_of_ne hne _ _⟩

lemma destroy_stays {name : Text} (hname : V name) : Stays V m₀ (destroy s name) := by
  refine Confined.bind (lxcDestroy_stays hname) fun success _ => ?_
  cases success with
  | true =>
    exact Confined.bind (deleteAgentMetadata_stays hname) fun _ _ => Confined.ret trivial
  | false => exact Confined.ret trivial

lemma bulkStep_stays (operation : Operation) {name : Text} (hname : V name) :
    Stays V m₀ (bulkStep s operation name) := by
  refine Confined.bind look_stays fun m _ => ?_
  cases operation with
  | start =>
    dsimp only
    split_ifs
    · exact Confined.ret trivial
    · exact lxcStart_stays hname
  | stop =>
    dsimp only
    split_ifs
    · exact lxcShutdown_stays hname
    · exact Confined.ret trivial
  | delete =>
    refine Confined.bind (whenRunning_stays (lxcStop_stays hname) m name) fun _ _ => ?_
    exact destroy_stays hname

lemma bulkOne_stays (operation : Operation) {existing : List Text}
    (hexisting : ∀ n ∈ existing, V n) (name : Text) :
    Stays V m₀ (bulkOne s operation existing name) := by
  unfold bulkOne
  split_ifs with hmem
  · have hname := hexisting name hmem
    exact Confined.bind (bulkStep_stays operation hname) fun _ _ => Confined.ret trivial
  · exact Confined.ret trivial

lemma performLogUpload_stays {name : Text} (hname : V name) :
    Stays V m₀ (performLogUpload s name) :=
  Confined.bind (emit_stays hname) fun _ _ => Confined.ret trivial

lemma uploadToMember_stays {existing : List Text} {name : Text} (hname : V name) :
    Stays V m₀ (uploadToMember s existing name) := by
  unfold uploadToMember
  split_ifs
  · refine Confined.bind (performLogUpload_stays hname) fun result _ => ?_
    cases result with
    | ok u => exact Confined.ret trivial
    | error stderr => exact Confined.ret trivial
  · exact Confined.ret trivial

lemma startOn_stays {targets : List Text} (htargets : ∀ n ∈ targets, V n) (message : Text) :
    Stays V m₀ (startOn s targets message) :=
  Confined.bind (emit_stays htargets) fun _ _ => Confined.ret trivial

/-! ## The endpoints -/

lemma onVisible_stays {name : Text} {p : Machine → Handler Answer}
    (hp : ∀ m, Sees user m₀ name → Stays (Sees user m₀) m₀ (p m)) :
    Stays (Sees user m₀) m₀ (onVisible user name p) := by
  refine Confined.bind look_stays fun m hm => ?_
  split_ifs with hvisible
  · rw [visibleContainer, Bool.and_eq_true] at hvisible
    exact hp m (hm.sees hvisible.2)
  · exact Confined.fail

lemma onGroup_stays {group : Text} {p : Machine → List Text → Handler Answer}
    (hp : ∀ m members, (∀ n ∈ members, Sees user m₀ n) → Stays (Sees user m₀) m₀ (p m members)) :
    Stays (Sees user m₀) m₀ (onGroup user group p) := by
  refine Confined.bind look_stays fun m hm => ?_
  dsimp only
  split_ifs
  · exact Confined.fail
  · exact Confined.ret trivial
  · exact hp m _ fun n hn => hm.sees (mem_visible.mp hn).2

lemma startAgent_stays (name : Text) : Stays (Sees user m₀) m₀ (startAgent s user name) := by
  refine onVisible_stays fun m hname => ?_
  split_ifs
  · exact Confined.ret trivial
  · exact Confined.bind (lxcStart_stays hname) fun _ _ => Confined.ret trivial

lemma stopAgent_stays (name : Text) : Stays (Sees user m₀) m₀ (stopAgent s user name) := by
  refine onVisible_stays fun m hname => ?_
  split_ifs
  · exact Confined.bind (shutdownOrStop_stays hname) fun _ _ => Confined.ret trivial
  · exact Confined.ret trivial

lemma deleteAgent_stays (name : Text) : Stays (Sees user m₀) m₀ (deleteAgent s user name) := by
  refine onVisible_stays fun m hname => ?_
  refine Confined.bind (whenRunning_stays (shutdownOrStop_stays hname) m name) fun _ _ => ?_
  exact Confined.bind (destroy_stays hname) fun _ _ => Confined.ret trivial

lemma bulkAgentOperation_stays (operation : Text) (names : List Text) :
    Stays (Sees user m₀) m₀ (bulkAgentOperation s user operation names) := by
  unfold bulkAgentOperation
  cases Operation.ofText? operation with
  | none => exact Confined.fail
  | some op =>
    refine Confined.bind look_stays fun m hm => ?_
    refine Confined.bind (Confined.forEach fun name _ => ?_) fun _ _ => Confined.ret trivial
    exact bulkOne_stays op (fun n hn => hm.sees (mem_visible.mp hn).2) name

lemma bulkGroupOperation_stays (group operation : Text) :
    Stays (Sees user m₀) m₀ (bulkGroupOperation s user group operation) := by
  unfold bulkGroupOperation
  cases Operation.ofText? operation with
  | none => exact Confined.fail
  | some op => exact onGroup_stays fun _ members _ => bulkAgentOperation_stays operation members

lemma uploadLogsToAgent_stays (name : Text) (req : LogUploadRequest) :
    Stays (Sees user m₀) m₀ (uploadLogsToAgent s user name req) := by
  refine Confined.bind (requireLicense_stays 0 0) fun _ _ => ?_
  refine Confined.bind look_stays fun m hm => ?_
  split_ifs with hvisible
  · exact Confined.fail
  · rw [Bool.not_eq_true, Bool.not_eq_false', visibleContainer, Bool.and_eq_true] at hvisible
    refine Confined.bind (performLogUpload_stays (hm.sees hvisible.2)) fun result _ => ?_
    cases result with
    | ok u => exact Confined.ret trivial
    | error stderr => exact Confined.ret trivial

lemma uploadLogsToGroup_stays (group : Text) :
    Stays (Sees user m₀) m₀ (uploadLogsToGroup s user group) :=
  onGroup_stays fun _ _ hmembers =>
    Confined.bind (Confined.forEach fun name hname => uploadToMember_stays (hmembers name hname))
      fun _ _ => Confined.ret trivial

lemma checkSchedule_visible {m : Machine} {name : Text} {req : LogScheduleRequest}
    (h : checkSchedule user m name req = .ok ()) : canSee m.store.owners user name = true := by
  unfold checkSchedule at h
  split_ifs at h with hvisible
  rw [Bool.not_eq_true, Bool.not_eq_false', visibleContainer, Bool.and_eq_true] at hvisible
  exact hvisible.2

lemma scheduleLogUpload_stays (name : Text) (req : LogScheduleRequest) :
    Stays (Sees user m₀) m₀ (scheduleLogUpload s user name req) := by
  refine Confined.bind (requireLicense_stays 0 0) fun _ _ => ?_
  refine Confined.bind look_stays fun m hm => ?_
  refine Confined.bind (ofExcept_confined fun u hu => hm.sees (checkSchedule_visible hu))
    fun _ hname => ?_
  exact Confined.bind (emit_stays hname) fun _ _ => Confined.ret trivial

lemma scheduleLogsToGroup_stays (group : Text) (req : LogScheduleRequest) :
    Stays (Sees user m₀) m₀ (scheduleLogsToGroup s user group req) :=
  onGroup_stays fun _ _ _ =>
    Confined.bind (Confined.forEach fun name _ => scheduleLogUpload_stays name req)
      fun _ _ => Confined.ret trivial

/-- A simulation is for containers that the user sees. -/
lemma selectAgents_visible {m : Machine} {sel : AgentSelector} {n : Text}
    (h : n ∈ selectAgents s user m sel) : canSee m.store.owners user n = true := by
  have hselected : ∀ n ∈ (visible m.store.owners user m.containers).filter (sel.matches m),
      canSee m.store.owners user n = true := fun n hn =>
    (mem_visible.mp (List.mem_of_mem_filter hn)).2
  unfold selectAgents at h
  cases hcount : sel.count with
  | none =>
    simp only [hcount] at h
    exact hselected n h
  | some k =>
    simp only [hcount] at h
    exact hselected n (s.sampler.sample_subset _ _ h)

lemma startSimulation_stays (req : SimulationRequest) :
    Stays (Sees user m₀) m₀ (startSimulation s user req) := by
  refine Confined.bind (requireLicense_stays 0 0) fun _ _ => ?_
  split
  · exact Confined.fail
  · refine Confined.bind look_stays fun m hm => ?_
    dsimp only
    split_ifs
    · exact Confined.fail
    · exact Confined.fail
    · exact startOn_stays (fun n hn => hm.sees (selectAgents_visible hn)) _

lemma loadSimulation_stays (req : CustomLogRequest) :
    Stays (Sees user m₀) m₀ (loadSimulation s user req) := by
  refine Confined.bind (requireLicense_stays 0 0) fun _ _ => ?_
  refine Confined.bind look_stays fun m hm => ?_
  dsimp only
  split_ifs
  · exact Confined.fail
  · exact Confined.fail
  · exact startOn_stays (fun n hn => hm.sees (selectAgents_visible hn)) _

lemma withRow_same {m : Machine} {now name n : Text} (hne : n ≠ name) :
    SameContainer m (m.withRow now name) n :=
  ⟨rfl, Iff.rfl, by simp [Machine.withRow], getOrCreateAgentSeqId_rows_of_ne hne now⟩

lemma Untouched.withRows {m : Machine} (h : Untouched V m₀ m) (now : Text) {names : List Text}
    (hnames : ∀ n ∈ names, V n) :
    Untouched V m₀ (names.foldl (fun m n => m.withRow now n) m) := by
  induction names generalizing m with
  | nil => exact h
  | cons name names ih =>
    rw [List.forall_mem_cons] at hnames
    exact ih (h.change fun n hn => withRow_same (ne_of_sees hnames.1 hn)) hnames.2

lemma foldl_updateWhere_owners (cond : Text → Text → Row → Bool) (set : Row → Row)
    (names : List Text) (store : Store) :
    (names.foldl (fun s name => updateWhere s (cond name) set) store).owners = store.owners := by
  induction names generalizing store with
  | nil => rfl
  | cons name names ih => exact ih _

/-- An update of the rows of some containers leaves the others. -/
lemma Untouched.setGroups {m : Machine} (h : Untouched V m₀ m) (v : Value) {names : List Text}
    (hnames : ∀ n ∈ names, V n) :
    Untouched V m₀ { m with store := names.foldl (fun s name =>
      updateWhere s (fun n row => decide (n = name) && row.isLive) (Row.withGroup v)) m.store } := by
  refine h.change fun n hn => ⟨rfl, Iff.rfl, ?_, ?_⟩
  · exact congrFun (foldl_updateWhere_owners _ _ names m.store) n
  · have hmem : n ∉ names := fun hmem => hn (hnames n hmem)
    simp [foldl_withGroup_rows, hmem]

lemma assignGroupAgents_stays (group : Text) (ids : List Text) :
    Stays (Sees user m₀) m₀ (assignGroupAgents s user group ids) := by
  refine Confined.bind look_stays fun m hm => ?_
  dsimp only
  split_ifs
  · exact Confined.fail
  · have hvalid : ∀ n ∈ ids.filter fun n => decide (n ∈ visible m.store.owners user m.containers),
        Sees user m₀ n := fun n hn =>
      hm.sees (mem_visible.mp (of_decide_eq_true (List.mem_filter.mp hn).2)).2
    refine Confined.bind (take_stays fun m' hm' => ?_) fun _ _ => Confined.ret trivial
    exact (hm'.withRows s.now hvalid).setGroups (.text group) hvalid

lemma removeGroupAgents_stays (group : Text) (ids : List Text) :
    Stays (Sees user m₀) m₀ (removeGroupAgents user group ids) := by
  refine Confined.bind look_stays fun m hm => ?_
  dsimp only
  split_ifs
  · exact Confined.fail
  · refine Confined.bind (take_stays fun m' hm' => ?_) fun _ _ => Confined.ret trivial
    exact hm'.setGroups .null fun n hn => hm.sees (mem_visible.mp hn).2

/-- Every request stays with the containers that its user sees when it is made. -/
lemma serve_stays (r : TeamRequest) : Stays (Sees user m₀) m₀ (r.serve s user) := by
  have hunit : ∀ {α : Type} {p : Handler α}, Stays (Sees user m₀) m₀ p →
      Stays (Sees user m₀) m₀ (do let _ ← p) := fun hp =>
    Confined.bind hp fun _ _ => Confined.ret trivial
  cases r with
  | start name => exact hunit (withRoot_stays (startAgent_stays name))
  | stop name => exact hunit (withRoot_stays (stopAgent_stays name))
  | delete name => exact hunit (withRoot_stays (deleteAgent_stays name))
  | bulk operation names => exact hunit (withRoot_stays (bulkAgentOperation_stays operation names))
  | bulkGroup group operation => exact hunit (bulkGroupOperation_stays group operation)
  | upload name req => exact hunit (uploadLogsToAgent_stays name req)
  | uploadToGroup group => exact hunit (uploadLogsToGroup_stays group)
  | schedule name req => exact hunit (scheduleLogUpload_stays name req)
  | scheduleForGroup group req => exact hunit (scheduleLogsToGroup_stays group req)
  | simulate req => exact hunit (startSimulation_stays req)
  | simulateLogs req => exact hunit (loadSimulation_stays req)
  | assign group ids => exact hunit (assignGroupAgents_stays group ids)
  | remove group ids => exact hunit (removeGroupAgents_stays group ids)

/-! ## Stops -/

lemma sameTeam_of_stopSimulation {id now id' : Text} {sims : SimulationRecords}
    (h : (stopSimulation user id now sims).2 id' ≠ sims id') :
    ∃ r, sims id' = some r ∧ sameTeam user r.teamId = true := by
  unfold stopSimulation at h
  cases hid : sims id with
  | none =>
    rw [hid] at h
    exact absurd rfl h
  | some r =>
    simp only [hid] at h
    split_ifs at h with hteam hstatus
    · exact absurd rfl h
    · exact absurd rfl h
    · by_cases heq : id' = id
      · subst heq
        exact ⟨r, hid, by simpa using hteam⟩
      · exact absurd (Function.update_of_ne heq _ _) h

/-- A schedule of which the record or the runner changes. -/
def ScheduleChanges (before after : Logs.Schedules) (id : Text) : Prop :=
  after.memory.get id ≠ before.memory.get id ∨ after.runners id ≠ before.runners id

lemma canSee_of_stopLogSchedule {owners : Owners} {id id' : Text} {schedules : Logs.Schedules}
    (h : ScheduleChanges schedules (stopLogSchedule user owners id schedules).2 id') :
    ∃ r, schedules.memory.get id' = some r ∧ canSee owners user r.agentId = true := by
  unfold stopLogSchedule at h
  cases hid : schedules.memory.get id with
  | none =>
    rw [hid] at h
    exact absurd h (by simp [ScheduleChanges])
  | some r =>
    simp only [hid] at h
    split_ifs at h with hsees
    · exact absurd h (by simp [ScheduleChanges])
    · by_cases heq : id' = id
      · subst heq
        exact ⟨r, hid, by simpa using hsees⟩
      · refine absurd h ?_
        simp [ScheduleChanges, Logs.Schedules.stop, hid, Logs.Schedules.cancel, heq]

/-! ## Isolation -/

/-- A user who is no administrator. -/
abbrev Member := {u : User // u.role ≠ .admin}

lemma Member.restricted (u : Member) : isUnrestricted (some u.1) = false :=
  decide_eq_false u.2

/-- A member sees the containers that are recorded for the same team. -/
lemma Member.sees_iff {u : Member} {owners : Owners} {n : Text} :
    canSee owners (some u.1) n = true ↔ owners.teamOf n = u.1.teamId := by
  rw [canSee_iff, u.restricted]
  simp [teamOf]

lemma Member.sameTeam_iff {u : Member} {team : Option ℕ} :
    sameTeam (some u.1) team = true ↔ team = u.1.teamId := by
  rw [sameTeam, u.restricted, Bool.false_or, decide_eq_true_eq, eq_comm]
  rfl

end Habeny.Requests
