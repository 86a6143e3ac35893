import Habeny.Requests.Basic

/-!
# Viewing and managing containers

Listing containers, looking at one, starting, stopping and deleting them, one by one, by a list
of names or by group.  None of these programs reads the licence: they are quiet, and their
refusals are of a kind of their own.
-/

namespace Habeny.Requests

open Habeny.Lib Habeny.Auth Habeny.Tenancy Habeny.Agents

variable (s : Setup) (user : Option User)

/-! ## Texts -/

/-- A text around a container's name. -/
def about (before name after : Text) : Text := before ++ '\'' :: name ++ '\'' :: after

def containerNotFound (name : Text) : Refusal :=
  .http 404 (about "Container ".toList name " not found".toList)

def invalidOperation (operation : Text) : Refusal :=
  .http 400 ("Invalid operation: ".toList ++ operation)

def succeeded (message : Text) : Answer := ⟨true, message, none, .none⟩

/-! ## LXC -/

/-- The containers, once one of them runs or no longer does. -/
def Machine.setRunning (m : Machine) (name : Text) (running : Bool) : Machine :=
  { m with running := Function.update m.running name running }

def lxcStart (name : Text) : Handler Bool := do
  Prog.emit (.start name)
  Prog.take fun m =>
    if s.lxc.start name then (true, m.setRunning name true) else (false, m)

def lxcShutdown (name : Text) : Handler Bool := do
  Prog.emit (.stop name)
  Prog.take fun m =>
    if s.lxc.shutdown name then (true, m.setRunning name false) else (false, m)

def lxcStop (name : Text) : Handler Unit := do
  Prog.emit (.stop name)
  change fun m => if s.lxc.stop name then m.setRunning name false else m

/-- Destroy a container; one that runs cannot be destroyed. -/
def lxcDestroy (name : Text) : Handler Bool := do
  Prog.emit (.delete name)
  Prog.take fun m =>
    if name ∈ m.containers ∧ m.running name = false ∧ s.lxc.destroy name = true then
      (true, { m with containers := m.containers.filter fun n => decide (n ≠ name) })
    else (false, m)

/-- Shut a container down, and stop it when that fails. -/
def shutdownOrStop (name : Text) : Handler Unit := do
  let down ← lxcShutdown s name
  if down then Prog.ret () else lxcStop s name

def whenRunning (m : Machine) (name : Text) (p : Handler Unit) : Handler Unit :=
  if m.running name then p else Prog.ret ()

/-- Mark the row of a container as deleted. -/
def Row.markDeleted (row : Row) (now : Text) : Row :=
  row.overwrite fun c =>
    match c with
    | .deletedAt => some (.text now)
    | .syslogListener => some .null
    | _ => none

/-- Mark the metadata of a container as deleted and forget its owner. -/
def deleteAgentMetadata (name : Text) : Handler Unit :=
  change fun m =>
    { m with
      store :=
        { m.store with
          rows := Function.update m.store.rows name
            ((m.store.rows name).map fun row => Row.markDeleted row s.now)
          owners := forget m.store.owners [name] } }

/-! ## Viewing -/

/-- What the filters of a listing read of a container. -/
structure AgentInfo where
  siemType : Option Value
  status : Text
  agentGroup : Option Value

/-- A value of the metadata that is there and is not null. -/
def Metadata.get (metadata : Metadata) (c : Column) : Option Value :=
  (metadata.field c).filter fun v => decide (v ≠ .null)

/-- What is known about a container: the SIEM that its configuration names counts before the
stored one, and that before the one it reports while it runs. -/
def getAgentInfo (m : Machine) (name : Text) : AgentInfo :=
  let metadata := readAgentMetadata m.store name
  let reported := if m.running name then s.reportedSiem name else none
  { siemType := ((s.configSiem name).map Value.text).or
      ((Metadata.get metadata .siemType).or (reported.map Value.text)),
    status := if m.running name then "running".toList else "stopped".toList,
    agentGroup := Metadata.get metadata .agentGroup }

/-- The filters and the page of a listing; a page has at least one place. -/
structure ListQuery where
  siemType : Option Text
  status : Option Text
  agentGroup : Option Text
  limit : ℕ
  offset : ℕ
  limit_pos : 1 ≤ limit

/-- Whether a filter that is given is met. -/
def filterMet (wanted : Option Text) (value : Option Value) : Bool :=
  !Deploy.given wanted || decide (value = some (.ofText wanted))

def ListQuery.matches (q : ListQuery) (info : AgentInfo) : Bool :=
  filterMet q.siemType info.siemType && filterMet q.status (some (.text info.status))
    && filterMet q.agentGroup info.agentGroup

/-- List the containers a user can see. -/
def listAgents (q : ListQuery) : Handler Answer := do
  let m ← look
  let all := (visible m.store.owners user m.containers).filter fun n =>
    q.matches (getAgentInfo s m n)
  let page := (all.drop q.offset).take q.limit
  Prog.ret
    { success := true,
      message := "Retrieved ".toList ++ number page.length ++ " containers".toList,
      error := none,
      data := .agents page all.length q.limit q.offset
        (decide (q.offset + q.limit < all.length)) }

/-- Container totals. -/
def getAgentsStats : Handler Answer := do
  let m ← look
  let names := visible m.store.owners user m.containers
  let running := names.countP m.running
  Prog.ret
    { success := true, message := "Container statistics retrieved".toList, error := none,
      data := .counts names.length running (names.length - running) }

/-- Run a program about one container, unless the user cannot see it. -/
def onVisible (name : Text) (p : Machine → Handler Answer) : Handler Answer := do
  let m ← look
  if visibleContainer m user name then p m else Prog.fail (containerNotFound name)

/-- Detailed information about a container. -/
def getAgent (name : Text) : Handler Answer :=
  onVisible user name fun _ =>
    Prog.ret
      { success := true, message := about "Container ".toList name " details retrieved".toList,
        error := none, data := .agent name }

/-! ## Starting, stopping and deleting -/

def startAgent (name : Text) : Handler Answer :=
  onVisible user name fun m =>
    if m.running name then
      Prog.ret ⟨false, about "Container ".toList name " is already running".toList, none, .none⟩
    else do
      let success ← lxcStart s name
      Prog.ret (if success then
          succeeded (about "Container ".toList name " started successfully".toList)
        else
          ⟨false, about "Failed to start container ".toList name [],
            some "Start operation failed".toList, .none⟩)

def stopAgent (name : Text) : Handler Answer :=
  onVisible user name fun m =>
    if m.running name then do
      shutdownOrStop s name
      Prog.ret (succeeded (about "Container ".toList name " stopped successfully".toList))
    else
      Prog.ret ⟨false, about "Container ".toList name " is not running".toList, none, .none⟩

/-- Destroy a container, and mark its metadata as deleted when that succeeds. -/
def destroy (name : Text) : Handler Bool := do
  let success ← lxcDestroy s name
  if success then
    deleteAgentMetadata s name
    Prog.ret true
  else Prog.ret false

def deleteAgent (name : Text) : Handler Answer :=
  onVisible user name fun m => do
    whenRunning m name (shutdownOrStop s name)
    let success ← destroy s name
    Prog.ret (if success then
        succeeded (about "Container ".toList name " deleted successfully".toList)
      else
        ⟨false, about "Failed to delete container ".toList name [],
          some "Destroy operation failed".toList, .none⟩)

/-! ## Many containers -/

inductive Operation where
  | start
  | stop
  | delete
  deriving DecidableEq

def Operation.name : Operation → Text
  | .start => "start".toList
  | .stop => "stop".toList
  | .delete => "delete".toList

def Operation.ofText? (t : Text) : Option Operation :=
  [Operation.start, .stop, .delete].find? fun op => decide (op.name = t)

/-- Perform an operation on a container of a list. -/
def bulkStep (operation : Operation) (name : Text) : Handler Bool := do
  let m ← look
  match operation with
  | .start => if m.running name then Prog.ret false else lxcStart s name
  | .stop => if m.running name then lxcShutdown s name else Prog.ret false
  | .delete => do
    -- here a running container is stopped at once, not shut down
    whenRunning m name (lxcStop s name)
    destroy s name

def bulkOne (operation : Operation) (existing : List Text) (name : Text) : Handler ItemResult :=
  if name ∉ existing then Prog.ret ⟨name, false, some "Not found".toList⟩
  else do
    let success ← bulkStep s operation name
    Prog.ret ⟨name, success, none⟩

def bulkAnswer (operation : Operation) (items : List ItemResult) : Answer :=
  let successful := items.countP ItemResult.success
  { success := decide (successful = items.length),
    message := "Bulk ".toList ++ operation.name ++ ": ".toList ++ number successful ++ '/' ::
      number items.length ++ " successful".toList,
    error := none,
    data := .results items }

/-- Perform an operation on many containers. -/
def bulkAgentOperation (operation : Text) (names : List Text) : Handler Answer :=
  match Operation.ofText? operation with
  | none => Prog.fail (invalidOperation operation)
  | some op => do
    let m ← look
    -- the containers are listed once, not for each name
    let existing := visible m.store.owners user m.containers
    let items ← Prog.forEach (bulkOne s op existing) names
    Prog.ret (bulkAnswer op items)

/-- Perform an operation on the containers of a group. -/
def bulkGroupOperation (group operation : Text) : Handler Answer :=
  match Operation.ofText? operation with
  | none => Prog.fail (invalidOperation operation)
  | some _ => onGroup user group fun _ members => bulkAgentOperation s user operation members

/-! ## All of them are quiet -/

/-- A refusal that does not ask for payment. -/
def NotLicence (e : Refusal) : Prop := ∀ detail, e ≠ .http 402 detail

variable {s user}

lemma notLicence_http {status : ℕ} {detail : Text} (h : status ≠ 402) :
    NotLicence (.http status detail) := by
  rintro d hd
  exact h (Refusal.http.inj hd).1

lemma lxcStart_quiet {err : Refusal → Prop} (name : Text) : Quiet err (lxcStart s name) :=
  Quiet.bind (Quiet.emit rfl) fun _ => Quiet.take _

lemma lxcShutdown_quiet {err : Refusal → Prop} (name : Text) : Quiet err (lxcShutdown s name) :=
  Quiet.bind (Quiet.emit rfl) fun _ => Quiet.take _

lemma lxcStop_quiet {err : Refusal → Prop} (name : Text) : Quiet err (lxcStop s name) :=
  Quiet.bind (Quiet.emit rfl) fun _ => Quiet.take _

lemma whenRunning_quiet {err : Refusal → Prop} {p : Handler Unit} (hp : Quiet err p) (m : Machine)
    (name : Text) : Quiet err (whenRunning m name p) := by
  unfold whenRunning
  split
  · exact hp
  · exact Quiet.ret ()

lemma lxcDestroy_quiet {err : Refusal → Prop} (name : Text) : Quiet err (lxcDestroy s name) :=
  Quiet.bind (Quiet.emit rfl) fun _ => Quiet.take _

lemma shutdownOrStop_quiet {err : Refusal → Prop} (name : Text) :
    Quiet err (shutdownOrStop s name) := by
  refine Quiet.bind (lxcShutdown_quiet name) fun down => ?_
  cases down with
  | true => exact Quiet.ret ()
  | false => exact lxcStop_quiet name

lemma deleteAgentMetadata_quiet {err : Refusal → Prop} (name : Text) :
    Quiet err (deleteAgentMetadata s name) :=
  Quiet.take _

lemma listAgents_quiet (q : ListQuery) : Quiet NotLicence (listAgents s user q) :=
  Quiet.bind Quiet.look fun _ => Quiet.ret _

lemma getAgentsStats_quiet : Quiet NotLicence (getAgentsStats user) :=
  Quiet.bind Quiet.look fun _ => Quiet.ret _

lemma onVisible_quiet {p : Machine → Handler Answer} (name : Text)
    (hp : ∀ m, Quiet NotLicence (p m)) : Quiet NotLicence (onVisible user name p) := by
  refine Quiet.bind Quiet.look fun m => ?_
  split
  · exact hp m
  · exact Quiet.fail (notLicence_http (by decide))

lemma getAgent_quiet (name : Text) : Quiet NotLicence (getAgent user name) :=
  onVisible_quiet name fun _ => Quiet.ret _

lemma startAgent_quiet (name : Text) : Quiet NotLicence (startAgent s user name) := by
  refine onVisible_quiet name fun m => ?_
  split
  · exact Quiet.ret _
  · exact Quiet.bind (lxcStart_quiet name) fun _ => Quiet.ret _

lemma stopAgent_quiet (name : Text) : Quiet NotLicence (stopAgent s user name) := by
  refine onVisible_quiet name fun m => ?_
  split
  · exact Quiet.bind (shutdownOrStop_quiet name) fun _ => Quiet.ret _
  · exact Quiet.ret _

lemma destroy_quiet {err : Refusal → Prop} (name : Text) : Quiet err (destroy s name) := by
  refine Quiet.bind (lxcDestroy_quiet name) fun success => ?_
  cases success with
  | true => exact Quiet.bind (deleteAgentMetadata_quiet name) fun _ => Quiet.ret _
  | false => exact Quiet.ret _

lemma deleteAgent_quiet (name : Text) : Quiet NotLicence (deleteAgent s user name) := by
  refine onVisible_quiet name fun m => ?_
  refine Quiet.bind (whenRunning_quiet (shutdownOrStop_quiet name) m name) fun _ => ?_
  exact Quiet.bind (destroy_quiet name) fun _ => Quiet.ret _

lemma bulkStep_quiet {err : Refusal → Prop} (operation : Operation) (name : Text) :
    Quiet err (bulkStep s operation name) := by
  refine Quiet.bind Quiet.look fun m => ?_
  cases operation with
  | start =>
    dsimp only
    split
    · exact Quiet.ret false
    · exact lxcStart_quiet name
  | stop =>
    dsimp only
    split
    · exact lxcShutdown_quiet name
    · exact Quiet.ret false
  | delete =>
    refine Quiet.bind (whenRunning_quiet (lxcStop_quiet name) m name) fun _ => ?_
    exact destroy_quiet name

lemma bulkOne_quiet {err : Refusal → Prop} (operation : Operation) (existing : List Text)
    (name : Text) : Quiet err (bulkOne s operation existing name) := by
  unfold bulkOne
  split
  · exact Quiet.ret _
  · exact Quiet.bind (bulkStep_quiet operation name) fun _ => Quiet.ret _

lemma bulkAgentOperation_quiet (operation : Text) (names : List Text) :
    Quiet NotLicence (bulkAgentOperation s user operation names) := by
  unfold bulkAgentOperation
  cases Operation.ofText? operation with
  | none => exact Quiet.fail (notLicence_http (by decide))
  | some op =>
    refine Quiet.bind Quiet.look fun m => Quiet.bind ?_ fun _ => Quiet.ret _
    exact Quiet.forEach (bulkOne_quiet op _) names

lemma bulkGroupOperation_quiet (group operation : Text) :
    Quiet NotLicence (bulkGroupOperation s user group operation) := by
  unfold bulkGroupOperation
  cases Operation.ofText? operation with
  | none => exact Quiet.fail (notLicence_http (by decide))
  | some _ =>
    exact onGroup_quiet (notLicence_http (by decide)) fun _ members =>
      bulkAgentOperation_quiet operation members

end Habeny.Requests
