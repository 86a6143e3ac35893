import Habeny.Deploy.Request
import Habeny.Http.Routes
import Habeny.Lib.Watched

/-!
# Requests as programs

An endpoint is a program that runs on the containers of the machine and on what is stored about
them.  What it does to containers are its deeds: new work, which a licence allows, or an
operation on a container that exists.  A program is quiet when none of its deeds is new work.
-/

namespace Habeny.Requests

open Habeny.Lib Habeny.Auth Habeny.Tenancy Habeny.Agents

/-- What a request does to containers. -/
inductive Deed where
  | deployment (names : List Text)
  | simulation (targets : List Text)
  | benchmark (scenario : Text)
  | logUpload (agent : Text)
  | logSchedule (agent : Text)
  | start (agent : Text)
  | stop (agent : Text)
  | delete (agent : Text)
  deriving DecidableEq

/-- New work, as opposed to an operation on a container that exists. -/
def Deed.isNewWork : Deed → Bool
  | .deployment _ | .simulation _ | .benchmark _ | .logUpload _ | .logSchedule _ => true
  | .start _ | .stop _ | .delete _ => false

/-- The containers, and what is stored about them. -/
structure Machine where
  containers : List Text
  running : Text → Bool
  store : Store
  /-- The names that have a row, in the order of the table. -/
  known : List Text

/-! ## What surrounds a request -/

/-- Whether the LXC operations on a container succeed. -/
structure Lxc where
  start : Text → Bool
  shutdown : Text → Bool
  stop : Text → Bool
  destroy : Text → Bool

/-- A random choice of some elements of a list. -/
structure Sampler where
  sample : List Text → ℕ → List Text
  length_sample : ∀ l k, k ≤ l.length → (sample l k).length = k
  sample_subset : ∀ l k, sample l k ⊆ l

/-- What the workers of a deployment did: the results to be saved, the containers that were
created, and how long it took. -/
structure Deployed (req : Deploy.Request) where
  outcomes : Deploy.Outcomes req
  created : List Text
  created_subset : created ⊆ req.names
  elapsed : Text

/-- The result of one element of an operation on many. -/
structure ItemResult where
  agentId : Text
  success : Bool
  error : Option Text
  deriving DecidableEq

/-- The data of an answer. -/
inductive Data where
  | none
  | agents (page : List Text) (total limit offset : ℕ) (hasMore : Bool)
  | counts (total running stopped : ℕ)
  | agent (name : Text)
  | results (items : List ItemResult)
  | schedules (agents : List Text)
  deriving DecidableEq

/-- The body of an answer. -/
structure Answer where
  success : Bool
  message : Text
  error : Option Text
  data : Data
  deriving DecidableEq

/-- What does not change while a request runs: the configuration, and what LXC, the random
choices, the clock and the containers themselves give. -/
structure Setup where
  license : Licensing.Server
  limits : Limits
  managers : Text → Option Deploy.ManagerProfile
  deployWorkers : ℕ
  deployWorkers_pos : 0 < deployWorkers
  lxcAccess : Bool
  lxc : Lxc
  sampler : Sampler
  now : Text
  uuid : Text
  deployed : (req : Deploy.Request) → Deployed req
  /-- What running the script of an upload in a container gives. -/
  attach : Text → Except Text Unit
  /-- The SIEM that a container's LXC configuration names. -/
  configSiem : Text → Option Text
  /-- The SIEM that a running container's status file names. -/
  reportedSiem : Text → Option Text
  /-- The answers of the endpoints that do nothing to containers. -/
  elsewhere : Http.Endpoint → List Text → Option User → Except Refusal Answer

/-- What a deploy request finds. -/
def Setup.env (s : Setup) (m : Machine) : Deploy.Env :=
  { license := s.license, limits := s.limits, managers := s.managers, containers := m.containers,
    deployWorkers := s.deployWorkers, deployWorkers_pos := s.deployWorkers_pos, now := s.now }

/-! ## Programs -/

abbrev Handler (α : Type) := Prog Machine Deed Refusal α

/-- The machine as it is now. -/
def look : Handler Machine := Prog.take fun m => (m, m)

def change (f : Machine → Machine) : Handler Unit := Prog.take fun m => ((), f m)

def ofExcept {α : Type} : Except Refusal α → Handler α
  | .ok a => Prog.ret a
  | .error e => Prog.fail e

/-- Refuse new work without a valid licence. -/
def requireLicense (s : Setup) (adding existing : ℕ) : Handler Unit :=
  ofExcept (Licensing.require s.license adding existing)

def needsLxc : Refusal :=
  .http 403
    "Container operations need root or the habeny LXC helper (HABENY_LXC_BACKEND=helper).".toList

/-- Container operations need LXC access. -/
def checkRoot (s : Setup) : Handler Unit := if s.lxcAccess then Prog.ret () else Prog.fail needsLxc

/-- Exists and this user may see it. -/
def visibleContainer (m : Machine) (user : Option User) (name : Text) : Bool :=
  decide (name ∈ m.containers) && canSee m.store.owners user name

/-- The containers of a group that are not marked deleted. -/
def agentsInGroup (m : Machine) (group : Text) : List Text :=
  m.known.filter fun n =>
    match m.store.rows n with
    | some row => decide (row.field .agentGroup = .text group ∧ row.field .deletedAt = .null)
    | none => false

def groupNotFound : Refusal := .http 404 "Group not found".toList

def emptyGroup : Answer :=
  ⟨false, "No containers in group".toList, some "empty_group".toList, .none⟩

/-- Run a program for the containers of a group that a user can see. -/
def onGroup (user : Option User) (group : Text) (p : Machine → List Text → Handler Answer) :
    Handler Answer := do
  let m ← look
  let members := visible m.store.owners user (agentsInGroup m group)
  if !m.store.groups group then Prog.fail groupNotFound
  else if members.isEmpty then Prog.ret emptyGroup
  else p m members

/-! ## Quiet programs -/

/-- The monitor that forbids new work. -/
def noNewWork (_ : Unit) (d : Deed) : Option Unit := if d.isNewWork then none else some ()

lemma watch_noNewWork {es : List Deed} {u v : Unit} :
    watch noNewWork u es = some v ↔ ∀ d ∈ es, d.isNewWork = false := by
  induction es with
  | nil => simp
  | cons d es ih =>
    rw [watch, List.forall_mem_cons, ← ih]
    cases hd : d.isNewWork <;> simp [noNewWork, hd]

variable {α β γ : Type} {err : Refusal → Prop}

/-- A program that starts no new work, with errors of a kind. -/
def Quiet (err : Refusal → Prop) (p : Handler α) : Prop :=
  Watched noNewWork (fun _ => True) p (fun _ _ => True) (fun e _ => err e)

lemma Quiet.ret (a : α) : Quiet err (Prog.ret a) := Watched.ret fun _ _ => trivial

lemma Quiet.fail {e : Refusal} (h : err e) : Quiet err (Prog.fail e : Handler α) :=
  Watched.fail fun _ _ => h

lemma Quiet.take (f : Machine → α × Machine) : Quiet err (Prog.take f : Handler α) :=
  Watched.take fun _ _ _ => trivial

lemma Quiet.emit {d : Deed} (h : d.isNewWork = false) : Quiet err (Prog.emit d : Handler Unit) :=
  Watched.emit fun u _ => ⟨u, by simp [noNewWork, h], trivial⟩

lemma Quiet.bind {p : Handler α} {k : α → Handler β} (hp : Quiet err p)
    (hk : ∀ a, Quiet err (k a)) : Quiet err (p >>= k) :=
  Watched.bind hp hk

lemma Quiet.forEach {f : γ → Handler β} (hf : ∀ x, Quiet err (f x)) (xs : List γ) :
    Quiet err (Prog.forEach f xs) :=
  Watched.forEach (I := fun _ _ => True) (fun x _ => hf x) []

lemma Quiet.look : Quiet err look := Quiet.take _

lemma Quiet.ofExcept {x : Except Refusal α} (h : ∀ e, x = .error e → err e) :
    Quiet err (ofExcept x) := by
  cases x with
  | ok a => exact Quiet.ret a
  | error e => exact Quiet.fail (h e rfl)

lemma onGroup_quiet {user : Option User} {group : Text} {p : Machine → List Text → Handler Answer}
    (hnotFound : err groupNotFound) (hp : ∀ m members, Quiet err (p m members)) :
    Quiet err (onGroup user group p) := by
  refine Quiet.bind Quiet.look fun m => ?_
  dsimp only
  split_ifs
  · exact Quiet.fail hnotFound
  · exact Quiet.ret _
  · exact hp m _

lemma Quiet.mono {err' : Refusal → Prop} {p : Handler α} (h : Quiet err p)
    (herr : ∀ e, err e → err' e) : Quiet err' p :=
  Watched.mono h (fun _ hm => hm) (fun _ _ hm => hm) fun e _ he => herr e he

/-- What a quiet program does and how it ends. -/
lemma Quiet.spec {p : Handler α} (h : Quiet err p) (m : Machine) :
    (∀ d ∈ (p m).events, d.isNewWork = false) ∧ ∀ e, (p m).result = .error e → err e := by
  obtain ⟨u, hwatch, hend⟩ := h m () trivial
  refine ⟨watch_noNewWork.mp hwatch, fun e he => ?_⟩
  rw [he] at hend
  exact hend

end Habeny.Requests
