import Habeny.Deploy.Completion
import Habeny.Licensing.Status

/-!
# A deploy request

The request is checked against the licence, its manager profile, its SIEM settings, the groups
and the limits of its user and team.  Then the names that are new are recorded as the user's,
and a row is written for every name, also for one that belongs to an existing container;
after that the workers run and the results are saved.
-/

namespace Habeny.Deploy

open Habeny.Lib Habeny.Auth Habeny.Tenancy Habeny.Agents

/-- The settings that a manager profile can fill in. -/
inductive Field where
  | siemType
  | siemIp
  | siemVersion
  | siemAuthKey
  | osType
  | agentGroup
  | configTemplateId
  deriving DecidableEq

abbrev Settings := Field → Option Text

/-- A stored manager profile. -/
structure ManagerProfile where
  settings : Settings
  detectionUrl : Option Text

/-- A deploy request. -/
structure Request where
  count : ℕ
  managerProfileId : Option Text
  settings : Settings
  agentBaseName : Text
  parallelMode : ParallelMode
  autoCreateGroup : Bool

/-- What a request finds around the store: the licence, the limits, the manager profiles, the
containers that exist, the configured number of workers, and the time. -/
structure Env where
  license : Licensing.Server
  limits : Limits
  managers : Text → Option ManagerProfile
  containers : List Text
  deployWorkers : ℕ
  deployWorkers_pos : 0 < deployWorkers
  now : Text

/-! ## Names -/

/-- A number with at least four digits. -/
def padded (i : ℕ) : Text := (number i).leftpad 4 '0'

/-- The names of the containers of a request. -/
def containerNames (base : Text) (count : ℕ) : List Text :=
  (List.range count).map fun i => base ++ '-' :: padded (i + 1)

lemma ofDigitChars_padded (i : ℕ) : Nat.ofDigitChars 10 (padded i) 0 = i := by
  have hzeros : ∀ k, Nat.ofDigitChars 10 (List.replicate k '0' ++ number i) 0 = i := by
    intro k
    induction k with
    | zero => exact Nat.ofDigitChars_ten_toDigits
    | succ k ih => simpa [List.replicate_succ, Nat.ofDigitChars_cons] using ih
  exact hzeros _

lemma padded_injective : Function.Injective padded := fun i j h => by
  rw [← ofDigitChars_padded i, h, ofDigitChars_padded]

lemma nodup_containerNames (base : Text) (count : ℕ) : (containerNames base count).Nodup := by
  refine List.Nodup.map (fun i j h => ?_) List.nodup_range
  have := padded_injective (List.cons.inj (List.append_cancel_left h)).2
  omega

def Request.names (req : Request) : List Text := containerNames req.agentBaseName req.count

/-! ## The checks of a request -/

/-- Whether a text is there and not empty. -/
def given : Option Text → Bool
  | some (_ :: _) => true
  | some [] | none => false

/-- The default of a setting of the request, where it has one that a profile may replace. -/
def Field.default : Field → Option Text
  | .siemType => some "wazuh".toList
  | .agentGroup => some "default".toList
  | .osType => some "ubuntu_22_04".toList
  | .siemIp | .siemVersion | .siemAuthKey | .configTemplateId => none

/-- Use a profile's value where the request's is at its default or empty. -/
def fillIn (req profile : Settings) : Settings := fun f =>
  if given (profile f) && (!given (req f) || f.default.isSome && decide (req f = f.default)) then
    profile f
  else req f

def profileNotFound (id : Text) : Refusal :=
  .http 404 ("Manager profile '".toList ++ id ++ "' not found".toList)

def ossimRetired : Refusal :=
  .http 400 "OSSIM is no longer supported (the product was retired in 2024). Change the manager profile's SIEM type.".toList

def siemIpRequired : Refusal :=
  .http 400 "siem_ip is required when deploying a SIEM agent".toList

def authKeyRequired (profile : Bool) : Refusal :=
  .http 400 (if profile then
      "The manager profile's auth key can't be read (the secret key changed?); re-enter it in the profile".toList
    else "siem_auth_key is required for UTMstack and Elastic deployments".toList)

def groupNotFound : Refusal := .http 400 "Container group not found".toList

/-- The settings of a request, with those of its manager profile. -/
def resolve (managers : Text → Option ManagerProfile) (req : Request) : Except Refusal Settings :=
  if given req.managerProfileId then
    match managers (req.managerProfileId.getD []) with
    | none => .error (profileNotFound (req.managerProfileId.getD []))
    | some profile => .ok (fillIn req.settings profile.settings)
  else .ok req.settings

def checkSettings (req : Request) (settings : Settings) : Except Refusal Unit :=
  if settings .siemType = some "ossim".toList then .error ossimRetired
  else if settings .siemType ≠ some "none".toList && !given (settings .siemIp) then
    .error siemIpRequired
  else if (settings .siemType = some "utmstack".toList || settings .siemType = some "elastic".toList)
      && !given (settings .siemAuthKey) then
    .error (authKeyRequired (given req.managerProfileId))
  else .ok ()

/-- The first part of the checks, which gives the settings that count. -/
def settle (env : Env) (req : Request) : Except Refusal Settings := do
  Licensing.require env.license 0 0
  let settings ← resolve env.managers req
  checkSettings req settings
  return settings

/-- The container group of a request exists, or is created. -/
def ensureGroup (store : Store) (settings : Settings) (req : Request) : Except Refusal Store :=
  match settings .agentGroup with
  | some group =>
    if given (some group) && !store.groups group then
      if req.autoCreateGroup then
        .ok { store with groups := Function.update store.groups group true }
      else .error groupNotFound
    else .ok store
  | none => .ok store

/-- The names of a request that no container has. -/
def newNames (env : Env) (req : Request) : List Text :=
  req.names.filter fun n => decide (n ∉ env.containers)

/-- The licence's limit on containers, and the user's and the team's. -/
def checkNew (env : Env) (owners : Owners) (user : Option User) (req : Request) :
    Except Refusal Unit := do
  Licensing.require env.license (newNames env req).length env.containers.dedup.length
  checkQuota env.limits owners user (newNames env req).length env.containers

/-! ## What a request writes -/

/-- What is written for every name before the workers run. -/
def startingFields (settings : Settings) : Column → Option Value
  | .siemType => some (.ofText (settings .siemType))
  | .siemIp => some (.ofText (settings .siemIp))
  | .siemVersion => some (.ofText (settings .siemVersion))
  | .agentGroup => some (.ofText (settings .agentGroup))
  | .osType => some (.ofText (settings .osType))
  | .configTemplateId => some (.ofText (settings .configTemplateId))
  | .lifecycleStatus => some (.text "starting".toList)
  | _ => none

/-- Give a name its number and write its row. -/
def announce (settings : Settings) (now : Text) (store : Store) (name : Text) : Store :=
  let (store, seqId) := getOrCreateAgentSeqId store name now
  writeAgentMetadata store name ⟨none, some (some seqId), startingFields settings⟩ now

/-- What the workers of a request leave to be saved: results of its names, each with the time
of its saving, in the order in which they are recorded. -/
structure Outcomes (req : Request) where
  results : List (Text × Result)
  ofNames : ∀ p ∈ results, p.2.agentName ∈ req.names

def save (store : Store) (p : Text × Result) : Store := persistDeployResult store p.2 p.1

/-- The store as the workers find it. -/
def prepare (env : Env) (user : Option User) (req : Request) (settings : Settings) (store : Store) :
    Store :=
  req.names.foldl (announce settings env.now)
    { store with owners := record store.owners (newNames env req) user }

/-- A deploy request: its answer, and the store when it has finished. -/
def deployAgents (env : Env) (user : Option User) (req : Request) (outcomes : Outcomes req)
    (store : Store) : Except Refusal Unit × Store :=
  match settle env req with
  | .error e => (.error e, store)
  | .ok settings =>
    match ensureGroup store settings req with
    | .error e => (.error e, store)
    | .ok store =>
      match checkNew env store.owners user req with
      | .error e => (.error e, store)
      | .ok () => (.ok (), outcomes.results.foldl save (prepare env user req settings store))

end Habeny.Deploy
