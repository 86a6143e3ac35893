import Habeny.Deploy.Request
import Habeny.Lib.Checks

/-!
# One worker

A worker creates, starts and sets up one container, and reports what should be saved of it.  Each
of its exits says what has become of the container, but the one for an exception: it has nothing to
save, unless the exception comes after the last update.

`metadata_deployContainer` says what a worker has to save, for all that its calls can do.
-/

namespace Habeny.Deploy

open Habeny.Lib Habeny.Lib.Checks Habeny.Agents

/-- What the installation of an agent returns. -/
structure Installed where
  success : Bool
  stdout : Text
  stderr : Text

/-- What the calls of a worker return, or the errors that they raise. -/
structure Calls where
  listContainers : Except Text (List Text)
  container : Except Text Unit
  osConfig : Except Text Unit
  create : Except Text Bool
  /-- Setting the limits and the network, and saving the configuration. -/
  configure : Except Text Unit
  start : Except Text Bool
  stop : Except Text Unit
  destroy : Except Text Unit
  /-- Waiting for the container and its network. -/
  wait : Except Text Unit
  install : Except Text Installed
  /-- `container.running`, before the addresses and after them. -/
  up : Except Text Bool
  getIps : Except Text (List Text)
  running : Except Text Bool
  state : Except Text Text
  initPid : Except Text ℤ
  deployTime : Text

/-- The metadata of a container that was not deployed. -/
def failureMetadata (seqId : ℤ) (state : Text) : Metadata :=
  { seqId := none, agentSeqId := some (some seqId),
    field := fun
      | .lifecycleStatus => some (.text "error".toList)
      | .state => some (.text state)
      | _ => none }

/-- The report of a container that was not deployed. -/
def failure (seqId : ℤ) (state : Text) (error : Text) : Report :=
  { success := false, error := some error, installMessage := none, deployTime := none,
    ipAddress := none, metadata := some (failureMetadata seqId state),
    unnumbered := by simp [failureMetadata] }

/-- The metadata of a container that was deployed. -/
def deployedMetadata (settings : Settings) (seqId : ℤ) (running : Bool) (state : Text)
    (initPid : ℤ) (ips : List Text) : Metadata :=
  { seqId := none, agentSeqId := some (some seqId),
    field := fun
      | .siemType => some (.ofText (settings .siemType))
      | .siemIp => some (.ofText (settings .siemIp))
      | .siemVersion => some (.ofText (settings .siemVersion))
      | .agentGroup => some (.ofText (settings .agentGroup))
      | .osType => some (.ofText (settings .osType))
      | .configTemplateId => some (.ofText (settings .configTemplateId))
      | .lifecycleStatus => some (.text (if running then "running".toList else "stopped".toList))
      | .state => some (.text state)
      | .initPid => some (.int initPid)
      | .ipAddresses => some (.list ips)
      | _ => none }

/-- The agents that can be installed, beside none. -/
def siemTypes : List Text :=
  ["wazuh".toList, "ossec".toList, "utmstack".toList, "elastic".toList]

def siemType (settings : Settings) : Text := (settings .siemType).getD "None".toList

/-- Install the agent, if the type of the SIEM is one that is supported. -/
def installAgent (settings : Settings) (w : Calls) : Except Text (Option Installed) :=
  if siemType settings = "none".toList then
    .ok (some ⟨true, "Bare container (no SIEM agent)".toList, []⟩)
  else if siemType settings ∈ siemTypes then w.install.map some
  else .ok none

/-- The report of a container that was set up. -/
def deployedReport (installed : Installed) (deployTime : Text) (ips : List Text)
    (metadata : Metadata) (h : metadata.seqId = none) : Report :=
  { success := installed.success, error := none,
    installMessage :=
      some (if installed.success then installed.stdout.take 200 else installed.stderr),
    deployTime := some deployTime, ipAddress := ips.head?, metadata := some metadata,
    unnumbered := by simp [h] }

/-- The addresses of a container that runs. -/
def addresses (up : Bool) (w : Calls) : Except Text (List Text) :=
  if up then w.getIps else .ok []

/-- A container that was set up is looked at, and reported. -/
def finishDeploy (settings : Settings) (seqId : ℤ) (installed : Installed) (w : Calls) :
    Except Text Report := do
  let up ← w.up
  let ips ← addresses up w
  let running ← w.running
  let state ← w.state
  let initPid ← w.initPid
  return deployedReport installed w.deployTime ips
    (deployedMetadata settings seqId running state initPid ips) rfl

/-- What a worker does, up to an exception. -/
def tryDeploy (name : Text) (settings : Settings) (seqId : ℤ) (w : Calls) :
    Except Text Report := do
  if name ∈ (← w.listContainers) then
    return failure seqId "EXISTS".toList "Container already exists".toList
  else
    w.container
    w.osConfig
    if !(← w.create) then
      return failure seqId "CREATE_FAILED".toList "Container creation failed".toList
    else
      w.configure
      if !(← w.start) then
        w.destroy
        return failure seqId "START_FAILED".toList "Container start failed".toList
      else
        w.wait
        match ← installAgent settings w with
        | some installed => finishDeploy settings seqId installed w
        | none =>
          w.stop
          w.destroy
          return failure seqId "UNSUPPORTED".toList
            ("Unsupported SIEM type: ".toList ++ siemType settings)

/-- A worker: an exception is reported as an error, with nothing to save. -/
def deployContainer (name : Text) (settings : Settings) (seqId : ℤ) (w : Calls) : Report :=
  match tryDeploy name settings seqId w with
  | .ok report => report
  | .error e =>
    { success := false, error := some e, installMessage := none, deployTime := none,
      ipAddress := none, metadata := none }

/-! ## What a worker has to save -/

/-- A call does not raise. -/
def Returns {α : Type} (call : Except Text α) : Bool := call.isOk

/-- None of the calls that a worker makes after the container has started raises. -/
def Calls.setsUp (settings : Settings) (w : Calls) : Bool :=
  Returns w.wait &&
    if siemType settings = "none".toList ∨ siemType settings ∈ siemTypes then
      (decide (siemType settings = "none".toList) || Returns w.install) && (Returns w.up &&
        ((decide (w.up.toOption = some false) || Returns w.getIps) &&
          (Returns w.running && (Returns w.state && Returns w.initPid))))
    else Returns w.stop && Returns w.destroy

/-- None of the calls that a worker makes raises. -/
def Calls.noneRaises (name : Text) (settings : Settings) (w : Calls) : Bool :=
  Returns w.listContainers &&
    (decide (∃ names ∈ w.listContainers.toOption, name ∈ names) ||
      Returns w.container && (Returns w.osConfig && (Returns w.create &&
        (decide (w.create.toOption = some false) ||
          Returns w.configure && (Returns w.start &&
            if w.start.toOption = some false then Returns w.destroy else w.setsUp settings)))))

/-- A report says what has become of its container. -/
def Report.Settles (r : Report) : Prop :=
  ∃ m t, r.metadata = some m ∧ m.field .lifecycleStatus = some (.text t) ∧ t ≠ "starting".toList

lemma settles_failure (seqId : ℤ) (state error : Text) : (failure seqId state error).Settles :=
  ⟨_, "error".toList, rfl, rfl, by decide⟩

lemma settles_deployedReport (settings : Settings) (seqId : ℤ) (installed : Installed)
    (running : Bool) (time state : Text) (initPid : ℤ) (ips : List Text) :
    (deployedReport installed time ips
      (deployedMetadata settings seqId running state initPid ips) rfl).Settles := by
  refine ⟨_, if running then "running".toList else "stopped".toList, rfl, rfl, ?_⟩
  cases running <;> decide

/-- Without an exception a worker says what has become of its container. -/
lemma settles_of_tryDeploy {name : Text} {settings : Settings} {seqId : ℤ} {w : Calls} {r : Report}
    (h : tryDeploy name settings seqId w = .ok r) : r.Settles := by
  unfold tryDeploy at h
  obtain ⟨names, -, h⟩ := bind_eq_ok_iff.mp h
  split_ifs at h
  · cases h
    exact settles_failure _ _ _
  obtain ⟨-, -, h⟩ := bind_eq_ok_iff.mp h
  obtain ⟨-, -, h⟩ := bind_eq_ok_iff.mp h
  obtain ⟨created, -, h⟩ := bind_eq_ok_iff.mp h
  split_ifs at h
  · cases h
    exact settles_failure _ _ _
  obtain ⟨-, -, h⟩ := bind_eq_ok_iff.mp h
  obtain ⟨started, -, h⟩ := bind_eq_ok_iff.mp h
  split_ifs at h
  · obtain ⟨-, -, h⟩ := bind_eq_ok_iff.mp h
    cases h
    exact settles_failure _ _ _
  obtain ⟨-, -, h⟩ := bind_eq_ok_iff.mp h
  obtain ⟨installed, -, h⟩ := bind_eq_ok_iff.mp h
  cases installed with
  | some installed =>
    obtain ⟨up, -, h⟩ := bind_eq_ok_iff.mp h
    obtain ⟨ips, -, h⟩ := bind_eq_ok_iff.mp h
    obtain ⟨running, -, h⟩ := bind_eq_ok_iff.mp h
    obtain ⟨state, -, h⟩ := bind_eq_ok_iff.mp h
    obtain ⟨initPid, -, h⟩ := bind_eq_ok_iff.mp h
    cases h
    exact settles_deployedReport _ _ _ _ _ _ _ _
  | none =>
    obtain ⟨-, -, h⟩ := bind_eq_ok_iff.mp h
    obtain ⟨-, -, h⟩ := bind_eq_ok_iff.mp h
    cases h
    exact settles_failure _ _ _

lemma isOk_bind {α β : Type} {x : Except Text α} {f : α → Except Text β} {b : Bool}
    (h : ∀ a, x = .ok a → (f a).isOk = b) : (x >>= f).isOk = (Returns x && b) := by
  cases x with
  | error e => rfl
  | ok a => exact h a rfl

lemma isOk_finishDeploy (settings : Settings) (seqId : ℤ) (installed : Installed) (w : Calls) :
    (finishDeploy settings seqId installed w).isOk =
      (Returns w.up && ((decide (w.up.toOption = some false) || Returns w.getIps) &&
        (Returns w.running && (Returns w.state && Returns w.initPid)))) := by
  refine isOk_bind fun up hup => ?_
  have haddresses : Returns (addresses up w) =
      (decide (w.up.toOption = some false) || Returns w.getIps) := by
    rw [hup]
    cases up <;> rfl
  rw [← haddresses]
  refine isOk_bind fun ips _ => isOk_bind fun running _ => isOk_bind fun state _ => ?_
  cases w.initPid <;> rfl

/-- What a worker does once the container has started. -/
lemma isOk_setUp (settings : Settings) (seqId : ℤ) (w : Calls) (state error : Text) :
    (w.wait >>= fun _ => installAgent settings w >>= fun
      | some installed => finishDeploy settings seqId installed w
      | none => do
        w.stop
        w.destroy
        return failure seqId state error).isOk = w.setsUp settings := by
  refine isOk_bind fun _ _ => ?_
  by_cases hnone : siemType settings = "none".toList
  · simp only [installAgent, hnone, true_or, if_true, decide_true, Bool.true_or, Bool.true_and]
    exact isOk_finishDeploy settings seqId _ w
  · by_cases htype : siemType settings ∈ siemTypes
    · rw [installAgent, if_neg hnone, if_pos htype, if_pos (.inr htype), decide_eq_false hnone,
        Bool.false_or]
      cases hinstall : w.install with
      | error e => rfl
      | ok installed => exact isOk_finishDeploy settings seqId installed w
    · rw [installAgent, if_neg hnone, if_neg htype, if_neg (not_or.mpr ⟨hnone, htype⟩)]
      refine isOk_bind (x := w.stop) fun _ _ => ?_
      cases w.destroy <;> rfl

/-- A worker gets through exactly if none of its calls raises. -/
lemma isOk_tryDeploy (name : Text) (settings : Settings) (seqId : ℤ) (w : Calls) :
    (tryDeploy name settings seqId w).isOk = w.noneRaises name settings := by
  refine isOk_bind fun names hnames => ?_
  rw [hnames]
  by_cases hexists : name ∈ names
  · simp only [hexists, if_true]
    rw [decide_eq_true ⟨names, rfl, hexists⟩, Bool.true_or]
    rfl
  rw [if_neg hexists, decide_eq_false fun ⟨l, hl, hmem⟩ => hexists (Option.some.inj hl ▸ hmem),
    Bool.false_or]
  refine isOk_bind fun _ _ => isOk_bind fun _ _ => isOk_bind fun created hcreated => ?_
  rw [hcreated]
  cases created with
  | false => rfl
  | true =>
    refine isOk_bind fun _ _ => isOk_bind fun started hstarted => ?_
    rw [hstarted]
    cases started with
    | false =>
      show (w.destroy >>= fun _ => _).isOk = Returns w.destroy
      cases w.destroy <;> rfl
    | true => exact isOk_setUp settings seqId w _ _

/-- **A worker says what has become of its container** if none of its calls raises; otherwise it
has nothing to save. -/
theorem metadata_deployContainer (name : Text) (settings : Settings) (seqId : ℤ) (w : Calls) :
    if w.noneRaises name settings then (deployContainer name settings seqId w).Settles
    else (deployContainer name settings seqId w).metadata = none := by
  rw [← isOk_tryDeploy name settings seqId w, deployContainer]
  cases htry : tryDeploy name settings seqId w with
  | error e => rfl
  | ok r => exact settles_of_tryDeploy htry

end Habeny.Deploy
