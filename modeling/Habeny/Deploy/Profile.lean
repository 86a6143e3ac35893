import Habeny.Deploy.Request
import Habeny.Lib.FillIn

/-!
# Manager profiles in requests

A deployment and a benchmark can name a manager profile, which fills in the settings that the
request leaves out.  Once a request is read, a setting that was left out has its default, so the
routes guess from the value whether the client gave it.

`fills_in_iff` says for which settings of which requests the guess is right.
-/

namespace Habeny.Deploy.Profile

open Habeny.Lib FillIn

/-! ## Settings -/

/-- CPU shares that a request or a profile can have. -/
abbrev CpuShares := {n : ℕ // 2 ≤ n ∧ n ≤ 10240}

inductive Value where
  | text (t : Text)
  | shares (n : CpuShares)
  deriving DecidableEq

def word (s : String) : Value := .text s.toList

/-- The empty text. -/
def Value.isEmpty : Value → Bool
  | .text [] => true
  | .text (_ :: _) | .shares _ => false

/-- The fields of a deployment that a profile can fill in. -/
inductive ProfileField where
  | siemType
  | siemIp
  | siemVersion
  | siemAuthKey
  | osType
  | agentGroup
  | memoryLimit
  | cpuShares
  | configTemplateId
  deriving DecidableEq

/-- A stored profile, with null where a column has none. -/
abbrev ManagerProfile := ProfileField → Option Value

/-- What a client sends: a field is left out, or given, and then may be null. -/
abbrev Sent := ProfileField → Option (Option Value)

/-! ## Deployments -/

/-- The defaults of `AgentDeploymentRequest`. -/
def AgentDeploymentRequest.default : ProfileField → Option Value
  | .siemType => some (word "wazuh")
  | .siemVersion => some (word "4.14.2")
  | .osType => some (word "ubuntu_22_04")
  | .agentGroup => some (word "default")
  | .memoryLimit => some (word "512MB")
  | .cpuShares => some (.shares ⟨1024, by decide⟩)
  | .siemIp | .siemAuthKey | .configTemplateId => none

/-- The values that are taken for a field that was left out. -/
def takenForDefault (field : ProfileField) (reqVal : Value) : Bool :=
  (decide (field = .siemType) && decide (reqVal = word "wazuh")) ||
  (decide (field = .agentGroup) && decide (reqVal = word "default")) ||
  (decide (field = .osType) && decide (reqVal = word "ubuntu_22_04"))

/-- The value of a field with the profile's, where the request's is at its default or empty. -/
def merged (field : ProfileField) (reqVal mgrVal : Option Value) : Option Value :=
  match mgrVal with
  | none => reqVal
  | some p =>
    if p.isEmpty then reqVal
    else match reqVal with
      | none => some p
      | some v => if v.isEmpty || takenForDefault field v then some p else some v

/-- The value of a field in a deployment with a manager profile. -/
def deployed (sent : Sent) (mgr : ManagerProfile) (field : ProfileField) : Option Value :=
  merged field ((sent field).getD (AgentDeploymentRequest.default field)) (mgr field)

/-! ## Benchmarks -/

/-- The fields of a benchmark that a profile can fill in. -/
inductive BenchmarkField where
  | siemType
  | siemIp
  | siemVersion
  | siemAuthKey
  | osType
  | agentGroup
  deriving DecidableEq

def BenchmarkField.toField : BenchmarkField → ProfileField
  | .siemType => .siemType
  | .siemIp => .siemIp
  | .siemVersion => .siemVersion
  | .siemAuthKey => .siemAuthKey
  | .osType => .osType
  | .agentGroup => .agentGroup

/-- The defaults of `BenchmarkStartRequest`. -/
def BenchmarkStartRequest.default : BenchmarkField → Option Value
  | .siemType => some (word "none")
  | .osType => some (word "ubuntu_22_04")
  | .agentGroup => some (word "benchmark")
  | .siemIp | .siemVersion | .siemAuthKey => none

/-- The settings of a benchmark: null and the empty text are not kept. -/
def cfg (sent : Sent) (field : BenchmarkField) : Option Value :=
  present Value.isEmpty ((sent field.toField).getD (BenchmarkStartRequest.default field))

/-- The settings with those of the profile. -/
def cfgWith (sent : Sent) (mgr : ManagerProfile) (field : BenchmarkField) : Option Value :=
  match mgr field.toField with
  | none => cfg sent field
  | some p =>
    if p.isEmpty then cfg sent field
    else match cfg sent field with
      | none => some p
      | some v => if decide (field = .siemType) && decide (v = word "none") then some p else some v

/-- What a benchmark runs with where its settings have nothing. -/
def runDefault : BenchmarkField → Value
  | .siemType => word "none"
  | .osType => word "ubuntu_22_04"
  | .agentGroup => word "benchmark"
  | .siemIp | .siemVersion | .siemAuthKey => word ""

/-- The value of a field in a benchmark that runs with a manager profile. -/
def benchmarked (sent : Sent) (mgr : ManagerProfile) (field : BenchmarkField) : Value :=
  (cfgWith sent mgr field).getD (runDefault field)

/-! ## Filling in -/

/-- The fields of a deploy request that are texts and no limits. -/
def profileField : Field → ProfileField
  | .siemType => .siemType
  | .siemIp => .siemIp
  | .siemVersion => .siemVersion
  | .siemAuthKey => .siemAuthKey
  | .osType => .osType
  | .agentGroup => .agentGroup
  | .configTemplateId => .configTemplateId

lemma takenForDefault_text (f : Field) (t : Text) :
    takenForDefault (profileField f) (.text t) = (f.default.isSome && decide (some t = f.default)) := by
  cases f <;> simp [takenForDefault, profileField, Field.default, word]

/-- The settings that a deploy request goes on with are the merged ones. -/
theorem fillIn_eq_merged (req mgr : Settings) (f : Field) :
    (fillIn req mgr f).map Value.text =
      merged (profileField f) ((req f).map Value.text) ((mgr f).map Value.text) := by
  unfold fillIn
  rcases hmgr : mgr f with _ | _ | ⟨c, t⟩
  · simp [merged, given]
  · simp [merged, given, Value.isEmpty]
  · rcases hreq : req f with _ | _ | ⟨d, u⟩
    · simp [merged, given, Value.isEmpty]
    · simp [merged, given, Value.isEmpty]
    · simp only [merged, given, Value.isEmpty, Option.map_some, takenForDefault_text]
      simp [apply_ite (Option.map Value.text)]

/-- A deployment's fields are filled in by looking at their values. -/
lemma present_merged (field : ProfileField) (reqVal mgrVal : Option Value) :
    present Value.isEmpty (merged field reqVal mgrVal) =
      fill (takenForDefault field) (present Value.isEmpty reqVal)
        (present Value.isEmpty mgrVal) := by
  cases mgrVal with
  | none => rfl
  | some p =>
    cases hp : p.isEmpty with
    | true => simp [merged, fill, present_some_of_empty hp, hp]
    | false =>
      cases reqVal with
      | none => simp [merged, fill, present_some_of_not_empty hp, hp]
      | some v =>
        cases hv : v.isEmpty with
        | true =>
          simp [merged, fill, present_some_of_not_empty hp, present_some_of_empty hv, hp, hv]
        | false =>
          cases htaken : takenForDefault field v <;>
            simp [merged, fill, present_some_of_not_empty hp, present_some_of_not_empty hv, hp, hv,
              htaken]

/-- So are those of a benchmark. -/
lemma cfgWith_eq_fill (sent : Sent) (mgr : ManagerProfile) (field : BenchmarkField) :
    cfgWith sent mgr field =
      fill (fun v => decide (field = .siemType) && decide (v = word "none")) (cfg sent field)
        (present Value.isEmpty (mgr field.toField)) := by
  unfold cfgWith
  cases mgr field.toField with
  | none => rfl
  | some p =>
    cases hp : p.isEmpty with
    | true => simp [fill, present_some_of_empty hp, hp]
    | false => cases cfg sent field <;> simp [fill, present_some_of_not_empty hp, hp]

lemma isEmpty_of_cfgWith {sent : Sent} {mgr : ManagerProfile} {field : BenchmarkField} {v : Value}
    (h : cfgWith sent mgr field = some v) : v.isEmpty = false := by
  rw [cfgWith_eq_fill] at h
  unfold fill at h
  split at h
  · exact (present_some_iff.mp h).2
  · next hp _ => exact (present_some_iff.mp (hp.trans h)).2
  · next hp hv =>
    split_ifs at h
    · exact (present_some_iff.mp (hp.trans h)).2
    · exact (present_some_iff.mp (hv.trans h)).2

/-- What a benchmark runs with where nothing is set is the default of the request. -/
lemma present_benchmarked (sent : Sent) (mgr : ManagerProfile) (field : BenchmarkField) :
    present Value.isEmpty (some (benchmarked sent mgr field)) =
      (cfgWith sent mgr field).or
        (present Value.isEmpty (BenchmarkStartRequest.default field)) := by
  unfold benchmarked
  cases hcfg : cfgWith sent mgr field with
  | none => cases field <;> rfl
  | some v => exact present_some_iff.mpr ⟨rfl, isEmpty_of_cfgWith hcfg⟩

/-! ## When the guess is right -/

/-- The value of a field that is meant: the client's, else the profile's, else the default, where
null and the empty text are no values. -/
def meant (sent : Option (Option Value)) (default mgr : Option Value) : Option Value :=
  intended Value.isEmpty sent default mgr

/-- How a deployment gets a field wrong: `wazuh`, `default` or `ubuntu_22_04` was given, and the
profile has another value; or the version, the memory limit or the CPU shares were left out, and the
profile has others than the default; or nothing was given for a field that has a default, and the
profile has nothing either. -/
def DeployedWrong (sent : Sent) (mgr : ManagerProfile) (field : ProfileField) : Prop :=
  Wrong Value.isEmpty (takenForDefault field) false (sent field)
    (AgentDeploymentRequest.default field) (mgr field)

/-- How a benchmark gets a field wrong: `none` was given as the SIEM type, and the profile has
another; or the system or the group was left out, and the profile has another than the default. -/
def BenchmarkedWrong (sent : Sent) (mgr : ManagerProfile) (field : BenchmarkField) : Prop :=
  Wrong Value.isEmpty (fun v => decide (field = .siemType) && decide (v = word "none")) true
    (sent field.toField) (BenchmarkStartRequest.default field) (mgr field.toField)

/-- **A field has the value that is meant** exactly if it is not one of those that are guessed
wrong, in a deployment and in a benchmark. -/
theorem fills_in_iff (sent : Sent) (mgr : ManagerProfile) :
    (∀ field, present Value.isEmpty (deployed sent mgr field) =
        meant (sent field) (AgentDeploymentRequest.default field) (mgr field) ↔
      ¬DeployedWrong sent mgr field) ∧
    ∀ field, present Value.isEmpty (some (benchmarked sent mgr field)) =
        meant (sent field.toField) (BenchmarkStartRequest.default field) (mgr field.toField) ↔
      ¬BenchmarkedWrong sent mgr field := by
  refine ⟨fun field => ?_, fun field => ?_⟩
  · rw [deployed, present_merged, meant, DeployedWrong, ← fill_eq_intended_iff]
    simp
  · rw [present_benchmarked, cfgWith_eq_fill, cfg, meant, BenchmarkedWrong,
      ← fill_eq_intended_iff]
    simp

/-- A deployment that asks for `wazuh` gets the profile's type, and one that leaves out its memory
limit does not get the profile's. -/
theorem guessed_wrong :
    let sent : Sent := fun field => if field = .siemType then some (some (word "wazuh")) else none
    let mgr : ManagerProfile := fun field =>
      if field = .siemType then some (word "ossec")
      else if field = .memoryLimit then some (word "2GB") else none
    deployed sent mgr .siemType = some (word "ossec") ∧
      meant (sent .siemType) (AgentDeploymentRequest.default .siemType) (mgr .siemType) =
        some (word "wazuh") ∧
      deployed sent mgr .memoryLimit = some (word "512MB") ∧
      meant (sent .memoryLimit) (AgentDeploymentRequest.default .memoryLimit) (mgr .memoryLimit) =
        some (word "2GB") := by
  decide

end Habeny.Deploy.Profile
