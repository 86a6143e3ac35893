import Habeny.Lib.Table
import Habeny.Tenancy.Teams
import Mathlib.Data.Char
import Mathlib.Data.List.Lex
import Mathlib.Data.List.Perm.Subperm

/-!
# Syslog destinations become part of manager profiles

Migration 9.  A saved syslog config that is linked to a manager profile with the same address or
none moves onto that profile; every other one becomes a profile of its own, with a name that is
free.  The table of the configs is then dropped.  The way back makes a config of every manager
that has a syslog destination.

The schema makes ids and names unique, and so are they in `Table`: inserting a row that takes one
again fails, and then the migration does.
-/

namespace Habeny.Migrations

open Habeny.Lib Habeny.Tenancy

/-- A key of a row: its id or its name. -/
inductive UniqueKey where
  | id (t : Text)
  | name (t : Text)
  deriving DecidableEq

/-- A row of the table `managers`, with the columns `S` of a later version. -/
structure Manager (S : Type) where
  managerId : Option Text
  name : Text
  description : Option Text
  siemType : Text
  siemIp : Option Text
  siemVersion : Option Text
  siemAuthKey : Option Text
  osType : Option Text
  agentGroup : Option Text
  memoryLimit : Option Text
  cpuShares : Option ℤ
  configTemplateId : Option Text
  createdAt : Option Text
  updatedAt : Option Text
  detectionUrl : Option Text
  detectionUsername : Option Text
  detectionSecret : Option Text
  detectionFingerprint : Option Text
  syslog : S
  deriving DecidableEq

/-- The columns of migration 9. -/
structure SyslogColumns where
  port : Option ℤ
  protocol : Option Text
  deriving DecidableEq

/-- A row of the table `syslog_configs`. -/
structure SyslogConfig where
  configId : Option Text
  name : Text
  description : Option Text
  managerProfileId : Option Text
  targetIp : Text
  targetPort : Option ℤ
  protocol : Option Text
  siemType : Option Text
  enabled : Option ℤ
  createdAt : Option Text
  updatedAt : Option Text
  deriving DecidableEq

def Manager.keys {S : Type} (m : Manager S) : List UniqueKey :=
  .name m.name :: (m.managerId.map .id).toList

def SyslogConfig.keys (c : SyslogConfig) : List UniqueKey :=
  .name c.name :: (c.configId.map .id).toList

abbrev Managers (S : Type) := Table (Manager S) Manager.keys

/-- The tables of version 8. -/
structure Version8 where
  managers : Managers Unit
  configs : Table SyslogConfig SyslogConfig.keys

/-- The tables of version 9. -/
structure Version9 where
  managers : Managers SyslogColumns

/-- What the migration takes from its surroundings: `uuid4`, one value after another, and
`str.lower`. -/
structure SyslogEnv where
  uuid : ℕ → Text
  uuid_injective : Function.Injective uuid
  lower : Text → Text
  lower_lower : ∀ t, lower (lower t) = lower t
  lower_ne_nil : ∀ t, t ≠ [] → lower t ≠ []

/-! ## Free names -/

/-- The names that are tried, from the first on. -/
def candidate (name : Text) : ℕ → Text
  | 0 | 1 => name
  | 2 => name ++ " (syslog)".toList
  | n + 3 => name ++ " (syslog ".toList ++ number (n + 2) ++ ")".toList

/-- The loop of `_unique_name`, for as many rounds as `fuel` says. -/
def searchName (taken : List Text) (name : Text) : ℕ → ℕ → Option Text
  | 0, _ => none
  | fuel + 1, n =>
    if candidate name n ∈ taken then searchName taken name fuel (n + 1)
    else some (candidate name n)

lemma candidate_injOn (name : Text) {m n : ℕ} (hm : 1 ≤ m) (hn : 1 ≤ n)
    (h : candidate name m = candidate name n) : m = n := by
  -- behind the name come nothing, a bracket, or a blank and a number
  have hnumber : ∀ k : ℕ, (" (syslog ".toList ++ number k ++ ")".toList) ≠ " (syslog)".toList := by
    intro k heq
    have := congrArg (fun t => t[8]?) heq
    simp at this
  match m, n, hm, hn with
  | 1, 1, _, _ => rfl
  | 2, 2, _, _ => rfl
  | m + 3, n + 3, _, _ =>
    simp only [candidate, List.append_assoc, List.append_cancel_left_eq,
      List.append_cancel_right_eq] at h
    have := number_injective h
    omega
  | 1, 2, _, _ => simp [candidate] at h
  | 2, 1, _, _ => simp [candidate] at h
  | 1, n + 3, _, _ => simp [candidate] at h
  | m + 3, 1, _, _ => simp [candidate] at h
  | 2, n + 3, _, _ =>
    simp only [candidate, List.append_assoc, List.append_cancel_left_eq] at h
    exact absurd ((List.append_assoc ..).trans h.symm) (hnumber (n + 2))
  | m + 3, 2, _, _ =>
    simp only [candidate, List.append_assoc, List.append_cancel_left_eq] at h
    exact absurd ((List.append_assoc ..).trans h) (hnumber (m + 2))

/-- What is found is the first candidate that is not taken. -/
lemma searchName_spec {taken : List Text} {name found : Text} {fuel n : ℕ}
    (h : searchName taken name fuel n = some found) :
    ∃ k, n ≤ k ∧ found = candidate name k ∧ found ∉ taken ∧
      ∀ j, n ≤ j → j < k → candidate name j ∈ taken := by
  induction fuel generalizing n with
  | zero => cases h
  | succ fuel ih =>
    rw [searchName] at h
    split_ifs at h with htaken
    · obtain ⟨k, hk, hfound, hfree, hbefore⟩ := ih h
      refine ⟨k, by omega, hfound, hfree, fun j hj hjk => ?_⟩
      rcases Nat.lt_or_eq_of_le hj with hlt | rfl
      · exact hbefore j hlt hjk
      · exact htaken
    · obtain rfl := Option.some.inj h
      exact ⟨n, le_rfl, rfl, htaken, fun j hj hjk => absurd hjk (by omega)⟩

/-- While nothing is found, the candidates so far are all taken. -/
lemma searchName_eq_none {taken : List Text} {name : Text} {fuel n : ℕ}
    (h : searchName taken name fuel n = none) : ∀ j < fuel, candidate name (n + j) ∈ taken := by
  induction fuel generalizing n with
  | zero => exact fun j hj => absurd hj (Nat.not_lt_zero j)
  | succ fuel ih =>
    rw [searchName] at h
    split_ifs at h with htaken
    intro j hj
    cases j with
    | zero => exact htaken
    | succ j =>
      rw [show n + (j + 1) = n + 1 + j by omega]
      exact ih h j (by omega)

/-- The search ends: among more candidates than there are names one is free. -/
theorem searchName_ends (taken : List Text) (name : Text) {fuel : ℕ} (hfuel : taken.length < fuel) :
    (searchName taken name fuel 1).isSome = true := by
  rw [Option.isSome_iff_ne_none]
  intro hnone
  have hall := searchName_eq_none hnone
  have hnodup : ((List.range fuel).map fun j => candidate name (1 + j)).Nodup := by
    refine List.Nodup.map (fun i j h => ?_) List.nodup_range
    have := candidate_injOn name (by omega) (by omega) h
    omega
  have hsubset : ((List.range fuel).map fun j => candidate name (1 + j)) ⊆ taken := by
    intro t ht
    obtain ⟨j, hj, rfl⟩ := List.mem_map.mp ht
    exact hall j (List.mem_range.mp hj)
  have hle := (List.subperm_of_subset hnodup hsubset).length_le
  rw [List.length_map, List.length_range] at hle
  omega

/-- A name that no manager has (`_unique_name`). -/
def uniqueName (taken : List Text) (name : Text) : Text :=
  (searchName taken name (taken.length + 1) 1).get (searchName_ends taken name (Nat.lt_succ_self _))

lemma uniqueName_eq (taken : List Text) (name : Text) :
    searchName taken name (taken.length + 1) 1 = some (uniqueName taken name) :=
  (Option.some_get _).symm

lemma uniqueName_free (taken : List Text) (name : Text) : uniqueName taken name ∉ taken := by
  obtain ⟨k, -, -, hfree, -⟩ := searchName_spec (uniqueName_eq taken name)
  exact hfree

/-! ## Upwards -/

/-- `value or default` -/
def textOr (default : Text) : Option Text → Text
  | some (c :: t) => c :: t
  | some [] | none => default

/-- A text that is there and not empty. -/
def present : Option Text → Bool
  | some (_ :: _) => true
  | some [] | none => false

abbrev Destination := Text × ℤ × Text

section Up

variable (env : SyslogEnv) (now : Text)

def SyslogConfig.port (c : SyslogConfig) : ℤ :=
  match c.targetPort with
  | some port => if port = 0 then 514 else port
  | none => 514

def SyslogConfig.protocolName (c : SyslogConfig) : Text := env.lower (textOr "tcp".toList c.protocol)

/-- Where a config sends: its address, its port or 514, its protocol in lower case or tcp. -/
def SyslogConfig.destination (c : SyslogConfig) : Destination :=
  (c.targetIp, c.port, c.protocolName env)

/-- Where a manager sends. -/
def Manager.destination (m : Manager SyslogColumns) : Option Destination :=
  match m.siemIp, m.syslog.port, m.syslog.protocol with
  | some ip, some port, some protocol => some (ip, port, protocol)
  | _, _, _ => none

/-- The order of the configs: by the time of creation, where a missing one comes first, and by
name. -/
def SyslogConfig.before (c c' : SyslogConfig) : Bool :=
  match c.createdAt, c'.createdAt with
  | none, none => decide (c.name ≤ c'.name)
  | none, some _ => true
  | some _, none => false
  | some a, some b => if a = b then decide (c.name ≤ c'.name) else decide (a ≤ b)

def Version8.ordered (db : Version8) : List SyslogConfig :=
  db.configs.rows.mergeSort SyslogConfig.before

def Manager.addColumns (m : Manager Unit) : Manager SyslogColumns :=
  { m with syslog := ⟨none, none⟩ }

lemma keys_addColumns (m : Manager Unit) : m.addColumns.keys = m.keys := rfl

/-- `ALTER TABLE managers ADD COLUMN` -/
def addColumns (managers : Managers Unit) : Managers SyslogColumns :=
  managers.map Manager.addColumns keys_addColumns

/-- The manager profile a config is linked to. -/
def linked (managers : Managers SyslogColumns) (c : SyslogConfig) : Option (Manager SyslogColumns) :=
  if present c.managerProfileId then
    managers.rows.find? fun m => decide (m.managerId = c.managerProfileId)
  else none

/-- Whether a profile has no destination yet, and no address or the config's. -/
def takes (c : SyslogConfig) (m : Manager SyslogColumns) : Bool :=
  decide (m.syslog.port = none) && (!present m.siemIp || decide (m.siemIp = some c.targetIp))

/-- The profile with the destination of a config. -/
def Manager.withSyslog (m : Manager SyslogColumns) (c : SyslogConfig) : Manager SyslogColumns :=
  { m with
    siemIp := some c.targetIp
    syslog := ⟨some c.port, some (c.protocolName env)⟩
    updatedAt := some now }

/-- `UPDATE managers SET … WHERE manager_id = ?` -/
def setSyslog (c : SyslogConfig) (m : Manager SyslogColumns) : Manager SyslogColumns :=
  if m.managerId = c.managerProfileId then m.withSyslog env now c else m

lemma keys_setSyslog (c : SyslogConfig) (m : Manager SyslogColumns) :
    (setSyslog env now c m).keys = m.keys := by
  rw [setSyslog]
  split_ifs <;> rfl

/-- The profile of its own that a config becomes, with the defaults of the other columns. -/
def ownProfile (id name : Text) (c : SyslogConfig) : Manager SyslogColumns where
  managerId := some id
  name := name
  description := some (textOr "Syslog destination".toList c.description)
  siemType := "none".toList
  siemIp := some c.targetIp
  siemVersion := none
  siemAuthKey := none
  osType := some "ubuntu_22_04".toList
  agentGroup := some "default".toList
  memoryLimit := some "512MB".toList
  cpuShares := some 1024
  configTemplateId := none
  createdAt := some (textOr now c.createdAt)
  updatedAt := some now
  detectionUrl := none
  detectionUsername := none
  detectionSecret := none
  detectionFingerprint := none
  syslog := ⟨some c.port, some (c.protocolName env)⟩

/-- One config; the second component counts the ids that were made. -/
def addConfig (s : Managers SyslogColumns × ℕ) (c : SyslogConfig) :
    Option (Managers SyslogColumns × ℕ) :=
  if (linked s.1 c).any (takes c) then
    some (s.1.map (setSyslog env now c) (keys_setSyslog env now c), s.2)
  else
    (s.1.insert (ownProfile env now (env.uuid s.2) (uniqueName (s.1.rows.map Manager.name) c.name) c)).map
      fun managers => (managers, s.2 + 1)

/-- The migration; nothing when a row cannot be inserted.  The ids are made from `n` on. -/
def up (n : ℕ) (db : Version8) : Option (Version9 × ℕ) :=
  (db.ordered.foldlM (addConfig env now) (addColumns db.managers, n)).map fun s => (⟨s.1⟩, s.2)

end Up

/-! ## Downwards -/

section Down

variable (env : SyslogEnv) (now : Text)

/-- The config of a manager with a destination. -/
def configOf (id : Text) (m : Manager SyslogColumns) : Option SyslogConfig :=
  match m.syslog.port, m.siemIp with
  | some port, some (c :: ip) =>
    some
      { configId := some id
        name := m.name
        description := m.description
        managerProfileId := m.managerId
        targetIp := c :: ip
        targetPort := some port
        protocol := some (textOr "tcp".toList m.syslog.protocol)
        siemType := if m.siemType = "none".toList then none else some m.siemType
        enabled := some 1
        createdAt := some now
        updatedAt := some now }
  | _, _ => none

def addManager (s : Table SyslogConfig SyslogConfig.keys × ℕ) (m : Manager SyslogColumns) :
    Option (Table SyslogConfig SyslogConfig.keys × ℕ) :=
  match configOf now (env.uuid s.2) m with
  | none => some s
  | some c => (s.1.insert c).map fun configs => (configs, s.2 + 1)

def Manager.dropColumns (m : Manager SyslogColumns) : Manager Unit := { m with syslog := () }

lemma keys_dropColumns (m : Manager SyslogColumns) : m.dropColumns.keys = m.keys := rfl

/-- `ALTER TABLE managers DROP COLUMN` -/
def dropColumns (managers : Managers SyslogColumns) : Managers Unit :=
  managers.map Manager.dropColumns keys_dropColumns

/-- The way back. -/
def down (n : ℕ) (db : Version9) : Option (Version8 × ℕ) :=
  (db.managers.rows.foldlM (addManager env now) (Table.empty SyslogConfig.keys, n)).map fun s =>
    (⟨dropColumns db.managers, s.1⟩, s.2)

end Down

end Habeny.Migrations
