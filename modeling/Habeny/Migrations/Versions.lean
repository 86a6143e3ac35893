import Mathlib.Data.List.Range
import Habeny.Lib.Steps
import Habeny.Migrations.Backups

/-!
# Schema versions

The migrations are numbered from 1, and the database records the version it is at.  `migrate`
applies the pending ones in order and `downgrade` undoes them in the opposite order, each in a
transaction of its own, with a backup before the first.

A step commits with the version it leads to, or raises and leaves the database; so what is left
is the result of the steps before it.  A database at a version that this release does not know
is refused by `migrate`.
-/

namespace Habeny.Migrations

open Habeny.Lib

variable {D : Type}

inductive Direction where
  | up
  | down
  deriving DecidableEq

/-- The content of a database: its tables, and the schema version it records. -/
structure Database (D : Type) where
  data : D
  version : ℕ
  deriving DecidableEq

/-- A migration.  It may raise, which leaves the problem's text. -/
structure Migration (D : Type) where
  version : ℕ
  name : Text
  up : D → Except Text D
  down : Option (D → Except Text D)

/-- The migrations of a release, numbered 1..n without gaps. -/
structure Release (D : Type) where
  migrations : List (Migration D)
  numbered : migrations.map Migration.version = List.range' 1 migrations.length

/-- The version that a release knows of. -/
def Release.latest (r : Release D) : ℕ := r.migrations.length

/-- What migrating depends on besides the backups: recording a step in the history and committing
it may raise, and so may beginning one (for a database that is locked). -/
structure MigrateEnv (D : Type) extends BackupEnv (Database D) where
  dbPath : Text
  hasTables : D → Bool
  record : Migration D → Direction → D → Except Text D
  locked : ℕ → Bool
  userVersion_eq : ∀ db, userVersion db = .ok db.version
  empty_version : empty.version = 0

/-- What a step changes.  Undoing a migration that cannot be undone would call nothing. -/
def Migration.change (m : Migration D) : Direction → D → Except Text D
  | .up => m.up
  | .down => m.down.getD fun _ => .error "'NoneType' object is not callable".toList

/-- The version after a step. -/
def Migration.versionAfter (m : Migration D) : Direction → ℕ
  | .up => m.version
  | .down => m.version - 1

/-! ## The texts -/

/-- A version with at least four digits. -/
def padded (version : ℕ) : Text := List.leftpad 4 '0' (Json.intText version)

/-- The error of a step that raised. -/
def stepFailed (m : Migration D) (problem : Text) : Direction → Failure
  | .up => .migrationError ("Migration v".toList ++ padded m.version ++ " (".toList ++ m.name
      ++ ") failed and was rolled back; the database is unchanged at v".toList
      ++ Json.intText (m.version - 1 : ℤ) ++ ": ".toList ++ problem)
  | .down => .migrationError ("Undoing v".toList ++ padded m.version
      ++ " failed and was rolled back: ".toList ++ problem)

def nothingToUndo (current : ℕ) : Failure :=
  .migrationError ("nothing to undo: the database is at v".toList ++ Json.intText current
    ++ ", the first version".toList)

def badTarget (current : ℕ) : Failure :=
  .migrationError ("can only downgrade to a version between 1 and ".toList
    ++ Json.intText (current - 1 : ℤ))

def cannotBeUndone (missing : List (Migration D)) : Failure :=
  .migrationError ((", ".toList).intercalate (missing.map fun m => 'v' :: padded m.version)
    ++ " can't be undone automatically; restore a backup instead (`habeny db restore`)".toList)

def beforeVersion (version : ℕ) : Text := "before-v".toList ++ Json.intText version

def beforeDowngrade (target : ℕ) : Text := "before-downgrade-v".toList ++ Json.intText target

namespace MigrateEnv

variable (env : MigrateEnv D)

def tooNew (current latest : ℕ) : Failure :=
  .migrationError ("The database (".toList ++ env.dbPath ++ ") is at schema v".toList
    ++ Json.intText current ++ ", but this Habeny only knows v".toList ++ Json.intText latest
    ++ ": it was upgraded by a newer version. Run the newer version, or restore the backup taken before the upgrade (`habeny db restore`; backups are in ".toList
    ++ env.directory ++ ").".toList)

/-! ## Applying steps -/

/-- One step, in its own transaction. -/
def step (direction : Direction) (m : Migration D) (db : Database D) :
    Except Failure (Database D) :=
  -- the transaction cannot begin
  if env.locked m.version then .error .other
  else
    match m.change direction db.data with
    | .error problem => .error (stepFailed m problem direction)
    | .ok changed =>
      match env.record m direction changed with
      | .error problem => .error (stepFailed m problem direction)
      | .ok data => .ok ⟨data, m.versionAfter direction⟩

/-- A backup, where one is wanted, and then the steps. -/
def applySteps (direction : Direction) (backupFails : Bool) (label : Option Text)
    (steps : List (Migration D)) (db : Database D) (files : Backups (Database D)) :
    Except Failure (List (Migration D)) × Store (Database D) :=
  let saved : Except Failure Unit × Backups (Database D) := match label with
    | none => (.ok (), files)
    | some label =>
      let (outcome, files) := env.backup backupFails label db files
      (outcome.map fun _ => (), files)
  match saved with
  | (.error e, files) => (.error e, ⟨some db, files⟩)
  | (.ok _, files) =>
    let (outcome, after) := runSteps (env.step direction) steps db
    (outcome.map fun _ => steps, ⟨some after, files⟩)

/-- Bring the database up to the latest version. Returns the migrations applied.  Connecting
makes an empty database if there is none. -/
def migrate (r : Release D) (backupFails makeBackup : Bool) (s : Store (Database D)) :
    Except Failure (List (Migration D)) × Store (Database D) :=
  let db := env.content s
  if r.latest < db.version then
    (.error (env.tooNew db.version r.latest), { s with database := some db })
  else
    let pending := r.migrations.filter fun m => decide (db.version < m.version)
    match pending.getLast? with
    | none => (.ok [], { s with database := some db })
    | some last =>
      let label := if makeBackup && env.hasTables db.data then some (beforeVersion last.version) else none
      env.applySteps .up backupFails label pending db s.backups

/-- Undo migrations down to `target`. Needs down() on each; backs up first. -/
def downgrade (r : Release D) (backupFails : Bool) (target : ℕ) (s : Store (Database D)) :
    Except Failure (List (Migration D)) × Store (Database D) :=
  let db := env.content s
  if db.version ≤ 1 then (.error (nothingToUndo db.version), { s with database := some db })
  else if ¬(1 ≤ target ∧ target < db.version) then
    (.error (badTarget db.version), { s with database := some db })
  else
    let steps := r.migrations.reverse.filter fun m =>
      decide (target < m.version ∧ m.version ≤ db.version)
    let missing := steps.filter fun m => m.down.isNone
    if ¬missing.isEmpty then (.error (cannotBeUndone missing), { s with database := some db })
    else env.applySteps .down backupFails (some (beforeDowngrade target)) steps db s.backups

/-! ## What is asked of the steps -/

/-- The versions above `c` up to `k`, in order. -/
def versionsUp (c k : ℕ) : List ℕ := List.range' (c + 1) (k - c)

/-- The versions from `c` down to the one above `t`. -/
def versionsDown (c t : ℕ) : List ℕ := (List.range' (t + 1) (c - t)).reverse

/-- The steps of these versions: they are applied in this order and nothing else is; or
something is raised, and the database is as the last step that was committed left it. -/
def Exact (r : Release D) (direction : Direction) (versions : List ℕ) (before : Database D)
    (outcome : Except Failure (List (Migration D))) (after : Database D) : Prop :=
  ∃ done, (∀ m ∈ done, m ∈ r.migrations) ∧ done.map Migration.version <+: versions ∧
    Commits (env.step direction) done before after ∧
    ∀ steps, outcome = .ok steps → done.map Migration.version = versions

/-- Migrating refuses a database that is too new, and leaves it; otherwise it applies the steps
above the database's version, and ends at the latest. -/
structure MigrateExact (r : Release D) (backupFails makeBackup : Bool) (s : Store (Database D)) :
    Prop where
  refuses : r.latest < (env.content s).version →
    (∃ e, (env.migrate r backupFails makeBackup s).1 = .error e) ∧
      env.content (env.migrate r backupFails makeBackup s).2 = env.content s
  exact : (env.content s).version ≤ r.latest →
    env.Exact r .up (versionsUp (env.content s).version r.latest) (env.content s)
      (env.migrate r backupFails makeBackup s).1
      (env.content (env.migrate r backupFails makeBackup s).2)
  ends : (env.content s).version ≤ r.latest → ∀ steps,
    (env.migrate r backupFails makeBackup s).1 = .ok steps →
      (env.content (env.migrate r backupFails makeBackup s).2).version = r.latest

/-- Downgrading undoes the steps from the database's version down to the target, and ends
there. -/
structure DowngradeExact (r : Release D) (backupFails : Bool) (target : ℕ)
    (s : Store (Database D)) : Prop where
  exact : env.Exact r .down (versionsDown (env.content s).version target) (env.content s)
    (env.downgrade r backupFails target s).1 (env.content (env.downgrade r backupFails target s).2)
  ends : ∀ steps, (env.downgrade r backupFails target s).1 = .ok steps →
    (env.content (env.downgrade r backupFails target s).2).version = target

/-! ## Numbered steps -/

lemma range'_split {c k : ℕ} (h : c ≤ k) :
    List.range' 1 k = List.range' 1 c ++ versionsUp c k := by
  rw [versionsUp, Nat.add_comm c 1, List.range'_append_1, Nat.add_sub_cancel' h]

lemma filter_above (c k : ℕ) :
    ((List.range' 1 k).filter fun v => decide (c < v)) = versionsUp c k := by
  rcases Nat.lt_or_ge k c with hlt | hle
  · have hnil : ((List.range' 1 k).filter fun v => decide (c < v)) = [] := by
      refine List.filter_eq_nil_iff.mpr fun v hv => ?_
      rw [List.mem_range'_1] at hv
      simp only [decide_eq_true_eq]
      omega
    rw [hnil, versionsUp, Nat.sub_eq_zero_of_le hlt.le, List.range'_zero]
  · have hbelow : ((List.range' 1 c).filter fun v => decide (c < v)) = [] := by
      refine List.filter_eq_nil_iff.mpr fun v hv => ?_
      rw [List.mem_range'_1] at hv
      simp only [decide_eq_true_eq]
      omega
    have habove : ((versionsUp c k).filter fun v => decide (c < v)) = versionsUp c k := by
      refine List.filter_eq_self.mpr fun v hv => ?_
      rw [versionsUp, List.mem_range'_1] at hv
      simp only [decide_eq_true_eq]
      omega
    rw [range'_split hle, List.filter_append, hbelow, habove, List.nil_append]

lemma filter_below (c k : ℕ) :
    ((List.range' 1 k).filter fun v => decide (v ≤ c)) = List.range' 1 (min c k) := by
  rcases Nat.le_total k c with hle | hle
  · rw [min_eq_right hle]
    refine List.filter_eq_self.mpr fun v hv => ?_
    rw [List.mem_range'_1] at hv
    simp only [decide_eq_true_eq]
    omega
  · have hbelow : ((List.range' 1 c).filter fun v => decide (v ≤ c)) = List.range' 1 c := by
      refine List.filter_eq_self.mpr fun v hv => ?_
      rw [List.mem_range'_1] at hv
      simp only [decide_eq_true_eq]
      omega
    have habove : ((versionsUp c k).filter fun v => decide (v ≤ c)) = [] := by
      refine List.filter_eq_nil_iff.mpr fun v hv => ?_
      rw [versionsUp, List.mem_range'_1] at hv
      simp only [decide_eq_true_eq]
      omega
    rw [range'_split hle, List.filter_append, hbelow, habove, List.append_nil, min_eq_left hle]

lemma filter_between (t c k : ℕ) :
    ((List.range' 1 k).filter fun v => decide (t < v ∧ v ≤ c)) = versionsUp t (min c k) := by
  have hboth : (fun v => decide (t < v ∧ v ≤ c)) = fun v => decide (t < v) && decide (v ≤ c) := by
    funext v
    exact Bool.decide_and _ _
  rw [hboth, ← List.filter_filter, filter_below, filter_above]

/-- The pending migrations. -/
lemma map_version_pending (r : Release D) (c : ℕ) :
    ((r.migrations.filter fun m => decide (c < m.version)).map Migration.version) =
      versionsUp c r.latest := by
  have hcomp : (fun m : Migration D => decide (c < m.version)) =
      (fun v => decide (c < v)) ∘ Migration.version := rfl
  rw [hcomp, ← List.filter_map, r.numbered, filter_above]
  rfl

/-- The migrations to undo: those that are known. -/
lemma map_version_steps (r : Release D) (c t : ℕ) :
    ((r.migrations.reverse.filter fun m => decide (t < m.version ∧ m.version ≤ c)).map
      Migration.version) = versionsDown (min c r.latest) t := by
  have hcomp : (fun m : Migration D => decide (t < m.version ∧ m.version ≤ c)) =
      (fun v => decide (t < v ∧ v ≤ c)) ∘ Migration.version := rfl
  rw [hcomp, ← List.filter_map, List.map_reverse, List.filter_reverse, r.numbered,
    filter_between]
  rfl

variable {env}

lemma step_version {direction : Direction} {m : Migration D} {db db' : Database D}
    (h : env.step direction m db = .ok db') : db'.version = m.versionAfter direction := by
  rw [step] at h
  split_ifs at h with hlocked
  split at h
  · exact absurd h (by simp)
  · split at h
    · exact absurd h (by simp)
    · rw [← Except.ok.inj h]

/-- Steps up from a version lead as far as there are steps. -/
lemma version_of_commits_up {done : List (Migration D)} {db after : Database D} {n : ℕ}
    (h : Commits (env.step .up) done db after)
    (hdone : done.map Migration.version <+: List.range' (db.version + 1) n) :
    after.version = db.version + done.length := by
  induction h generalizing n with
  | nil db => rfl
  | @cons m done db db' after hm hrest ih =>
    cases n with
    | zero => simp at hdone
    | succ n =>
      rw [List.range'_succ, List.map_cons, List.cons_prefix_cons] at hdone
      -- the first step is the one to the next version
      have hversion : db'.version = db.version + 1 := (step_version hm).trans hdone.1
      rw [ih (by rw [hversion]; exact hdone.2), hversion, List.length_cons]
      omega

/-- Steps down to a version lead down by as many as there are steps. -/
lemma version_of_commits_down {done : List (Migration D)} {db after : Database D} {t n : ℕ}
    (h : Commits (env.step .down) done db after)
    (hdone : done.map Migration.version <+: (List.range' (t + 1) n).reverse)
    (hdb : db.version = t + n) : after.version + done.length = t + n := by
  induction h generalizing n with
  | nil db => exact hdb
  | @cons m done db db' after hm hrest ih =>
    cases n with
    | zero => simp at hdone
    | succ n =>
      rw [List.range'_1_concat, List.reverse_append, List.reverse_singleton, List.singleton_append,
        List.map_cons, List.cons_prefix_cons] at hdone
      -- the first step undoes the version that the database has
      have hversion : db'.version = t + n := by
        rw [step_version hm, Migration.versionAfter, hdone.1]
        omega
      have hlength := ih hdone.2 hversion
      rw [List.length_cons]
      omega

/-! ## Applying steps -/

variable (env)

/-- Where the backup raises, no step is applied. -/
lemma applySteps_of_fails (direction : Direction) (label : Text) (steps : List (Migration D))
    (db : Database D) (files : Backups (Database D)) :
    ∃ files', env.applySteps direction true (some label) steps db files =
      (.error .other, ⟨some db, files'⟩) := by
  simp only [applySteps, BackupEnv.backup, env.userVersion_eq, if_true]
  exact ⟨_, rfl⟩

/-- Otherwise the steps are run. -/
lemma applySteps_of_saved {backupFails : Bool} {label : Option Text}
    (h : label = none ∨ backupFails = false) (direction : Direction) (steps : List (Migration D))
    (db : Database D) (files : Backups (Database D)) :
    ∃ files', env.applySteps direction backupFails label steps db files =
      ((runSteps (env.step direction) steps db).1.map fun _ => steps,
        ⟨some (runSteps (env.step direction) steps db).2, files'⟩) := by
  cases label with
  | none =>
    simp only [applySteps]
    exact ⟨_, rfl⟩
  | some label =>
    have hfails : backupFails = false := by simpa using h
    simp only [applySteps, BackupEnv.backup, env.userVersion_eq, hfails, Bool.false_eq_true,
      if_false]
    exact ⟨_, rfl⟩

variable {env}

/-- Nothing is applied when something is raised first. -/
lemma exact_of_error (r : Release D) (direction : Direction) (versions : List ℕ)
    (db : Database D) (e : Failure) : env.Exact r direction versions db (.error e) db := by
  refine ⟨[], ?_, ?_, .nil db, ?_⟩
  · intro m hm
    exact absurd hm List.not_mem_nil
  · exact List.nil_prefix
  · intro steps h
    exact absurd h (by simp)

/-- The steps of a release are applied exactly. -/
lemma applySteps_exact {r : Release D} {steps : List (Migration D)}
    (hsteps : ∀ m ∈ steps, m ∈ r.migrations) (direction : Direction) (backupFails : Bool)
    (label : Option Text) (db : Database D) (files : Backups (Database D)) :
    env.Exact r direction (steps.map Migration.version) db
      (env.applySteps direction backupFails label steps db files).1
      (env.content (env.applySteps direction backupFails label steps db files).2) := by
  have hcases : (∃ l, label = some l ∧ backupFails = true) ∨
      (label = none ∨ backupFails = false) := by
    cases label <;> cases backupFails <;> simp
  rcases hcases with ⟨l, rfl, rfl⟩ | hsaved
  · obtain ⟨files', happly⟩ := env.applySteps_of_fails direction l steps db files
    rw [happly]
    exact exact_of_error r direction _ db .other
  · obtain ⟨files', happly⟩ := env.applySteps_of_saved hsaved direction steps db files
    obtain ⟨done, hpre, hdone, hall⟩ := runSteps_commits (env.step direction) steps db
    rw [happly]
    refine ⟨done, fun m hm => hsteps m (hpre.subset hm), hpre.map _, hdone, ?_⟩
    intro steps' hok
    cases hrun : (runSteps (env.step direction) steps db).1 with
    | error e =>
      rw [hrun] at hok
      exact absurd hok (by simp [Except.map])
    | ok u => rw [hall hrun]

/-! ## Migrating -/

lemma migrate_of_newer {r : Release D} {s : Store (Database D)}
    (h : r.latest < (env.content s).version) (backupFails makeBackup : Bool) :
    env.migrate r backupFails makeBackup s =
      (.error (env.tooNew (env.content s).version r.latest),
        { s with database := some (env.content s) }) := if_pos h

/-- A known version: there is nothing to do, or the pending steps are applied. -/
lemma migrate_of_known {r : Release D} {s : Store (Database D)}
    (h : (env.content s).version ≤ r.latest) (backupFails makeBackup : Bool) :
    (versionsUp (env.content s).version r.latest = [] ∧
      env.migrate r backupFails makeBackup s =
        (.ok [], { s with database := some (env.content s) })) ∨
    ∃ label, env.migrate r backupFails makeBackup s = env.applySteps .up backupFails label
      (r.migrations.filter fun m => decide ((env.content s).version < m.version)) (env.content s)
      s.backups := by
  have hpending := map_version_pending r (env.content s).version
  simp only [migrate, if_neg (not_lt.mpr h)]
  split
  · rename_i hnone
    rw [List.getLast?_eq_none_iff.mp hnone] at hpending
    exact Or.inl ⟨hpending.symm, rfl⟩
  · exact Or.inr ⟨_, rfl⟩

/-- The steps above the database's version are applied exactly. -/
lemma migrate_applies {r : Release D} {s : Store (Database D)}
    (h : (env.content s).version ≤ r.latest) (backupFails makeBackup : Bool) :
    env.Exact r .up (versionsUp (env.content s).version r.latest) (env.content s)
      (env.migrate r backupFails makeBackup s).1
      (env.content (env.migrate r backupFails makeBackup s).2) := by
  rcases migrate_of_known h backupFails makeBackup with ⟨hnone, hmigrate⟩ | ⟨label, hmigrate⟩
  · rw [hmigrate, hnone]
    exact ⟨[], fun m hm => absurd hm List.not_mem_nil, List.prefix_refl [], .nil _, fun _ _ => rfl⟩
  · rw [hmigrate, ← map_version_pending]
    exact applySteps_exact (fun m hm => List.mem_of_mem_filter hm) .up backupFails label _ _

/-- **Migrating is exact.** -/
lemma migrate_exact (env : MigrateEnv D) (r : Release D) (backupFails makeBackup : Bool)
    (s : Store (Database D)) : env.MigrateExact r backupFails makeBackup s := by
  refine ⟨fun hnewer => ?_, fun h => migrate_applies h backupFails makeBackup, ?_⟩
  · rw [migrate_of_newer hnewer]
    exact ⟨⟨_, rfl⟩, rfl⟩
  · intro h steps hok
    obtain ⟨done, -, hpre, hdone, hall⟩ := migrate_applies h backupFails makeBackup
    have hlength := congrArg List.length (hall steps hok)
    rw [List.length_map, versionsUp, List.length_range'] at hlength
    rw [version_of_commits_up hdone hpre, hlength, Nat.add_sub_cancel' h]

end MigrateEnv

end Habeny.Migrations
