import Mathlib.Data.List.Lex
import Habeny.Lib.Json
import Habeny.Lib.Retention

/-!
# Backups of the database

A backup is a file named by the second, the schema version and a label.  `backup` copies the
database into it and keeps the newest files; `restore` copies a backup over the database, after
a backup of what is there.

That safety backup comes between choosing a file and reading it.  It may take the name of a file
that was made in the same second, and a file that is no longer among the newest is removed, the
chosen one included.
-/

namespace Habeny.Migrations

open Habeny.Lib

variable {α : Type}

/-- The files in the backup directory. -/
abbrev Backups (α : Type) := AList fun _ : Text => α

/-- The database, if there is one, and its backups. -/
structure Store (α : Type) where
  database : Option α
  backups : Backups α

/-- What is raised: a `MigrationError`, or another exception. -/
inductive Failure where
  | migrationError (message : Text)
  | other
  deriving DecidableEq

/-- What backing up depends on: the names, the second as a text, what SQLite says of a file (or
raises), and the latest schema version. -/
structure BackupEnv (α : Type) where
  directory : Text
  stem : Text
  stamp : Text
  userVersion : α → Except Text ℕ
  integrityOk : α → Except Text Bool
  latestVersion : ℕ
  empty : α

/-- A copy that raises: that of the safety backup, or that over the database. -/
inductive Fault where
  | safetyCopy
  | copy
  deriving DecidableEq

def keepBackups : ℕ := 10

def beforeRestore : Text := "before-restore".toList

namespace BackupEnv

variable (env : BackupEnv α)

/-! ## Backing up -/

def backupName (version : ℕ) (label : Text) : Text :=
  env.stem ++ "-".toList ++ env.stamp ++ "-v".toList ++ Json.intText version ++ "-".toList ++ label
    ++ ".db".toList

/-- Consistent copy of the live database, which keeps the newest backups.  When the copy raises,
a file that is there stays as it is, and an empty one is left where none was. -/
def backup (fails : Bool) (label : Text) (database : α) (files : Backups α) :
    Except Failure Text × Backups α :=
  match env.userVersion database with
  | .error _ => (.error .other, files)
  | .ok version =>
    let target := env.backupName version label
    if fails then
      (.error .other, if target ∈ files then files else files.insert target env.empty)
    else (.ok target, keepGreatest keepBackups (files.insert target database))

/-! ## Restoring -/

def path (name : Text) : Text := env.directory ++ "/".toList ++ name

def notFound (name : Text) : Failure := .migrationError (env.path name ++ " not found".toList)

def damaged (name : Text) : Failure :=
  .migrationError (env.path name ++ " is damaged (integrity check failed)".toList)

def notABackup (name problem : Text) : Failure :=
  .migrationError (env.path name ++ " isn't a Habeny database backup: ".toList ++ problem)

def newerSchema (name : Text) (version : ℕ) : Failure :=
  .migrationError (env.path name ++ " is schema v".toList ++ Json.intText version
    ++ ", newer than this Habeny (v".toList ++ Json.intText env.latestVersion ++ ")".toList)

/-- The checks of a file, and its schema version. -/
def checkSource (name : Text) (file : α) : Except Failure ℕ :=
  match env.integrityOk file with
  | .error problem => .error (env.notABackup name problem)
  | .ok false => .error (env.damaged name)
  | .ok true =>
    match env.userVersion file with
    | .error problem => .error (env.notABackup name problem)
    | .ok version =>
      if env.latestVersion < version then .error (env.newerSchema name version) else .ok version

/-- The checks of the chosen file. -/
def checkChosen (chosen : Text) (files : Backups α) : Except Failure ℕ :=
  match files.lookup chosen with
  | none => .error (env.notFound chosen)
  | some file => env.checkSource chosen file

/-- Copy the chosen file over the database.  It can no longer be opened when it was removed.  A
copy that raises leaves the content, in a database that was made for it if there was none. -/
def copyBack (fails : Bool) (chosen : Text) (version : ℕ) (s : Store α) :
    Except Failure ℕ × Store α :=
  match s.backups.lookup chosen with
  | none => (.error .other, s)
  | some file =>
    if fails then (.error .other, { s with database := some (s.database.getD env.empty) })
    else (.ok version, { s with database := some file })

/-- Replace the database with a backup. Returns the restored schema version. -/
def restore (fault : Option Fault) (chosen : Text) (s : Store α) : Except Failure ℕ × Store α :=
  match env.checkChosen chosen s.backups with
  | .error e => (.error e, s)
  | .ok version =>
    match s.database with
    | none => env.copyBack (fault == some .copy) chosen version s
    | some database =>
      match env.backup (fault == some .safetyCopy) beforeRestore database s.backups with
      | (.error e, files) => (.error e, { s with backups := files })
      | (.ok _, files) =>
        env.copyBack (fault == some .copy) chosen version { s with backups := files }

/-! ## What is asked of restoring -/

/-- The files once the safety backup is there. -/
def withSafety (s : Store α) : Backups α :=
  match s.database with
  | none => s.backups
  | some database =>
    match env.userVersion database with
    | .error _ => s.backups
    | .ok version => s.backups.insert (env.backupName version beforeRestore) database

/-- A name is among the newest once the safety backup is there. -/
def WithinRetention (s : Store α) (name : Text) : Prop :=
  rankIn (env.withSafety s).keys name < keepBackups

instance (s : Store α) (name : Text) : Decidable (env.WithinRetention s name) :=
  inferInstanceAs (Decidable (_ < _))

/-- The content of the database; none there is an empty one. -/
def content (s : Store α) : α := s.database.getD env.empty

/-- Restoring a backup loses no data: the database then holds what the chosen file held, and what
it held before is in a file; or something is raised, and it is as before.  The chosen file and
all others within the retention count keep their content. -/
structure LosesNothing (fault : Option Fault) (chosen : Text) (s : Store α) : Prop where
  restored : ∀ version, (env.restore fault chosen s).1 = .ok version →
    (env.restore fault chosen s).2.database = s.backups.lookup chosen
  previous_kept : ∀ version, (env.restore fault chosen s).1 = .ok version →
    ∀ database ∈ s.database, ∃ name, (env.restore fault chosen s).2.backups.lookup name = some database
  unchanged : ∀ e, (env.restore fault chosen s).1 = .error e →
    env.content (env.restore fault chosen s).2 = env.content s
  chosen_kept : (env.restore fault chosen s).2.backups.lookup chosen = s.backups.lookup chosen
  others_kept : ∀ name ∈ s.backups, env.WithinRetention s name →
    (env.restore fault chosen s).2.backups.lookup name = s.backups.lookup name

/-- The safety backup does no harm: the chosen name stays among the newest; a file that has the
safety backup's name, if that is among the newest, has the database's content; and unless the
copy raises, a name among the newest has it then. -/
structure Harmless (fault : Option Fault) (chosen : Text) (s : Store α) (database : α)
    (version : ℕ) : Prop where
  chosen_within : env.WithinRetention s chosen
  same_name : ∀ file, s.backups.lookup (env.backupName version beforeRestore) = some file →
    env.WithinRetention s (env.backupName version beforeRestore) → file = database
  database_within : fault = none →
    ∃ name, env.WithinRetention s name ∧ (env.withSafety s).lookup name = some database

/-- Restoring goes as far as a safety backup. -/
def BacksUp (fault : Option Fault) (chosen : Text) (s : Store α) (database : α) (version : ℕ) :
    Prop :=
  (∃ sourceVersion, env.checkChosen chosen s.backups = .ok sourceVersion) ∧
    s.database = some database ∧ env.userVersion database = .ok version ∧
    fault ≠ some .safetyCopy

/-! ## Without a safety backup -/

lemma restore_of_refused {fault : Option Fault} {chosen : Text} {s : Store α} {e : Failure}
    (h : env.checkChosen chosen s.backups = .error e) :
    env.restore fault chosen s = (.error e, s) := by
  rw [restore, h]

/-- Something is raised before any file has changed, or with one file more. -/
lemma losesNothing_of_error {fault : Option Fault} {chosen : Text} {s : Store α} {e : Failure}
    {files : Backups α} (h : env.restore fault chosen s = (.error e, { s with backups := files }))
    (hchosen : files.lookup chosen = s.backups.lookup chosen)
    (hothers : ∀ name ∈ s.backups, files.lookup name = s.backups.lookup name) :
    env.LosesNothing fault chosen s := by
  refine ⟨?_, ?_, ?_, ?_, ?_⟩
  · intro version hok
    rw [h] at hok
    exact absurd hok (by simp)
  · intro version hok
    rw [h] at hok
    exact absurd hok (by simp)
  · intro e' _
    rw [h]
    rfl
  · rw [h]
    exact hchosen
  · intro name hname _
    rw [h]
    exact hothers name hname

lemma checkChosen_ok {chosen : Text} {files : Backups α} {version : ℕ}
    (h : env.checkChosen chosen files = .ok version) : ∃ file, files.lookup chosen = some file := by
  rw [checkChosen] at h
  cases hfile : files.lookup chosen with
  | none => simp [hfile] at h
  | some file => exact ⟨file, rfl⟩

lemma copyBack_backups (fails : Bool) (chosen : Text) (version : ℕ) (s : Store α) :
    (env.copyBack fails chosen version s).2.backups = s.backups := by
  rw [copyBack]
  split
  · rfl
  · split_ifs <;> rfl

/-- Copying back a file that is there. -/
lemma copyBack_some {fails : Bool} {chosen : Text} {version : ℕ} {s : Store α} {file : α}
    (h : s.backups.lookup chosen = some file) :
    env.copyBack fails chosen version s =
      if fails then (.error .other, { s with database := some (s.database.getD env.empty) })
      else (.ok version, { s with database := some file }) := by
  rw [copyBack, h]

/-- Without a database there is nothing to lose. -/
lemma losesNothing_of_no_database {fault : Option Fault} {chosen : Text} {s : Store α}
    {version : ℕ} (h : env.checkChosen chosen s.backups = .ok version)
    (hnone : s.database = none) : env.LosesNothing fault chosen s := by
  obtain ⟨file, hfile⟩ := env.checkChosen_ok h
  have hrestore : env.restore fault chosen s =
      if (fault == some .copy) = true then
        (.error .other, { s with database := some (s.database.getD env.empty) })
      else (.ok version, { s with database := some file }) := by
    rw [restore, h]
    simp only [hnone]
    rw [env.copyBack_some hfile, hnone]
  split_ifs at hrestore with hfault
  · refine ⟨?_, ?_, ?_, ?_, ?_⟩ <;> rw [hrestore]
    · simp
    · simp
    · simp [content, hnone]
    · exact fun _ _ _ => rfl
  · refine ⟨?_, ?_, ?_, ?_, ?_⟩ <;> rw [hrestore]
    · simp [hfile]
    · simp [hnone]
    · simp
    · exact fun _ _ _ => rfl

/-- A safety backup that raises leaves all files. -/
lemma losesNothing_of_backup_error {fault : Option Fault} {chosen : Text} {s : Store α}
    {version : ℕ} {database : α} (h : env.checkChosen chosen s.backups = .ok version)
    (hdatabase : s.database = some database)
    (hfails : (∃ problem, env.userVersion database = .error problem) ∨ fault = some .safetyCopy) :
    env.LosesNothing fault chosen s := by
  obtain ⟨file, hfile⟩ := env.checkChosen_ok h
  cases hversion : env.userVersion database with
  | error problem =>
    have hrestore : env.restore fault chosen s = (.error .other, s) := by
      rw [restore, h]
      cases s with
      | mk current files =>
        subst hdatabase
        simp only [backup, hversion]
    exact env.losesNothing_of_error hrestore rfl fun _ _ => rfl
  | ok v =>
    have hfault : fault = some .safetyCopy := by
      rcases hfails with ⟨problem, hproblem⟩ | hfault
      · rw [hversion] at hproblem
        exact absurd hproblem (by simp)
      · exact hfault
    subst hfault
    have hrestore : env.restore (some .safetyCopy) chosen s = (.error .other, { s with
        backups := if env.backupName v beforeRestore ∈ s.backups then s.backups
          else s.backups.insert (env.backupName v beforeRestore) env.empty }) := by
      rw [restore, h]
      simp only [hdatabase, backup, hversion, beq_self_eq_true, if_true]
    have hkept : ∀ name ∈ s.backups,
        (if env.backupName v beforeRestore ∈ s.backups then s.backups
          else s.backups.insert (env.backupName v beforeRestore) env.empty).lookup name =
        s.backups.lookup name := by
      intro name hname
      split_ifs with hthere
      · rfl
      · have hne : name ≠ env.backupName v beforeRestore := fun heq => hthere (heq ▸ hname)
        exact AList.lookup_insert_ne hne
    have hchosen : chosen ∈ s.backups := AList.lookup_isSome.mp (by rw [hfile]; rfl)
    exact env.losesNothing_of_error hrestore (hkept chosen hchosen) hkept

/-! ## With a safety backup -/

variable {env}

lemma withSafety_eq {s : Store α} {database : α} {version : ℕ} (hdatabase : s.database = some database)
    (hversion : env.userVersion database = .ok version) :
    env.withSafety s = s.backups.insert (env.backupName version beforeRestore) database := by
  simp only [withSafety, hdatabase, hversion]

/-- What restoring does after its safety backup. -/
lemma restore_of_backsUp {fault : Option Fault} {chosen : Text} {s : Store α} {database : α}
    {version : ℕ} (h : env.BacksUp fault chosen s database version) :
    ∃ sourceVersion, env.restore fault chosen s =
      env.copyBack (fault == some .copy) chosen sourceVersion
        { s with backups := keepGreatest keepBackups (env.withSafety s) } := by
  obtain ⟨⟨sourceVersion, hcheck⟩, hdatabase, hversion, hfault⟩ := h
  have hfails : (fault == some Fault.safetyCopy) = false := by simpa using hfault
  refine ⟨sourceVersion, ?_⟩
  rw [restore, hcheck, withSafety_eq hdatabase hversion]
  simp only [hdatabase, backup, hversion, hfails, Bool.false_eq_true, if_false]

/-- The files then are the newest of those with the safety backup. -/
lemma lookup_restore {fault : Option Fault} {chosen : Text} {s : Store α} {database : α}
    {version : ℕ} (h : env.BacksUp fault chosen s database version) (name : Text) :
    (env.restore fault chosen s).2.backups.lookup name =
      if env.WithinRetention s name then (env.withSafety s).lookup name else none := by
  obtain ⟨sourceVersion, hrestore⟩ := restore_of_backsUp h
  rw [hrestore, copyBack_backups]
  exact lookup_keepGreatest keepBackups (env.withSafety s) name

/-- Where restoring loses nothing, the safety backup did no harm. -/
lemma harmless_of_losesNothing {fault : Option Fault} {chosen : Text} {s : Store α}
    {database : α} {version : ℕ} (h : env.BacksUp fault chosen s database version)
    (hnothing : env.LosesNothing fault chosen s) :
    env.Harmless fault chosen s database version := by
  obtain ⟨⟨sourceVersion, hcheck⟩, hdatabase, hversion, hfault⟩ := id h
  obtain ⟨file, hfile⟩ := env.checkChosen_ok hcheck
  have hwithin : env.WithinRetention s chosen := by
    -- a chosen file that is not among the newest was removed
    by_contra hnot
    have hkept := hnothing.chosen_kept
    rw [lookup_restore h, if_neg hnot, hfile] at hkept
    exact absurd hkept (by simp)
  have hkept := hnothing.chosen_kept
  rw [lookup_restore h, if_pos hwithin] at hkept
  refine ⟨hwithin, ?_, ?_⟩
  · intro other hother hname
    have hmem : env.backupName version beforeRestore ∈ s.backups :=
      AList.lookup_isSome.mp (by rw [hother]; rfl)
    -- the file of this name has the database's content now
    have hothers := hnothing.others_kept _ hmem hname
    rw [lookup_restore h, if_pos hname, withSafety_eq hdatabase hversion, AList.lookup_insert,
      hother] at hothers
    exact (Option.some.inj hothers).symm
  · intro hnone
    obtain ⟨sourceVersion, hrestore⟩ := restore_of_backsUp h
    have hcopy : env.restore fault chosen s = (.ok sourceVersion, { s with
        database := some file, backups := keepGreatest keepBackups (env.withSafety s) }) := by
      rw [hrestore, hnone]
      refine env.copyBack_some ((lookup_keepGreatest keepBackups (env.withSafety s) chosen).trans ?_)
      exact (if_pos hwithin).trans (hkept.trans hfile)
    obtain ⟨name, hname⟩ := hnothing.previous_kept sourceVersion (by rw [hcopy]) database hdatabase
    rw [lookup_restore h] at hname
    split_ifs at hname with hrank
    exact ⟨name, hrank, hname⟩

/-- A safety backup that does no harm loses nothing. -/
lemma losesNothing_of_harmless {fault : Option Fault} {chosen : Text} {s : Store α}
    {database : α} {version : ℕ} (h : env.BacksUp fault chosen s database version)
    (hharmless : env.Harmless fault chosen s database version) :
    env.LosesNothing fault chosen s := by
  obtain ⟨⟨_, hcheck⟩, hdatabase, hversion, hfault⟩ := id h
  obtain ⟨file, hfile⟩ := env.checkChosen_ok hcheck
  -- only the file of the safety backup's name was written
  have hkept : ∀ name ∈ s.backups, env.WithinRetention s name →
      (env.withSafety s).lookup name = s.backups.lookup name := by
    intro name hname hwithin
    rw [withSafety_eq hdatabase hversion]
    by_cases heq : name = env.backupName version beforeRestore
    · subst heq
      obtain ⟨other, hother⟩ := Option.isSome_iff_exists.mp (AList.lookup_isSome.mpr hname)
      rw [AList.lookup_insert, hother, hharmless.same_name other hother hwithin]
    · exact AList.lookup_insert_ne heq
  have hchosen : (env.withSafety s).lookup chosen = some file := by
    rw [hkept chosen (AList.lookup_isSome.mp (by rw [hfile]; rfl)) hharmless.chosen_within, hfile]
  obtain ⟨sourceVersion, hrestore⟩ := restore_of_backsUp h
  have hread : (keepGreatest keepBackups (env.withSafety s)).lookup chosen = some file := by
    rw [lookup_keepGreatest]
    exact (if_pos hharmless.chosen_within).trans hchosen
  rw [env.copyBack_some hread] at hrestore
  refine ⟨?_, ?_, ?_, ?_, ?_⟩
  · intro v hok
    rw [hrestore] at hok ⊢
    split_ifs at hok ⊢
    exact hfile.symm
  · intro v hok d hd
    -- the restore went through, so no copy raised
    have hnone : fault = none := by
      rw [hrestore] at hok
      split_ifs at hok with hcopy
      cases fault with
      | none => rfl
      | some f =>
        cases f with
        | safetyCopy => exact absurd rfl hfault
        | copy => exact absurd rfl hcopy
    obtain ⟨name, hwithin, hname⟩ := hharmless.database_within hnone
    refine ⟨name, ?_⟩
    rw [lookup_restore h, if_pos hwithin, hname, ← hdatabase]
    exact hd
  · intro e herror
    rw [hrestore] at herror ⊢
    split_ifs at herror ⊢
    simp [content, hdatabase]
  · rw [lookup_restore h, if_pos hharmless.chosen_within, hchosen, hfile]
  · intro name hname hwithin
    rw [lookup_restore h, if_pos hwithin, hkept name hname hwithin]

/-- **Restoring loses nothing exactly when no safety backup is made, or it does no harm.** -/
theorem losesNothing_iff (env : BackupEnv α) (fault : Option Fault) (chosen : Text)
    (s : Store α) :
    env.LosesNothing fault chosen s ↔
      ∀ database version, env.BacksUp fault chosen s database version →
        env.Harmless fault chosen s database version := by
  constructor
  · exact fun hnothing database version h => harmless_of_losesNothing h hnothing
  · intro hharmless
    cases hcheck : env.checkChosen chosen s.backups with
    | error e =>
      exact env.losesNothing_of_error (env.restore_of_refused hcheck) rfl fun _ _ => rfl
    | ok sourceVersion =>
      cases hdatabase : s.database with
      | none => exact env.losesNothing_of_no_database hcheck hdatabase
      | some database =>
        by_cases hfails :
            (∃ problem, env.userVersion database = .error problem) ∨ fault = some .safetyCopy
        · exact env.losesNothing_of_backup_error hcheck hdatabase hfails
        · obtain ⟨hreads, hfault⟩ := not_or.mp hfails
          cases hversion : env.userVersion database with
          | error problem => exact absurd ⟨problem, hversion⟩ hreads
          | ok version =>
            have h : env.BacksUp fault chosen s database version :=
              ⟨⟨sourceVersion, hcheck⟩, hdatabase, hversion, hfault⟩
            exact losesNothing_of_harmless h (hharmless database version h)

/-! ## Two losses -/

/-- A server whose database is at the latest version.  Contents are numbers here. -/
def sampleEnv : BackupEnv ℕ where
  directory := "backups".toList
  stem := "platform".toList
  stamp := "20260101-000000".toList
  userVersion := fun _ => .ok 10
  integrityOk := fun _ => .ok true
  latestVersion := 10
  empty := 0

/-- The backup made by a restore in the same second. -/
def sameSecond : Text := sampleEnv.backupName 10 beforeRestore

def sameSecondStore : Store ℕ where
  database := some 2
  backups := AList.insert sameSecond 1 ∅

/-- A backup made by hand, on one of ten days. -/
def dailyBackup (day : ℕ) : Text :=
  { sampleEnv with stamp := "2025120".toList ++ Json.intText day ++ "-000000".toList }.backupName 10
    "manual".toList

def dailyStore : Store ℕ where
  database := some 20
  backups := (List.range 10).foldl (fun files day => files.insert (dailyBackup day) day) ∅

/-- Undoing a restore within its second restores what is there already, and the content to go
back to is lost; with ten backups there, restoring the oldest removes it. -/
theorem restoring_loses :
    ((sampleEnv.restore none sameSecond sameSecondStore).1 = .ok 10 ∧
      sameSecondStore.backups.lookup sameSecond = some 1 ∧
      (sampleEnv.restore none sameSecond sameSecondStore).2.database = some 2 ∧
      ¬sampleEnv.LosesNothing none sameSecond sameSecondStore) ∧
    ((sampleEnv.restore none (dailyBackup 0) dailyStore).1 = .error .other ∧
      dailyStore.backups.lookup (dailyBackup 0) = some 0 ∧
      (sampleEnv.restore none (dailyBackup 0) dailyStore).2.backups.lookup (dailyBackup 0) = none ∧
      ¬sampleEnv.LosesNothing none (dailyBackup 0) dailyStore) := by
  have hsame : (sampleEnv.restore none sameSecond sameSecondStore).1 = .ok 10 ∧
      sameSecondStore.backups.lookup sameSecond = some 1 ∧
      (sampleEnv.restore none sameSecond sameSecondStore).2.database = some 2 := by
    decide +kernel
  have holdest : (sampleEnv.restore none (dailyBackup 0) dailyStore).1 = .error .other ∧
      dailyStore.backups.lookup (dailyBackup 0) = some 0 ∧
      (sampleEnv.restore none (dailyBackup 0) dailyStore).2.backups.lookup (dailyBackup 0)
        = none := by
    decide +kernel
  obtain ⟨hok, hone, htwo⟩ := hsame
  obtain ⟨herror, hzero, hgone⟩ := holdest
  refine ⟨⟨hok, hone, htwo, fun h => ?_⟩, ⟨herror, hzero, hgone, fun h => ?_⟩⟩
  · have hrestored := h.restored 10 hok
    rw [htwo, hone] at hrestored
    exact absurd hrestored (by simp)
  · have hkept := h.chosen_kept
    rw [hgone, hzero] at hkept
    exact absurd hkept (by simp)

end BackupEnv

end Habeny.Migrations
