import Habeny.Migrations.Versions

/-!
# Downgrading

A downgrade undoes the versions from the one recorded down to the target.  Of a database of a
newer release it undoes what it knows of and records the versions below, with the changes of the
newer versions still in place: schema versioning is exact unless such a downgrade gets past its
first step.
-/

namespace Habeny.Migrations

open Habeny.Lib

variable {D : Type}

namespace MigrateEnv

variable {env : MigrateEnv D}

/-! ## Downgrading -/

/-- What downgrading does with a target it accepts, when all steps can be undone. -/
lemma downgrade_of_undoable {r : Release D} {target : ℕ} {s : Store (Database D)}
    (htarget : 1 ≤ target) (hlt : target < (env.content s).version)
    (hdown : ∀ m ∈ r.migrations, target < m.version → m.version ≤ (env.content s).version →
      m.down ≠ none) (backupFails : Bool) :
    env.downgrade r backupFails target s =
      env.applySteps .down backupFails (some (beforeDowngrade target))
        (r.migrations.reverse.filter fun m =>
          decide (target < m.version ∧ m.version ≤ (env.content s).version))
        (env.content s) s.backups := by
  have hmissing : ((r.migrations.reverse.filter fun m =>
      decide (target < m.version ∧ m.version ≤ (env.content s).version)).filter
        fun m => m.down.isNone) = [] := by
    refine List.filter_eq_nil_iff.mpr fun m hm => ?_
    obtain ⟨hmem, hbetween⟩ := List.mem_filter.mp hm
    obtain ⟨habove, hbelow⟩ := of_decide_eq_true hbetween
    have hsome := hdown m (List.mem_reverse.mp hmem) habove hbelow
    simpa [Option.isNone_iff_eq_none] using hsome
  simp only [downgrade, if_neg (show ¬(env.content s).version ≤ 1 by omega),
    if_neg (not_not.mpr (And.intro htarget hlt)), hmissing]
  simp

/-- Otherwise it raises and leaves the database. -/
lemma downgrade_refused {r : Release D} {target : ℕ} {s : Store (Database D)}
    (h : ¬(1 ≤ target ∧ target < (env.content s).version) ∨
      ∃ m ∈ r.migrations, target < m.version ∧ m.version ≤ (env.content s).version ∧ m.down = none)
    (backupFails : Bool) :
    ∃ e, env.downgrade r backupFails target s =
      (.error e, { s with database := some (env.content s) }) := by
  simp only [downgrade]
  split_ifs with hfirst htarget hmissing
  · exact ⟨_, rfl⟩
  · rcases h with hbad | ⟨m, hm, habove, hbelow, hnone⟩
    · exact absurd htarget hbad
    · have hmem : m ∈ (r.migrations.reverse.filter fun m =>
          decide (target < m.version ∧ m.version ≤ (env.content s).version)).filter
            fun m => m.down.isNone := by
        refine List.mem_filter.mpr ⟨List.mem_filter.mpr ⟨List.mem_reverse.mpr hm, ?_⟩, ?_⟩
        · exact decide_eq_true ⟨habove, hbelow⟩
        · rw [hnone]
          rfl
      rw [List.isEmpty_iff.mp hmissing] at hmem
      exact absurd hmem List.not_mem_nil
  · exact ⟨_, rfl⟩
  · exact ⟨_, rfl⟩

lemma downgradeExact_of_error {r : Release D} {target : ℕ} {s : Store (Database D)}
    {backupFails : Bool} {e : Failure} {files : Backups (Database D)}
    (h : env.downgrade r backupFails target s = (.error e, ⟨some (env.content s), files⟩)) :
    env.DowngradeExact r backupFails target s := by
  refine ⟨?_, ?_⟩
  · rw [h]
    exact exact_of_error r .down _ _ e
  · intro steps hok
    rw [h] at hok
    exact absurd hok (by simp)

/-- From a version that the release knows of, downgrading is exact. -/
lemma downgradeExact_of_known {r : Release D} {s : Store (Database D)}
    (h : (env.content s).version ≤ r.latest) (backupFails : Bool) (target : ℕ) :
    env.DowngradeExact r backupFails target s := by
  by_cases htarget : 1 ≤ target ∧ target < (env.content s).version
  · by_cases hdown : ∃ m ∈ r.migrations,
        target < m.version ∧ m.version ≤ (env.content s).version ∧ m.down = none
    · obtain ⟨e, hrefused⟩ := downgrade_refused (Or.inr hdown) backupFails
      exact downgradeExact_of_error hrefused
    · have hall : ∀ m ∈ r.migrations, target < m.version → m.version ≤ (env.content s).version →
          m.down ≠ none := fun m hm habove hbelow hnone => hdown ⟨m, hm, habove, hbelow, hnone⟩
      have hexact : env.Exact r .down (versionsDown (env.content s).version target) (env.content s)
          (env.downgrade r backupFails target s).1
          (env.content (env.downgrade r backupFails target s).2) := by
        rw [downgrade_of_undoable htarget.1 htarget.2 hall, ← min_eq_left h, ← map_version_steps,
          min_eq_left h]
        exact applySteps_exact
          (fun m hm => List.mem_reverse.mp (List.mem_of_mem_filter hm)) .down backupFails _ _ _
      refine ⟨hexact, fun steps hok => ?_⟩
      obtain ⟨done, -, hpre, hdone, hsteps⟩ := hexact
      have hversion := version_of_commits_down hdone hpre (by omega)
      have hlength := congrArg List.length (hsteps steps hok)
      rw [List.length_map, versionsDown, List.length_reverse, List.length_range'] at hlength
      omega
  · obtain ⟨e, hrefused⟩ := downgrade_refused (Or.inl htarget) backupFails
    exact downgradeExact_of_error hrefused

/-! ## From a newer version -/

lemma version_le_latest {r : Release D} {m : Migration D} (hm : m ∈ r.migrations) :
    m.version ≤ r.latest := by
  have hmem : m.version ∈ List.range' 1 r.migrations.length := by
    rw [← r.numbered]
    exact List.mem_map_of_mem hm
  have hlt := (List.mem_range'_1.mp hmem).2
  rw [Release.latest]
  omega

/-- From a newer version no step may be undone. -/
lemma Exact.eq_of_newer {r : Release D} {target : ℕ} {db after : Database D}
    {outcome : Except Failure (List (Migration D))} (hnewer : r.latest < db.version)
    (htarget : target < db.version)
    (h : env.Exact r .down (versionsDown db.version target) db outcome after) :
    after = db ∧ ∀ steps, outcome ≠ .ok steps := by
  obtain ⟨done, hdone, hpre, hcommits, hall⟩ := h
  have hfirst : versionsDown db.version target =
      db.version :: versionsDown (db.version - 1) target := by
    have hlength : db.version - target = (db.version - 1 - target) + 1 := by omega
    rw [versionsDown, hlength, List.range'_1_concat, List.reverse_append, List.reverse_singleton,
      List.singleton_append, versionsDown]
    congr 1
    omega
  -- the first version to undo is one that no migration has
  have hnil : done = [] := by
    cases done with
    | nil => rfl
    | cons m done =>
      exfalso
      rw [hfirst, List.map_cons, List.cons_prefix_cons] at hpre
      have hle : m.version ≤ r.latest := version_le_latest (hdone m List.mem_cons_self)
      have hversion := hpre.1
      omega
  subst hnil
  refine ⟨hcommits.eq_of_nil, fun steps hok => ?_⟩
  have hempty := hall steps hok
  rw [hfirst] at hempty
  exact absurd hempty (by simp)

/-- The last migration has the latest version. -/
lemma version_last {r : Release D} {m : Migration D} (hm : r.migrations.getLast? = some m) :
    m.version = r.latest := by
  have hlast : (r.migrations.map Migration.version).getLast? = some m.version := by
    rw [List.getLast?_map, hm]
    rfl
  rw [r.numbered] at hlast
  rw [Release.latest]
  cases hlength : r.migrations.length with
  | zero =>
    rw [hlength] at hlast
    exact absurd hlast (by simp)
  | succ n =>
    rw [hlength, List.range'_1_concat, List.getLast?_concat, Option.some.injEq] at hlast
    omega

/-- Why a downgrade from a newer version stops before its first step is committed: a migration
that it would undo cannot be, the backup raises, or the step of the last known migration does. -/
def Stops (env : MigrateEnv D) (r : Release D) (backupFails : Bool) (target : ℕ)
    (db : Database D) : Prop :=
  (∃ m ∈ r.migrations, target < m.version ∧ m.down = none) ∨ backupFails = true ∨
    ∃ m e, r.migrations.getLast? = some m ∧ target < m.version ∧ env.step .down m db = .error e

/-- The steps from a newer version begin with the last known migration. -/
lemma steps_of_last {r : Release D} {m : Migration D} {target c : ℕ}
    (hm : r.migrations.getLast? = some m) (hnewer : r.latest < c) (htarget : target < m.version) :
    ∃ rest, (r.migrations.reverse.filter fun m =>
        decide (target < m.version ∧ m.version ≤ c)) = m :: rest ∧
      rest.map Migration.version = versionsDown (r.latest - 1) target := by
  have hversion := version_last hm
  obtain ⟨init, hinit⟩ := List.getLast?_eq_some_iff.mp hm
  have hsteps : (r.migrations.reverse.filter fun m =>
      decide (target < m.version ∧ m.version ≤ c)) =
      m :: init.reverse.filter fun m => decide (target < m.version ∧ m.version ≤ c) := by
    rw [hinit, List.reverse_append, List.reverse_singleton, List.singleton_append]
    have hbetween : target < m.version ∧ m.version ≤ c := ⟨htarget, by omega⟩
    exact List.filter_cons_of_pos (decide_eq_true hbetween)
  refine ⟨_, hsteps, ?_⟩
  have hmap := map_version_steps r c target
  have hlength : r.latest - target = (r.latest - 1 - target) + 1 := by omega
  rw [hsteps, min_eq_right hnewer.le, versionsDown, hlength, List.range'_1_concat,
    List.reverse_append, List.reverse_singleton, List.singleton_append, List.map_cons] at hmap
  exact (List.cons.inj hmap).2

/-- From a newer version a downgrade is exact when it stops. -/
lemma downgradeExact_of_stops {r : Release D} {backupFails : Bool} {target : ℕ}
    {s : Store (Database D)} (hnewer : r.latest < (env.content s).version)
    (htarget : 1 ≤ target) (hlt : target < (env.content s).version)
    (h : env.Stops r backupFails target (env.content s)) :
    env.DowngradeExact r backupFails target s := by
  by_cases hdown : ∃ m ∈ r.migrations, target < m.version ∧ m.down = none
  · obtain ⟨m, hm, habove, hnone⟩ := hdown
    have hbelow : m.version ≤ (env.content s).version := (version_le_latest hm).trans hnewer.le
    obtain ⟨e, hrefused⟩ := downgrade_refused (Or.inr ⟨m, hm, habove, hbelow, hnone⟩) backupFails
    exact downgradeExact_of_error hrefused
  · have hundoable := downgrade_of_undoable htarget hlt
      (fun m hm habove _ hnone => hdown ⟨m, hm, habove, hnone⟩) backupFails
    cases backupFails with
    | true =>
      obtain ⟨files', happly⟩ := env.applySteps_of_fails .down (beforeDowngrade target) _
        (env.content s) s.backups
      exact downgradeExact_of_error (hundoable.trans happly)
    | false =>
      rcases h with hmissing | hfails | ⟨m, e, hm, habove, hstep⟩
      · exact absurd hmissing hdown
      · exact absurd hfails (by decide)
      · obtain ⟨rest, hsteps, -⟩ := steps_of_last hm hnewer habove
        obtain ⟨files', happly⟩ := env.applySteps_of_saved
          (Or.inr rfl : some (beforeDowngrade target) = none ∨ false = false) .down (m :: rest)
          (env.content s) s.backups
        rw [runSteps_of_error hstep] at happly
        rw [hsteps] at hundoable
        exact downgradeExact_of_error (hundoable.trans happly)

/-- From a newer version an exact downgrade stops. -/
lemma stops_of_downgradeExact {r : Release D} {backupFails : Bool} {target : ℕ}
    {s : Store (Database D)} (hnewer : r.latest < (env.content s).version)
    (htarget : 1 ≤ target) (hlt : target < (env.content s).version)
    (h : env.DowngradeExact r backupFails target s) :
    env.Stops r backupFails target (env.content s) := by
  by_contra hstops
  obtain ⟨hdown, hstops⟩ := not_or.mp hstops
  obtain ⟨hbackup, hstep⟩ := not_or.mp hstops
  -- nothing stops it, so the steps are run
  have hfails : backupFails = false := by simpa using hbackup
  obtain ⟨files', happly⟩ := env.applySteps_of_saved
    (Or.inr hfails : some (beforeDowngrade target) = none ∨ backupFails = false) .down
    (r.migrations.reverse.filter fun m =>
      decide (target < m.version ∧ m.version ≤ (env.content s).version))
    (env.content s) s.backups
  have hresult := (downgrade_of_undoable (r := r) htarget hlt
    (fun m hm habove _ hnone => hdown ⟨m, hm, habove, hnone⟩) backupFails).trans happly
  obtain ⟨hsame, hraises⟩ := h.exact.eq_of_newer hnewer hlt
  rw [hresult] at hsame hraises
  cases hm : r.migrations.getLast? with
  | none =>
    rw [List.getLast?_eq_none_iff.mp hm] at hraises
    exact hraises [] rfl
  | some m =>
    rcases Nat.lt_or_ge target m.version with habove | hbelow
    · obtain ⟨rest, hsteps, hrest⟩ := steps_of_last hm hnewer habove
      cases hcommit : env.step .down m (env.content s) with
      | error e => exact hstep ⟨m, e, hm, habove, hcommit⟩
      | ok db =>
        -- the first step is committed, and the versions from there on are known ones
        obtain ⟨done, hpre, hdone, -⟩ := runSteps_commits (env.step .down) rest db
        have hversion := version_last hm
        have hdb : db.version = target + (r.latest - 1 - target) := by
          rw [step_version hcommit, Migration.versionAfter]
          omega
        have hversions : done.map Migration.version <+:
            (List.range' (target + 1) (r.latest - 1 - target)).reverse := by
          have hmap := hpre.map Migration.version
          rwa [hrest, versionsDown] at hmap
        have hbound := version_of_commits_down hdone hversions hdb
        rw [hsteps, runSteps_of_ok hcommit] at hsame
        have hafter := congrArg Database.version hsame
        simp only [BackupEnv.content, Option.getD_some] at hafter hnewer hlt
        omega
    · have hnone : (r.migrations.reverse.filter fun m =>
          decide (target < m.version ∧ m.version ≤ (env.content s).version)) = [] := by
        have hmap := map_version_steps r (env.content s).version target
        rw [min_eq_right hnewer.le, versionsDown,
          Nat.sub_eq_zero_of_le ((version_last hm) ▸ hbelow)] at hmap
        exact List.map_eq_nil_iff.mp hmap
      rw [hnone] at hraises
      exact hraises [] rfl

/-- **Schema versioning is exact unless a downgrade from a newer version gets past its first
step.** -/
theorem versioning_exact_iff (env : MigrateEnv D) (r : Release D) (backupFails : Bool)
    (target : ℕ) (s : Store (Database D)) :
    ((∀ backupFails makeBackup, env.MigrateExact r backupFails makeBackup s) ∧
        env.DowngradeExact r backupFails target s) ↔
      (r.latest < (env.content s).version → 1 ≤ target → target < (env.content s).version →
        env.Stops r backupFails target (env.content s)) := by
  constructor
  · rintro ⟨-, h⟩ hnewer htarget hlt
    exact stops_of_downgradeExact hnewer htarget hlt h
  · intro h
    refine ⟨fun backupFails makeBackup => migrate_exact env r backupFails makeBackup s, ?_⟩
    rcases Nat.lt_or_ge r.latest (env.content s).version with hnewer | hknown
    · by_cases htarget : 1 ≤ target ∧ target < (env.content s).version
      · exact downgradeExact_of_stops hnewer htarget.1 htarget.2 (h hnewer htarget.1 htarget.2)
      · obtain ⟨e, hrefused⟩ := downgrade_refused (r := r) (Or.inl htarget) backupFails
        exact downgradeExact_of_error hrefused
    · exact downgradeExact_of_known hknown backupFails target

/-! ## A database of the next release -/

/-- A migration that adds a table, named by its number, and can be undone.  The data are the
tables and the history. -/
def sampleMigration (version : ℕ) : Migration (List ℕ × List (ℕ × Direction)) where
  version := version
  name := "table".toList
  up := fun d => .ok (d.1 ++ [version], d.2)
  down := some fun d => .ok (d.1.erase version, d.2)

def sampleRelease : Release (List ℕ × List (ℕ × Direction)) where
  migrations := [sampleMigration 1, sampleMigration 2]
  numbered := rfl

def sampleMigrateEnv : MigrateEnv (List ℕ × List (ℕ × Direction)) where
  directory := "backups".toList
  stem := "platform".toList
  stamp := "20260101-000000".toList
  userVersion := fun db => .ok db.version
  integrityOk := fun _ => .ok true
  latestVersion := 2
  empty := ⟨([], []), 0⟩
  dbPath := "platform.db".toList
  hasTables := fun d => !d.1.isEmpty
  record := fun m direction d => .ok (d.1, d.2 ++ [(m.version, direction)])
  locked := fun _ => false
  userVersion_eq := fun _ => rfl
  empty_version := rfl

/-- The database of a release with a third migration. -/
def newerStore : Store (Database (List ℕ × List (ℕ × Direction))) where
  database := some ⟨([1, 2, 3], [(1, .up), (2, .up), (3, .up)]), 3⟩
  backups := ∅

/-- The second migration is undone and version 1 is recorded, with the third one's table still
there. -/
theorem downgrade_skips_newer :
    (sampleMigrateEnv.downgrade sampleRelease false 1 newerStore).1.map
        (fun steps => steps.map Migration.version) = .ok [2] ∧
      sampleMigrateEnv.content (sampleMigrateEnv.downgrade sampleRelease false 1 newerStore).2 =
        ⟨([1, 3], [(1, .up), (2, .up), (3, .up), (2, .down)]), 1⟩ ∧
      ¬sampleMigrateEnv.DowngradeExact sampleRelease false 1 newerStore := by
  have hafter : sampleMigrateEnv.content
      (sampleMigrateEnv.downgrade sampleRelease false 1 newerStore).2 =
        ⟨([1, 3], [(1, .up), (2, .up), (3, .up), (2, .down)]), 1⟩ := by
    decide +kernel
  have hnewer : sampleRelease.latest < (sampleMigrateEnv.content newerStore).version := by
    decide
  have htarget : 1 < (sampleMigrateEnv.content newerStore).version := by
    decide
  refine ⟨by decide +kernel, hafter, fun h => ?_⟩
  have hsame := (h.exact.eq_of_newer hnewer htarget).1
  rw [hafter] at hsame
  exact absurd (congrArg Database.version hsame) (by decide)

end MigrateEnv

end Habeny.Migrations
