import Habeny.Backup.RoundTrip

/-!
# What of a restore was verified

The checks of an archive go along the names of its manifest, and a restore goes along what was
extracted.  What it puts in place has a SHA-256 in the manifest for exactly those files that the
manifest names; a file that it does not name is put in place all the same.
-/

namespace Habeny.Backup

open Habeny.Lib CodeText Checks

variable {C : Type}

namespace Env

variable {env : Env C} {root : FileTree C} {entries : JsonEntries}

/-! ## What is put in place -/

/-- The paths in an archive of what a restore puts in place: the database, the listed files, what
is below the listed directories, and the configuration. -/
def IsPlaced (p : Path) : Prop :=
  p = [platformDb] ∨ (∃ x ∈ backupFiles, p = [x]) ∨
    (∃ x ∈ backupDirectories, ∃ y q, p = x :: y :: q) ∨ p = [habenyConf]

/-- The content that a data directory has in the place of a path. -/
def contentAt (s : DataDir C) : Path → Option C
  | [] => none
  | [x] =>
    if x = platformDb then s.store.database
    else if x = habenyConf then s.files restoredConf
    else s.files x
  | x :: p => (s.directories x).bind fun t => t.file p

/-- The manifest has the SHA-256 of a content under the name of a path. -/
def IsListed (env : Env C) (entries : JsonEntries) (p : Path) (c : C) : Prop :=
  ∃ files, entries.lookup (lit "files") = some (.dict files) ∧
    ∃ e ∈ files, relative e.1 = some p ∧ env.HasDigest e.2 c

/-- A restore installs only verified content: what it puts in place of a file of the archive is
listed, and all else that is there then was there before. -/
structure Verified (env : Env C) (root : FileTree C) (entries : JsonEntries)
    (before after : DataDir C) : Prop where
  placed : ∀ p c, IsPlaced p → root.file p ≠ none → contentAt after p = some c →
    env.IsListed entries p c
  other_files : ∀ x c, after.files x = some c →
    (∃ p, IsPlaced p ∧ root.file p = some c) ∨ ∃ y, before.files y = some c
  other_directories : ∀ x t, after.directories x = some t →
    (x ∈ backupDirectories ∧ root.sub [x] = some t) ∨ ∃ y, before.directories y = some t
  other_databases : ∀ name c, after.store.backups.lookup name = some c →
    before.store.backups.lookup name = some c ∨ before.store.database = some c

/-- The manifest names every file of the archive that is put in place, and SQLite opens the
database as it is in its file. -/
structure Covered (env : Env C) (root : FileTree C) (entries : JsonEntries) : Prop where
  named : ∀ p, IsPlaced p → root.file p ≠ none → ∃ files,
    entries.lookup (lit "files") = some (.dict files) ∧ ∃ e ∈ files, relative e.1 = some p
  opened : ∀ c ∈ root.file [platformDb],
    env.sha256 (env.opened c (root.file [platformDbWal])) = env.sha256 c

/-- After a restore, what is in place is the database that SQLite opens, or the file. -/
lemma contentAt_place {before : DataDir C} {c : C} {store : Migrations.Store C}
    (hc : store.database = some c) {p : Path} (hp : IsPlaced p) (hfile : root.file p ≠ none) :
    contentAt (place root { before with store := store }) p =
      if p = [platformDb] then some c else root.file p := by
  have hapart : ∀ x ∈ backupFiles, x ≠ platformDb ∧ x ≠ habenyConf := by decide
  rcases hp with rfl | ⟨x, hx, rfl⟩ | ⟨x, hx, y, q, rfl⟩ | rfl
  · rw [contentAt, if_pos rfl, if_pos rfl]
    exact hc
  · obtain ⟨hdb, hconf⟩ := hapart x hx
    obtain ⟨content, hcontent⟩ := Option.ne_none_iff_exists'.mp hfile
    rw [contentAt, if_neg hdb, if_neg hconf, if_neg (by simp [hdb]), place_files_listed _ _ hx,
      hcontent]
    rfl
  · rw [if_neg (by simp)]
    obtain ⟨content, hcontent⟩ := Option.ne_none_iff_exists'.mp hfile
    have hdirectory : root.get [x] = some .directory :=
      FileTree.get_above (FileTree.file_eq_some_iff.mp hcontent) ⟨y :: q, rfl⟩ (by simp)
    obtain ⟨t, ht⟩ := FileTree.sub_eq_some hdirectory
    rw [contentAt, place_directories_listed _ _ hx, ht, Option.some_or, Option.bind_some,
      FileTree.file, FileTree.file, FileTree.get_sub ht]
    · rfl
    · simp
  · obtain ⟨content, hcontent⟩ := Option.ne_none_iff_exists'.mp hfile
    rw [if_neg (by decide), contentAt, if_neg (by decide), if_pos rfl, place_files_restoredConf,
      hcontent]
    rfl

/-- What a restore leaves in the data directory is of the archive, in its place, or was there. -/
lemma place_cases (root : FileTree C) (before : DataDir C) (store : Migrations.Store C) :
    (∀ x c, (place root { before with store := store }).files x = some c →
      (∃ p, IsPlaced p ∧ root.file p = some c) ∨ ∃ y, before.files y = some c) ∧
    ∀ x t, (place root { before with store := store }).directories x = some t →
      (x ∈ backupDirectories ∧ root.sub [x] = some t) ∨ ∃ y, before.directories y = some t := by
  have hfiles : ∀ x c, replaceEach (fun x => root.file [x]) backupFiles before.files x = some c →
      (∃ p, IsPlaced p ∧ root.file p = some c) ∨ ∃ y, before.files y = some c := by
    intro x c hx
    rcases replaceEach_cases apart_backupFiles hx with ⟨hmem, hfile⟩ | hold
    · exact .inl ⟨[x], .inr (.inl ⟨x, hmem, rfl⟩), hfile⟩
    · exact .inr hold
  constructor
  · intro x c hx
    by_cases heq : x = restoredConf
    · subst heq
      rw [place_files_restoredConf, Option.or_eq_some_iff] at hx
      rcases hx with hconf | ⟨-, hold⟩
      · exact .inl ⟨[habenyConf], .inr (.inr (.inr rfl)), hconf⟩
      · exact .inr ⟨restoredConf, hold⟩
    · rw [place_files_of_ne _ _ heq] at hx
      exact hfiles x c hx
  · intro x t hx
    rw [place_directories] at hx
    exact replaceEach_cases apart_backupDirectories hx

lemma lookup_backupsAfter_cases {before : Migrations.Store C} {name : Text} {c : C}
    (h : (env.backupsAfter before).lookup name = some c) :
    before.backups.lookup name = some c ∨ before.database = some c := by
  cases hold : before.database with
  | none =>
    rw [backupsAfter, hold] at h
    exact .inl h
  | some old =>
    rw [lookup_backupsAfter hold] at h
    split_ifs at h
    rw [Migrations.BackupEnv.withSafety, hold] at h
    dsimp only at h
    split at h
    · exact .inl h
    · next version _ =>
      by_cases hname : name = env.db.backupName version Migrations.beforeRestore
      · subst hname
        rw [AList.lookup_insert, Option.some.injEq] at h
        exact .inr (congrArg some h)
      · rw [AList.lookup_insert_ne hname] at h
        exact .inl h

/-! ## The exact condition -/

/-- A file that the manifest of an accepted archive names has the SHA-256 of its entry. -/
lemma Accepted.hasDigest {a : Archive C} (h : env.Accepted a root entries) {files : JsonEntries}
    (hfiles : entries.lookup (lit "files") = some (.dict files)) {e : CodeText × JsonValue}
    (he : e ∈ files) {p : Path} (hp : relative e.1 = some p) :
    ∃ c, root.file p = some c ∧ env.HasDigest e.2 c := by
  obtain ⟨files', hfiles', hcheck⟩ := h.files
  rw [manifestFiles, hfiles] at hfiles'
  cases hfiles'
  rcases checkFile_eq_ok_iff.mp (hcheck e he) with ⟨q, c, hq, hc, hdigest⟩ | ⟨hnone, -⟩
  · rw [hp, Option.some.injEq] at hq
    subst hq
    exact ⟨c, hc, hdigest⟩
  · rw [hp] at hnone
    exact absurd hnone (by simp)

lemma HasDigest.congr {entry : JsonValue} {c d : C} (h : env.HasDigest entry c)
    (hsha : env.sha256 d = env.sha256 c) : env.HasDigest entry d := by
  rw [HasDigest, hsha]
  exact h

lemma HasDigest.sha256_eq {entry : JsonValue} {c d : C} (hc : env.HasDigest entry c)
    (hd : env.HasDigest entry d) : env.sha256 c = env.sha256 d := by
  rw [HasDigest] at hc hd
  exact Option.some.inj (hc.symm.trans hd)

/-- A restore that goes through has accepted the archive. -/
lemma accepted_of_isOk {a : Archive C} {before : DataDir C}
    (h : (env.restoreBackup a before).1.isOk = true) :
    env.Readable before.store ∧ ∃ root entries, env.Accepted a root entries := by
  by_contra hnot
  obtain ⟨e, he⟩ := env.restoreBackup_of_refused (a := a) (s := before) fun hreadable root entries
    haccepted => hnot ⟨hreadable, root, entries, haccepted⟩
  rw [he] at h
  exact absurd h (by simp [Except.isOk, Except.toBool])

/-- A manifest that names the database. -/
def databaseManifest : JsonValue :=
  .dict [(lit "schema_version", .int 10),
    (lit "files", .dict [(lit "platform.db", .dict [(lit "sha256", .str [5])])])]

/-- An archive with a key that its manifest does not name. -/
def addedKey : Archive SampleContent :=
  .members [⟨lit "habeny-backup/platform.db", .file (.data 5)⟩,
    ⟨lit "habeny-backup/manifest.json", .file (.json databaseManifest)⟩,
    ⟨lit "habeny-backup/secret.key", .file (.data 6)⟩]

end Env

end Habeny.Backup
