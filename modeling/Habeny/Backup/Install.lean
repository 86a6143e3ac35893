import Habeny.Backup.Archive

/-!
# What a restore puts in place

A restore that accepts an archive puts the database, the files and the directories of the archive
in place, and one that does not leaves all as it is.  Besides, it raises where a database is that
no safety copy can be made of.
-/

namespace Habeny.Backup

open Habeny.Lib CodeText Checks

variable {C : Type}

/-! ## Putting entries in place -/

section Replace

variable {V : Type} {new current : EntryName → Option V} {x a : EntryName} {xs : List EntryName}

lemma aside_ne (x : EntryName) : aside x ≠ x := by
  intro h
  have hlength := congrArg (fun y : EntryName => y.val.length) h
  simp [aside, lit] at hlength

lemma replaceEntry_self : Env.replaceEntry new current x x = (new x).or (current x) := by
  rw [Env.replaceEntry]
  cases new x with
  | none => rfl
  | some v => exact Function.update_self ..

lemma replaceEntry_aside : Env.replaceEntry new current x (aside x) =
    if (new x).isSome ∧ (current x).isSome then current x else current (aside x) := by
  rw [Env.replaceEntry]
  cases new x with
  | none => rfl
  | some v =>
    dsimp only
    rw [Function.update_of_ne (aside_ne x)]
    cases hold : current x <;> simp

lemma replaceEntry_of_ne (hx : a ≠ x) (haside : a ≠ aside x) :
    Env.replaceEntry new current x a = current a := by
  rw [Env.replaceEntry]
  cases new x with
  | none => rfl
  | some v =>
    dsimp only
    rw [Function.update_of_ne hx]
    cases current x with
    | none => rfl
    | some old => exact Function.update_of_ne haside ..

lemma replaceEach_cons : Env.replaceEach new (x :: xs) current =
    Env.replaceEach new xs (Env.replaceEntry new current x) := rfl

/-- What is neither listed nor an aside of what is listed stays. -/
lemma replaceEach_of_ne (hx : ∀ x ∈ xs, a ≠ x) (haside : ∀ x ∈ xs, a ≠ aside x) :
    Env.replaceEach new xs current a = current a := by
  induction xs generalizing current with
  | nil => rfl
  | cons x xs ih =>
    rw [replaceEach_cons, ih (fun y hy => hx y (List.mem_cons_of_mem x hy)) fun y hy =>
      haside y (List.mem_cons_of_mem x hy)]
    exact replaceEntry_of_ne (hx x List.mem_cons_self) (haside x List.mem_cons_self)

/-- Names that differ, none of which is the aside of another. -/
def Apart (xs : List EntryName) : Prop := xs.Nodup ∧ ∀ x ∈ xs, ∀ y ∈ xs, aside x ≠ y

instance : DecidablePred Apart := fun _ => inferInstanceAs (Decidable (_ ∧ _))

lemma Apart.tail (h : Apart (x :: xs)) : Apart xs :=
  ⟨(List.nodup_cons.mp h.1).2, fun y hy z hz =>
    h.2 y (List.mem_cons_of_mem x hy) z (List.mem_cons_of_mem x hz)⟩

/-- In a listed place there is the new entry, or else the old one. -/
lemma replaceEach_listed (h : Apart xs) (ha : a ∈ xs) :
    Env.replaceEach new xs current a = (new a).or (current a) := by
  induction xs generalizing current with
  | nil => exact absurd ha List.not_mem_nil
  | cons x xs ih =>
    have hx : x ∉ xs := (List.nodup_cons.mp h.1).1
    rw [replaceEach_cons]
    by_cases heq : a = x
    · subst heq
      rw [replaceEach_of_ne (fun y hy (hay : a = y) => hx (hay ▸ hy)) fun y hy hay =>
        h.2 y (List.mem_cons_of_mem a hy) a List.mem_cons_self hay.symm]
      exact replaceEntry_self
    · have hmem : a ∈ xs := (List.mem_cons.mp ha).resolve_left heq
      rw [ih h.tail hmem, replaceEntry_of_ne heq]
      exact fun hax => h.2 x List.mem_cons_self a ha hax.symm

/-- What a new entry replaced is kept aside. -/
lemma replaceEach_aside (h : Apart xs) (ha : a ∈ xs) : Env.replaceEach new xs current (aside a) =
    if (new a).isSome ∧ (current a).isSome then current a else current (aside a) := by
  induction xs generalizing current with
  | nil => exact absurd ha List.not_mem_nil
  | cons x xs ih =>
    have hx : x ∉ xs := (List.nodup_cons.mp h.1).1
    rw [replaceEach_cons]
    by_cases heq : a = x
    · subst heq
      rw [replaceEach_of_ne (fun y hy => h.2 a ha y (List.mem_cons_of_mem a hy)) fun y hy hay =>
        hx (aside_injective hay ▸ hy), replaceEntry_aside]
    · have hmem : a ∈ xs := (List.mem_cons.mp ha).resolve_left heq
      have hself : Env.replaceEntry new current x a = current a :=
        replaceEntry_of_ne heq fun hax => h.2 x List.mem_cons_self a ha hax.symm
      have haside : Env.replaceEntry new current x (aside a) = current (aside a) :=
        replaceEntry_of_ne (h.2 a ha x List.mem_cons_self) fun hax => heq (aside_injective hax)
      rw [ih h.tail hmem, hself, haside]

/-- What is there afterwards is a new entry in its place, or was there before. -/
lemma replaceEach_cases (h : Apart xs) {v : V} (hv : Env.replaceEach new xs current a = some v) :
    (a ∈ xs ∧ new a = some v) ∨ ∃ b, current b = some v := by
  by_cases ha : a ∈ xs
  · rw [replaceEach_listed h ha, Option.or_eq_some_iff] at hv
    rcases hv with hnew | ⟨-, hold⟩
    · exact .inl ⟨ha, hnew⟩
    · exact .inr ⟨a, hold⟩
  · by_cases haside : ∃ x ∈ xs, a = aside x
    · obtain ⟨x, hx, rfl⟩ := haside
      rw [replaceEach_aside h hx] at hv
      split_ifs at hv
      · exact .inr ⟨x, hv⟩
      · exact .inr ⟨aside x, hv⟩
    · rw [replaceEach_of_ne (fun x hx (heq : a = x) => ha (heq ▸ hx)) fun x hx heq =>
        haside ⟨x, hx, heq⟩] at hv
      exact .inr ⟨a, hv⟩

lemma apart_backupFiles : Apart backupFiles := by decide

lemma apart_backupDirectories : Apart backupDirectories := by decide

end Replace

namespace Env

variable (env : Env C)

/-! ## What is put in place -/

@[simp] lemma place_store (root : FileTree C) (s : DataDir C) :
    (place root s).store = s.store := rfl

lemma place_directories (root : FileTree C) (s : DataDir C) : (place root s).directories =
    replaceEach (fun x => root.sub [x]) backupDirectories s.directories := rfl

lemma place_files_of_ne (root : FileTree C) (s : DataDir C) {x : EntryName} (h : x ≠ restoredConf) :
    (place root s).files x = replaceEach (fun x => root.file [x]) backupFiles s.files x := by
  simp only [place]
  cases root.file [habenyConf] with
  | none => rfl
  | some c => exact Function.update_of_ne h _ _

/-- The configuration of a backup is put beside that of the server. -/
lemma place_files_restoredConf (root : FileTree C) (s : DataDir C) :
    (place root s).files restoredConf = (root.file [habenyConf]).or (s.files restoredConf) := by
  have hother : replaceEach (fun x => root.file [x]) backupFiles s.files restoredConf =
      s.files restoredConf := replaceEach_of_ne (by decide) (by decide)
  simp only [place]
  cases root.file [habenyConf] with
  | none => exact hother
  | some c => exact Function.update_self ..

/-- A listed file is that of the archive, or else the one that was there. -/
lemma place_files_listed (root : FileTree C) (s : DataDir C) {x : EntryName}
    (hx : x ∈ backupFiles) : (place root s).files x = (root.file [x]).or (s.files x) := by
  have hconf : ∀ x ∈ backupFiles, x ≠ restoredConf := by decide
  rw [place_files_of_ne root s (hconf x hx)]
  exact replaceEach_listed apart_backupFiles hx

lemma place_files_aside (root : FileTree C) (s : DataDir C) {x : EntryName}
    (hx : x ∈ backupFiles) : (place root s).files (aside x) =
      if (root.file [x]).isSome ∧ (s.files x).isSome then s.files x else s.files (aside x) := by
  have hconf : ∀ x ∈ backupFiles, aside x ≠ restoredConf := by decide
  rw [place_files_of_ne root s (hconf x hx)]
  exact replaceEach_aside apart_backupFiles hx

/-- A listed directory is that of the archive, or else the one that was there. -/
lemma place_directories_listed (root : FileTree C) (s : DataDir C) {x : EntryName}
    (hx : x ∈ backupDirectories) :
    (place root s).directories x = (root.sub [x]).or (s.directories x) := by
  rw [place_directories]
  exact replaceEach_listed apart_backupDirectories hx

lemma place_directories_aside (root : FileTree C) (s : DataDir C) {x : EntryName}
    (hx : x ∈ backupDirectories) : (place root s).directories (aside x) =
      if (root.sub [x]).isSome ∧ (s.directories x).isSome then s.directories x
      else s.directories (aside x) := by
  rw [place_directories]
  exact replaceEach_aside apart_backupDirectories hx

/-! ## Names of the manifest -/

/-- An entry of the manifest has the SHA-256 of a content. -/
def HasDigest (entry : JsonValue) (c : C) : Prop :=
  (digestOf entry).bind JsonValue.text? = some (env.sha256 c)

/-- A name of the manifest is that of a file of the archive, with its SHA-256. -/
def NamesFile (root : FileTree C) (e : CodeText × JsonValue) : Prop :=
  ∃ p c, relative e.1 = some p ∧ root.file p = some c ∧ env.HasDigest e.2 c

/-- A name of the manifest leads out of the archive, or up in it, to a file with its SHA-256. -/
def NamesElsewhere (root : FileTree C) (e : CodeText × JsonValue) : Prop :=
  relative e.1 = none ∧ ∃ c, env.elsewhere root e.1 = some c ∧ env.HasDigest e.2 c

/-! ## What is accepted -/

/-- An archive passes all checks, with this directory in it and this manifest. -/
structure Accepted (a : Archive C) (root : FileTree C) (entries : JsonEntries) : Prop where
  extracted : extractall a = .ok root
  manifest : env.readManifest root = .ok entries
  files : ∃ files, manifestFiles entries = .ok files ∧ ∀ e ∈ files, env.checkFile root e = .ok ()
  database : ∃ c, env.database root = some c ∧ env.db.integrityOk c = .ok true ∧
    ∃ version ≤ env.db.latestVersion, env.db.userVersion c = .ok version
  schema : env.checkSchema entries = .ok ()

/-- The version of the database that is there can be read. -/
def Readable (s : Migrations.Store C) : Prop :=
  ∀ old ∈ s.database, ∃ version, env.db.userVersion old = .ok version

/-- The backups of the database after a restore. -/
def backupsAfter (s : Migrations.Store C) : Migrations.Backups C :=
  match s.database with
  | none => s.backups
  | some _ => keepGreatest Migrations.keepBackups (env.db.withSafety s)

variable {env}

lemma leadsTo_iff {root : FileTree C} {e : CodeText × JsonValue} :
    (∃ c, env.leadsTo root e.1 = some c ∧ env.HasDigest e.2 c) ↔
      env.NamesFile root e ∨ env.NamesElsewhere root e := by
  rw [leadsTo, NamesFile, NamesElsewhere]
  cases relative e.1 with
  | none => simp
  | some p => simp

lemma checkFile_eq_ok_iff {root : FileTree C} {e : CodeText × JsonValue} :
    env.checkFile root e = .ok () ↔ env.NamesFile root e ∨ env.NamesElsewhere root e := by
  rw [← leadsTo_iff, Env.checkFile]
  cases env.leadsTo root e.1 with
  | none => simp
  | some c =>
    cases hdigest : digestOf e.2 with
    | none => simp [HasDigest, hdigest]
    | some digest => simp [HasDigest, hdigest]

lemma checkSchema_eq_ok_iff {entries : JsonEntries} :
    env.checkSchema entries = .ok () ↔ ∀ version,
      entries.lookup (lit "schema_version") = some version →
        version.exceeds env.db.latestVersion = some false := by
  rw [checkSchema]
  cases entries.lookup (lit "schema_version") with
  | none => simp
  | some version =>
    simp only [Option.some.injEq, forall_eq']
    split <;> simp_all

lemma checkDatabase_eq_ok_iff {root : FileTree C} :
    env.checkDatabase root = .ok () ↔
      ∃ c, env.database root = some c ∧ env.db.integrityOk c = .ok true := by
  rw [checkDatabase]
  cases env.database root with
  | none => simp
  | some c =>
    simp only [Option.some.injEq, exists_eq_left']
    split <;> simp_all

lemma unpack_eq_ok_iff {a : Archive C} {root : FileTree C} {entries : JsonEntries} :
    env.unpack a = .ok (root, entries) ↔
      extractall a = .ok root ∧ env.readManifest root = .ok entries ∧
        (∃ files, manifestFiles entries = .ok files ∧
          ∀ e ∈ files, env.checkFile root e = .ok ()) ∧
        ∃ c, env.database root = some c ∧ env.db.integrityOk c = .ok true := by
  simp only [unpack, bind_eq_ok_iff]
  constructor
  · rintro ⟨root', hroot, entries', hentries, files, hfiles, ⟨⟩, hcheck, ⟨⟩, hdatabase, hpure⟩
    cases hpure
    exact ⟨hroot, hentries, ⟨files, hfiles, forM_eq_ok_iff.mp hcheck⟩,
      checkDatabase_eq_ok_iff.mp hdatabase⟩
  · rintro ⟨hroot, hentries, ⟨files, hfiles, hcheck⟩, hdatabase⟩
    exact ⟨root, hroot, entries, hentries, files, hfiles, (), forM_eq_ok_iff.mpr hcheck, (),
      checkDatabase_eq_ok_iff.mpr hdatabase, rfl⟩

/-- Restoring a database that is not damaged. -/
lemma restoreDatabase_of_sound {root : FileTree C} {c : C} (hc : env.database root = some c)
    (hsound : env.db.integrityOk c = .ok true) (s : Migrations.Store C) :
    (∃ version ≤ env.db.latestVersion, env.db.userVersion c = .ok version ∧ env.Readable s ∧
      env.restoreDatabase root s = (.ok version, ⟨some c, env.backupsAfter s⟩)) ∨
    (¬((∃ version ≤ env.db.latestVersion, env.db.userVersion c = .ok version) ∧ env.Readable s) ∧
      ∃ e, env.restoreDatabase root s = (.error e, s)) := by
  cases hversion : env.db.userVersion c with
  | error problem =>
    right
    refine ⟨fun h => ?_, env.unpackedDb.notABackup unpackedName problem, ?_⟩
    · obtain ⟨version, -, hok⟩ := h.1
      exact absurd hok (by simp)
    · simp [restoreDatabase, hc, Migrations.BackupEnv.checkSource, unpackedDb, hsound, hversion]
  | ok version =>
    by_cases hlatest : env.db.latestVersion < version
    · right
      refine ⟨fun h => ?_, env.unpackedDb.newerSchema unpackedName version, ?_⟩
      · obtain ⟨version', hle, hok⟩ := h.1
        cases hok
        exact absurd hle (not_le.mpr hlatest)
      · simp [restoreDatabase, hc, Migrations.BackupEnv.checkSource, unpackedDb, hsound, hversion,
          hlatest]
    · have hsource : env.unpackedDb.checkSource unpackedName c = .ok version := by
        simp [Migrations.BackupEnv.checkSource, unpackedDb, hsound, hversion, hlatest]
      cases hold : s.database with
      | none =>
        left
        refine ⟨version, not_lt.mp hlatest, rfl, fun old hmem => ?_, ?_⟩
        · rw [hold] at hmem
          exact absurd hmem (by simp)
        · simp only [restoreDatabase, hc, hsource, hold, backupsAfter]
      | some old =>
        cases hread : env.db.userVersion old with
        | error problem =>
          right
          refine ⟨fun h => ?_, .other, ?_⟩
          · obtain ⟨v, hv⟩ := h.2 old hold
            rw [hread] at hv
            exact absurd hv (by simp)
          · simp only [restoreDatabase, hc, hsource, hold, Migrations.BackupEnv.backup, hread]
            rw [← hold]
        | ok v =>
          left
          refine ⟨version, not_lt.mp hlatest, rfl, fun other hmem => ?_, ?_⟩
          · rw [hold] at hmem
            cases hmem
            exact ⟨v, hread⟩
          · simp only [restoreDatabase, hc, hsource, hold, Migrations.BackupEnv.backup, hread,
              backupsAfter, Migrations.BackupEnv.withSafety_eq hold hread, Bool.false_eq_true,
              if_false]

/-- **A restore of what it accepts puts it in place.** -/
theorem restoreBackup_of_accepted {a : Archive C} {root : FileTree C} {entries : JsonEntries}
    (h : env.Accepted a root entries) {s : DataDir C} (hs : env.Readable s.store) :
    ∃ c, env.database root = some c ∧ env.restoreBackup a s =
      (.ok (env.restoredManifest root entries),
        place root { s with store := ⟨some c, env.backupsAfter s.store⟩ }) := by
  obtain ⟨c, hc, hsound, hversion⟩ := h.database
  refine ⟨c, hc, ?_⟩
  have hunpack : env.unpack a = .ok (root, entries) :=
    unpack_eq_ok_iff.mpr ⟨h.extracted, h.manifest, h.files, c, hc, hsound⟩
  rcases restoreDatabase_of_sound hc hsound s.store with ⟨v, -, -, -, hrestore⟩ | ⟨hnot, -⟩
  · simp only [restoreBackup, hunpack, h.schema, hrestore]
  · exact absurd ⟨hversion, hs⟩ hnot

/-- **A restore that raises has changed nothing.** -/
theorem restoreBackup_of_refused {a : Archive C} {s : DataDir C}
    (h : env.Readable s.store → ∀ root entries, ¬env.Accepted a root entries) :
    ∃ e, env.restoreBackup a s = (.error e, s) := by
  cases hunpack : env.unpack a with
  | error e => exact ⟨e, by simp only [restoreBackup, hunpack]⟩
  | ok unpacked =>
    obtain ⟨root, entries⟩ := unpacked
    obtain ⟨hroot, hentries, hfiles, c, hc, hsound⟩ := unpack_eq_ok_iff.mp hunpack
    cases hschema : env.checkSchema entries with
    | error e => exact ⟨e, by simp only [restoreBackup, hunpack, hschema]⟩
    | ok u =>
      rcases restoreDatabase_of_sound hc hsound s.store with
        ⟨v, hv, hok, hread, -⟩ | ⟨-, e, hrestore⟩
      · exact absurd ⟨hroot, hentries, hfiles, ⟨c, hc, hsound, v, hv, hok⟩, hschema⟩
          (h hread root entries)
      · exact ⟨.database e, by simp only [restoreBackup, hunpack, hschema, hrestore]⟩

end Env

end Habeny.Backup
