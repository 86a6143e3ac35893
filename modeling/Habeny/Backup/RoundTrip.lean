import Habeny.Backup.Pack

/-!
# What a restore brings back

Restoring a new backup brings back the database, the listed files and the listed directories, and
keeps what it replaces; an archive that is no backup is refused before anything changes.

There are exceptions to both.  A directory named `*.tmp` is left out of a backup with all below it.
A backup is made of a damaged database too, and can be pruned as soon as it is made; so can the
safety copy of a database, and of one that cannot be read there is none.  A manifest without its
files, or with names that lead out of the archive, passes the checks.
-/

namespace Habeny.Backup

open Habeny.Lib CodeText Checks

variable {C : Type}

namespace Env

variable {env : Env C} {label : CodeText} {version : ℕ} {s : DataDir C} {root : FileTree C}

/-! ## What is asked of a restore -/

/-- The node of a tree, files named `*.tmp` aside. -/
def keptNode (t : FileTree C) (p : Path) : Option (Node C) :=
  match t.get p with
  | some (.file c) => if p.getLast?.any isTmp then none else some (.file c)
  | n => n

/-- What was backed up of one data directory is back in another, the rest of what is listed is as
it was there, and what was replaced is kept. -/
structure Restored (env : Env C) (s before after : DataDir C) : Prop where
  database : after.store.database = some (env.db.content s.store)
  files : ∀ x ∈ backupFiles, ∀ c ∈ s.files x, after.files x = some c
  directories : ∀ x ∈ backupDirectories, ∀ t ∈ s.directories x,
    ∃ u, after.directories x = some u ∧ ∀ p, u.get p = keptNode t p
  other_files : ∀ x ∈ backupFiles, s.files x = none → after.files x = before.files x
  other_directories : ∀ x ∈ backupDirectories, s.directories x = none →
    after.directories x = before.directories x
  database_aside : ∀ old ∈ before.store.database,
    ∃ name, after.store.backups.lookup name = some old
  files_aside : ∀ x ∈ backupFiles, s.files x ≠ none →
    ∀ old ∈ before.files x, after.files (aside x) = some old
  directories_aside : ∀ x ∈ backupDirectories, s.directories x ≠ none →
    ∀ old ∈ before.directories x, after.directories (aside x) = some old

/-- Restoring an archive succeeds and brings back what was backed up. -/
def RoundTrips (env : Env C) (a : Archive C) (s before : DataDir C) : Prop :=
  ∃ m, (env.restoreBackup a before).1 = .ok m ∧
    env.Restored s before (env.restoreBackup a before).2

/-- Nothing is raised and lost on the way: the new archive is not pruned at once; the database is
not damaged and not newer; the one that is there later can be read, and a name among the newest
backups has its content once the safety copy is there; and no directory is named `*.tmp`. -/
structure Restorable (env : Env C) (name : CodeText) (s before : DataDir C) : Prop where
  kept : rankIn s.archives.keys name < env.keep
  sound : env.db.integrityOk (env.db.content s.store) = .ok true
  known : ∃ version ≤ env.db.latestVersion,
    env.db.userVersion (env.db.content s.store) = .ok version
  readable : env.Readable before.store
  safety : ∀ old ∈ before.store.database, ∃ n, env.db.WithinRetention before.store n ∧
    (env.db.withSafety before.store).lookup n = some old
  plain : ∀ x ∈ backupDirectories, ∀ t ∈ s.directories x, ∀ p y,
    t.get (p ++ [y]) = some .directory → isTmp y = false

/-- Leaving out what `*.tmp` matches leaves out files only, when no directory matches. -/
lemma restrict_eq_keptNode_iff (t : FileTree C) :
    (∀ p, (t.restrict fun y => !isTmp y).get p = keptNode t p) ↔
      ∀ p y, t.get (p ++ [y]) = some .directory → isTmp y = false := by
  constructor
  · intro h p y hdirectory
    have hp := h (p ++ [y])
    rw [FileTree.get_restrict, keptNode, hdirectory] at hp
    have hall : (p ++ [y]).all (fun y => !isTmp y) = true := by
      by_contra hnot
      rw [if_neg hnot] at hp
      exact absurd hp (by simp)
    have hy := List.all_eq_true.mp hall y (by simp)
    simpa using hy
  · intro h p
    rw [FileTree.get_restrict]
    by_cases hall : p.all (fun y => !isTmp y) = true
    · rw [if_pos hall, keptNode]
      cases hget : t.get p with
      | none => rfl
      | some n =>
        cases n with
        | directory => rfl
        | file c =>
          have hlast : p.getLast?.any isTmp = false := by
            cases hp : p.getLast? with
            | none => rfl
            | some y =>
              have hy := List.all_eq_true.mp hall y (List.mem_of_getLast? hp)
              simpa using hy
          simp [hlast]
    · rw [if_neg hall]
      -- a part of the path matches: it is the last one, and a file, or nothing is there
      obtain ⟨y, hy, htmp⟩ : ∃ y ∈ p, isTmp y = true := by
        simpa using hall
      obtain ⟨front, back, rfl⟩ := List.append_of_mem hy
      have hnot : t.get (front ++ [y]) ≠ some .directory := fun hdirectory => by
        rw [h front y hdirectory] at htmp
        exact absurd htmp (by simp)
      rw [keptNode]
      cases hget : t.get (front ++ y :: back) with
      | none => rfl
      | some n =>
        cases back with
        | nil =>
          cases n with
          | directory => exact absurd hget hnot
          | file c => simp [htmp]
        | cons z back =>
          refine absurd (FileTree.get_above hget ⟨z :: back, by simp⟩ fun heq => ?_) hnot
          have hlength := congrArg List.length heq
          simp at hlength

/-- The backups of the database that stay are the newest. -/
lemma lookup_backupsAfter {before : Migrations.Store C} {old : C}
    (hold : before.database = some old) (name : Text) :
    (env.backupsAfter before).lookup name =
      if env.db.WithinRetention before name then (env.db.withSafety before).lookup name
      else none := by
  simp only [backupsAfter, hold]
  exact lookup_keepGreatest Migrations.keepBackups (env.db.withSafety before) name

/-- What is put in place is what was backed up, when a safety copy stays and no directory was left
out. -/
lemma Holds.restored_iff (h : env.Holds label version s root) (before : DataDir C) :
    env.Restored s before (place root { before with
        store := ⟨some (env.db.content s.store), env.backupsAfter before.store⟩ }) ↔
      (∀ old ∈ before.store.database, ∃ n, env.db.WithinRetention before.store n ∧
        (env.db.withSafety before.store).lookup n = some old) ∧
      ∀ x ∈ backupDirectories, ∀ t ∈ s.directories x, ∀ p y,
        t.get (p ++ [y]) = some .directory → isTmp y = false := by
  have hdirectories : ∀ x ∈ backupDirectories, ∀ t ∈ s.directories x,
      ((∃ u, (place root { before with
        store := ⟨some (env.db.content s.store), env.backupsAfter before.store⟩ }).directories x =
          some u ∧ ∀ p, u.get p = keptNode t p) ↔
        ∀ p y, t.get (p ++ [y]) = some .directory → isTmp y = false) := by
    intro x hx t ht
    obtain ⟨u, hu, hget⟩ := h.sub_listed hx ht
    have hplaced := place_directories_listed root { before with
      store := ⟨some (env.db.content s.store), env.backupsAfter before.store⟩ } hx
    rw [hu, Option.some_or] at hplaced
    rw [← restrict_eq_keptNode_iff]
    constructor
    · rintro ⟨u', hu', hget'⟩ p
      rw [hplaced, Option.some.injEq] at hu'
      rw [← hget p, ← hget' p, hu']
    · exact fun hkept => ⟨u, hplaced, fun p => (hget p).trans (hkept p)⟩
  constructor
  · intro hrestored
    refine ⟨fun old hold => ?_, fun x hx t ht =>
      (hdirectories x hx t ht).mp (hrestored.directories x hx t ht)⟩
    obtain ⟨n, hn⟩ := hrestored.database_aside old hold
    have hlookup : (env.backupsAfter before.store).lookup n = some old := hn
    rw [lookup_backupsAfter hold] at hlookup
    split_ifs at hlookup with hwithin
    exact ⟨n, hwithin, hlookup⟩
  · rintro ⟨hsafety, hplain⟩
    refine ⟨rfl, ?_, fun x hx t ht => (hdirectories x hx t ht).mpr (hplain x hx t ht), ?_, ?_, ?_,
      ?_, ?_⟩
    · intro x hx c hc
      rw [place_files_listed _ _ hx, h.file_listed hx, hc]
      rfl
    · intro x hx hnone
      rw [place_files_listed _ _ hx, h.file_listed hx, hnone]
      rfl
    · intro x hx hnone
      rw [place_directories_listed _ _ hx, h.sub_absent hx hnone]
      rfl
    · intro old hold
      obtain ⟨n, hwithin, hn⟩ := hsafety old hold
      refine ⟨n, (lookup_backupsAfter hold n).trans ?_⟩
      rw [if_pos hwithin, hn]
    · intro x hx hsome old hold
      have hold' : before.files x = some old := hold
      rw [place_files_aside _ _ hx, h.file_listed hx, hold',
        if_pos ⟨Option.isSome_iff_ne_none.mpr hsome, rfl⟩]
    · intro x hx hsome old hold
      obtain ⟨t, ht⟩ := Option.ne_none_iff_exists'.mp hsome
      obtain ⟨u, hu, -⟩ := h.sub_listed hx ht
      have hold' : before.directories x = some old := hold
      rw [place_directories_aside _ _ hx, hu, hold', if_pos ⟨rfl, rfl⟩]

/-! ## Archives that are no backup -/

/-- The database of an archive is there, not damaged and not newer. -/
def SoundDatabase (env : Env C) (root : FileTree C) : Prop :=
  ∃ c, env.database root = some c ∧ env.db.integrityOk c = .ok true ∧
    ∃ version ≤ env.db.latestVersion, env.db.userVersion c = .ok version

/-- A valid backup: it can be read and has safe members, its manifest has a schema version that is
not newer and the names of files of the archive with their SHA-256, and its database is sound. -/
structure Valid (env : Env C) (a : Archive C) (root : FileTree C) (entries : JsonEntries) :
    Prop where
  extracted : extractall a = .ok root
  manifest : env.readManifest root = .ok entries
  files : ∃ files, entries.lookup (lit "files") = some (.dict files) ∧
    ∀ e ∈ files, env.NamesFile root e
  schema : ∃ version, entries.lookup (lit "schema_version") = some version ∧
    version.exceeds env.db.latestVersion = some false
  database : env.SoundDatabase root

def IsBackup (env : Env C) (a : Archive C) : Prop := ∃ root entries, env.Valid a root entries

/-- An archive of which only the manifest is lax: it has no files or no schema version, or a name
that leads elsewhere. -/
structure Lax (env : Env C) (a : Archive C) (root : FileTree C) (entries : JsonEntries) : Prop where
  extracted : extractall a = .ok root
  manifest : env.readManifest root = .ok entries
  files : ∀ v, entries.lookup (lit "files") = some v → ∃ files, v = .dict files ∧
    ∀ e ∈ files, env.NamesFile root e ∨ env.NamesElsewhere root e
  schema : ∀ version, entries.lookup (lit "schema_version") = some version →
    version.exceeds env.db.latestVersion = some false
  database : env.SoundDatabase root
  lax : entries.lookup (lit "files") = none ∨ entries.lookup (lit "schema_version") = none ∨
    ∃ files, entries.lookup (lit "files") = some (.dict files) ∧
      ∃ e ∈ files, env.NamesElsewhere root e

/-- Restoring an archive raises and changes nothing. -/
def Refuses (env : Env C) (a : Archive C) (before : DataDir C) : Prop :=
  ∃ e, env.restoreBackup a before = (.error e, before)

/-- **An archive is accepted when it is a valid backup, or only its manifest is lax.** -/
theorem accepted_iff {a : Archive C} {entries : JsonEntries} :
    env.Accepted a root entries ↔ env.Valid a root entries ∨ env.Lax a root entries := by
  constructor
  · rintro ⟨hextracted, hmanifest, ⟨files, hfiles, hcheck⟩, hdatabase, hschema⟩
    have hnames : ∀ e ∈ files, env.NamesFile root e ∨ env.NamesElsewhere root e :=
      fun e he => checkFile_eq_ok_iff.mp (hcheck e he)
    have hversion := checkSchema_eq_ok_iff.mp hschema
    have hof : ∀ v, entries.lookup (lit "files") = some v → v = .dict files := by
      intro v hv
      rw [manifestFiles, hv] at hfiles
      cases v <;> simp_all
    have hlax : (entries.lookup (lit "files") = none ∨
        entries.lookup (lit "schema_version") = none ∨
        ∃ files, entries.lookup (lit "files") = some (.dict files) ∧
          ∃ e ∈ files, env.NamesElsewhere root e) → env.Lax a root entries :=
      fun hlax => ⟨hextracted, hmanifest, fun v hv => ⟨files, hof v hv, hnames⟩, hversion,
        hdatabase, hlax⟩
    cases hv : entries.lookup (lit "files") with
    | none => exact .inr (hlax (.inl hv))
    | some v =>
      cases hs : entries.lookup (lit "schema_version") with
      | none => exact .inr (hlax (.inr (.inl hs)))
      | some version =>
        rw [hof v hv] at hv
        by_cases helse : ∃ e ∈ files, env.NamesElsewhere root e
        · exact .inr (hlax (.inr (.inr ⟨files, hv, helse⟩)))
        · refine .inl ⟨hextracted, hmanifest, ⟨files, hv, fun e he => ?_⟩,
            ⟨version, hs, hversion version hs⟩, hdatabase⟩
          exact (hnames e he).resolve_right fun hout => helse ⟨e, he, hout⟩
  · rintro (h | h)
    · obtain ⟨files, hfiles, hnames⟩ := h.files
      obtain ⟨version, hversion, hexceeds⟩ := h.schema
      refine ⟨h.extracted, h.manifest, ⟨files, by rw [manifestFiles, hfiles], fun e he =>
        checkFile_eq_ok_iff.mpr (.inl (hnames e he))⟩, h.database,
        checkSchema_eq_ok_iff.mpr fun v hv => ?_⟩
      rw [hversion, Option.some.injEq] at hv
      exact hv ▸ hexceeds
    · refine ⟨h.extracted, h.manifest, ?_, h.database, checkSchema_eq_ok_iff.mpr h.schema⟩
      cases hv : entries.lookup (lit "files") with
      | none => exact ⟨[], by rw [manifestFiles, hv], fun e he => absurd he List.not_mem_nil⟩
      | some v =>
        obtain ⟨files, rfl, hnames⟩ := h.files v hv
        exact ⟨files, by rw [manifestFiles, hv], fun e he => checkFile_eq_ok_iff.mpr (hnames e he)⟩

/-- What is lax is no valid backup. -/
lemma Lax.not_isBackup {a : Archive C} {entries : JsonEntries} (h : env.Lax a root entries) :
    ¬env.IsBackup a := by
  rintro ⟨root', entries', hvalid⟩
  have hroot : root = root' := Except.ok.inj (h.extracted.symm.trans hvalid.extracted)
  subst hroot
  have hentries : entries = entries' := Except.ok.inj (h.manifest.symm.trans hvalid.manifest)
  subst hentries
  obtain ⟨files, hfiles, hnames⟩ := hvalid.files
  obtain ⟨version, hversion, -⟩ := hvalid.schema
  rcases h.lax with hnone | hnone | ⟨files', hfiles', e, he, hout, -⟩
  · rw [hfiles] at hnone
    exact absurd hnone (by simp)
  · rw [hversion] at hnone
    exact absurd hnone (by simp)
  · rw [hfiles, Option.some.injEq, JsonValue.dict.injEq] at hfiles'
    subst hfiles'
    obtain ⟨p, -, hin, -⟩ := hnames e he
    rw [hout] at hin
    exact absurd hin (by simp)

/-! ## The exact conditions -/

/-- What creating a backup leaves. -/
lemma createBackup_eq_ok {stamps : List CodeText} {s' : DataDir C} {name : CodeText}
    (h : env.createBackup label stamps s = (.ok name, s')) :
    ∃ version, env.db.userVersion (env.db.content s.store) = .ok version ∧ name ∉ s.archives ∧
      s'.archives = keepGreatest env.keep
        (s.archives.insert name (env.pack label version (env.stage s))) := by
  rw [createBackup] at h
  by_cases hlabel : isLabel label = true
  · rw [if_neg (not_not.mpr hlabel)] at h
    dsimp only at h
    split at h
    · exact absurd (congrArg Prod.fst h) (by simp)
    · next version hversion =>
      split at h
      · exact absurd (congrArg Prod.fst h) (by simp)
      · next stamp hstamp =>
        simp only [Prod.mk.injEq, Except.ok.injEq] at h
        obtain ⟨rfl, rfl⟩ := h
        have hfree := List.find?_some hstamp
        exact ⟨version, hversion, of_decide_eq_true hfree, rfl⟩
  · rw [if_pos hlabel] at h
    exact absurd (congrArg Prod.fst h) (by simp)

/-- A new archive stays when it is among the newest. -/
lemma archiveAt_keepGreatest {archives : AList fun _ : CodeText => Archive C} {name : CodeText}
    (hname : name ∉ archives) (a : Archive C) {s' : DataDir C}
    (h : s'.archives = keepGreatest env.keep (archives.insert name a)) :
    archiveAt s' name = if rankIn archives.keys name < env.keep then a else .unreadable := by
  have hrank : rankIn (archives.insert name a).keys name = rankIn archives.keys name := by
    rw [rankIn, AList.keys, AList.entries_insert_of_notMem hname]
    simp [rankIn, List.keys, AList.keys]
  rw [archiveAt, h, lookup_keepGreatest, hrank]
  split_ifs
  · rw [AList.lookup_insert]
    rfl
  · rfl

lemma refuses_of_unreadable (before : DataDir C) : env.Refuses .unreadable before :=
  restoreBackup_of_refused fun _ root entries haccepted =>
    absurd haccepted.extracted (by simp [extractall])

lemma not_ok_of_refuses {a : Archive C} {before : DataDir C} (h : env.Refuses a before)
    (m : JsonEntries) : (env.restoreBackup a before).1 ≠ .ok m := by
  obtain ⟨e, he⟩ := h
  rw [he]
  simp

/-- A new backup that stays brings back what was backed up, exactly when nothing is raised or
lost. -/
lemma roundTrips_pack_iff (hversion : env.db.userVersion (env.db.content s.store) = .ok version)
    (before : DataDir C) :
    env.RoundTrips (env.pack label version (env.stage s)) s before ↔
      (env.db.integrityOk (env.db.content s.store) = .ok true ∧ version ≤ env.db.latestVersion) ∧
      env.Readable before.store ∧
      (∀ old ∈ before.store.database, ∃ n, env.db.WithinRetention before.store n ∧
        (env.db.withSafety before.store).lookup n = some old) ∧
      ∀ x ∈ backupDirectories, ∀ t ∈ s.directories x, ∀ p y,
        t.get (p ++ [y]) = some .directory → isTmp y = false := by
  obtain ⟨root, hextracted, hget⟩ := env.extractall_pack label version (env.stage s)
  have hholds : env.Holds label version s root := ⟨hextracted, hget⟩
  -- what is accepted has the tree that was packed, and is put in place
  have hplaced : ∀ root' entries,
      env.Accepted (env.pack label version (env.stage s)) root' entries → env.Readable before.store → ∃ m,
        env.restoreBackup (env.pack label version (env.stage s)) before = (.ok m,
          place root { before with
            store := ⟨some (env.db.content s.store), env.backupsAfter before.store⟩ }) := by
    intro root' entries haccepted hreadable
    have hroot : root' = root := Except.ok.inj (haccepted.extracted.symm.trans hextracted)
    subst hroot
    obtain ⟨c, hc, hrestore⟩ := restoreBackup_of_accepted haccepted hreadable
    rw [hholds.database, Option.some.injEq] at hc
    subst hc
    exact ⟨_, hrestore⟩
  constructor
  · rintro ⟨m, hok, hrestored⟩
    have hreadable : env.Readable before.store := by
      by_contra hnot
      exact not_ok_of_refuses (restoreBackup_of_refused fun hreads => absurd hreads hnot) m hok
    obtain ⟨root', entries, haccepted⟩ : ∃ root' entries,
        env.Accepted (env.pack label version (env.stage s)) root' entries := by
      by_contra hnot
      refine not_ok_of_refuses (restoreBackup_of_refused fun _ root' entries h => ?_) m hok
      exact hnot ⟨root', entries, h⟩
    obtain ⟨m', hplace⟩ := hplaced root' entries haccepted hreadable
    rw [hplace] at hrestored
    exact ⟨(hholds.accepted_iff hversion).mp ⟨root', entries, haccepted⟩, hreadable,
      (hholds.restored_iff before).mp hrestored⟩
  · rintro ⟨hsound, hreadable, hlost⟩
    obtain ⟨root', entries, haccepted⟩ := (hholds.accepted_iff hversion).mpr hsound
    obtain ⟨m, hplace⟩ := hplaced root' entries haccepted hreadable
    refine ⟨m, by rw [hplace], ?_⟩
    rw [hplace]
    exact (hholds.restored_iff before).mpr hlost

/-- **A restore brings back what a new backup has exactly when nothing is raised or lost, and it
refuses what is no backup exactly unless only the manifest is lax, or no safety copy can be
made.** -/
theorem backup_then_restore (env : Env C) :
    (∀ label stamps s before name s', env.createBackup label stamps s = (.ok name, s') →
      (env.RoundTrips (archiveAt s' name) s before ↔ env.Restorable name s before)) ∧
    ∀ a before, (¬env.IsBackup a → env.Refuses a before) ↔
      ((∃ root entries, env.Lax a root entries) → ¬env.Readable before.store) := by
  constructor
  · intro label stamps s before name s' hcreate
    obtain ⟨version, hversion, hname, harchives⟩ := createBackup_eq_ok hcreate
    have harchive := archiveAt_keepGreatest hname _ harchives
    by_cases hkept : rankIn s.archives.keys name < env.keep
    · rw [harchive, if_pos hkept, roundTrips_pack_iff hversion]
      constructor
      · rintro ⟨⟨hsound, hknown⟩, hreadable, hsafety, hplain⟩
        exact ⟨hkept, hsound, ⟨version, hknown, hversion⟩, hreadable, hsafety, hplain⟩
      · intro h
        obtain ⟨v, hv, hok⟩ := h.known
        rw [hversion, Except.ok.injEq] at hok
        exact ⟨⟨h.sound, hok ▸ hv⟩, h.readable, h.safety, h.plain⟩
    · rw [harchive, if_neg hkept]
      constructor
      · rintro ⟨m, hok, -⟩
        exact absurd hok (not_ok_of_refuses (refuses_of_unreadable before) m)
      · exact fun h => absurd h.kept hkept
  · intro a before
    constructor
    · rintro hrefuses ⟨root, entries, hlax⟩ hreadable
      obtain ⟨c, -, hrestore⟩ :=
        restoreBackup_of_accepted (accepted_iff.mpr (.inr hlax)) hreadable
      exact not_ok_of_refuses (hrefuses hlax.not_isBackup) (env.restoredManifest root entries)
        (by rw [hrestore])
    · intro hlax hinvalid
      refine restoreBackup_of_refused fun hreadable root entries haccepted => ?_
      rcases accepted_iff.mp haccepted with hvalid | h
      · exact hinvalid ⟨root, entries, hvalid⟩
      · exact hlax ⟨root, entries, h⟩ hreadable

/-! ## What is lost -/

/-- Contents that are numbers or JSON. -/
inductive SampleContent where
  | data (n : ℕ)
  | json (v : JsonValue)

def SampleContent.number : SampleContent → Option ℕ
  | .data n => some n
  | .json _ => none

/-- A server with nothing else than a database at the latest version. -/
def sampleEnv : Env SampleContent where
  db := {
    directory := "backups".toList
    stem := "platform".toList
    stamp := "20260101-000000".toList
    userVersion := fun _ => .ok 10
    integrityOk := fun _ => .ok true
    latestVersion := 10
    empty := .data 0 }
  sha256 := fun c => c.number.toList
  size := fun _ => 1
  dumps := fun m => .json (.dict m.entries)
  loads := fun c => match c with
    | .json v => some v
    | .data _ => none
  loads_dumps := fun _ _ => rfl
  opened := fun c _ => c
  opened_alone := fun _ => rfl
  conf := none
  elsewhere := fun _ _ => none
  habenyVersion := lit "1.0"
  host := lit "habeny"
  now := lit "2026-01-01T00:00:00+00:00"
  secretKeySetting := false
  keep := 14
  dataDir := lit "/var/lib/habeny"
  unpacked := "/var/lib/habeny/.restore/habeny-backup".toList

def sampleStamp : CodeText := lit "20260101-000000"

def sampleLabel : CodeText := lit "manual"

def q3 : EntryName := ⟨lit "q3.csv", by decide⟩

def oldTmp : EntryName := ⟨lit "old.tmp", by decide⟩

/-- A data directory with one report. -/
def sampleDir (report : Path) : DataDir SampleContent where
  store := ⟨some (.data 1), ∅⟩
  archives := ∅
  files := fun _ => none
  directories := fun x => if x = reports then FileTree.empty.put report (.file (.data 7)) else none

/-- A later data directory, where ten backups of the database are from later days. -/
def laterDir : DataDir SampleContent where
  store := ⟨some (.data 2), (List.range 10).foldl (fun files day =>
    files.insert ({ sampleEnv.db with
      stamp := "2026020".toList ++ Json.intText day ++ "-000000".toList }.backupName 10
        "manual".toList) (.data (10 + day))) ∅⟩
  archives := ∅
  files := fun _ => none
  directories := fun _ => none

/-- The backup of a data directory. -/
def sampleArchive (report : Path) : Archive SampleContent :=
  archiveAt (sampleEnv.createBackup sampleLabel [sampleStamp] (sampleDir report)).2
    (target sampleStamp sampleLabel)

/-- An archive with a manifest that has nothing in it. -/
def emptyManifest : Archive SampleContent :=
  .members [⟨lit "habeny-backup/platform.db", .file (.data 5)⟩,
    ⟨lit "habeny-backup/manifest.json", .file (.json (.dict []))⟩]

/-- A report below a directory named `*.tmp` does not come back; where ten backups of the database
are from later, what was there is lost; and an empty manifest is accepted. -/
theorem backup_loses :
    ¬sampleEnv.RoundTrips (sampleArchive [oldTmp, q3]) (sampleDir [oldTmp, q3]) (sampleDir [q3]) ∧
    ¬sampleEnv.RoundTrips (sampleArchive [q3]) (sampleDir [q3]) laterDir ∧
    ¬sampleEnv.IsBackup emptyManifest ∧ ¬sampleEnv.Refuses emptyManifest (sampleDir [q3]) := by
  have hgone : (((sampleEnv.restoreBackup (sampleArchive [oldTmp, q3])
      (sampleDir [q3])).2.directories reports).bind fun t => t.get [oldTmp]).isNone = true := by decide +kernel
  have hthere : ((sampleDir [oldTmp, q3]).directories reports).any (fun t => t.isDir [oldTmp]) =
      true := by decide +kernel
  have hpruned : (sampleEnv.restoreBackup (sampleArchive [q3]) laterDir).2.store.backups.entries.all
      (fun e => decide (e.2.number ≠ some 2)) = true := by decide +kernel
  have hempty : (match extractall emptyManifest >>= sampleEnv.readManifest with
      | .ok entries => (entries.lookup (lit "files")).isNone
      | .error _ => false) = true := by decide +kernel
  have haccepted : (sampleEnv.restoreBackup emptyManifest (sampleDir [q3])).1.isOk = true := by
    decide +kernel
  refine ⟨?_, ?_, ?_, ?_⟩
  · rintro ⟨m, -, hrestored⟩
    obtain ⟨t, ht, hdir⟩ := (Option.any_eq_true _ _).mp hthere
    obtain ⟨u, hu, hget⟩ := hrestored.directories reports (by decide) t ht
    rw [hu, Option.bind_some, hget, keptNode, FileTree.isDir_iff.mp hdir] at hgone
    exact absurd hgone (by simp)
  · rintro ⟨m, -, hrestored⟩
    obtain ⟨name, hname⟩ := hrestored.database_aside (.data 2) rfl
    have hentry := List.all_eq_true.mp hpruned _ (AList.mem_lookup_iff.mp hname)
    exact absurd rfl (of_decide_eq_true hentry)
  · rintro ⟨root, entries, hvalid⟩
    obtain ⟨files, hfiles, -⟩ := hvalid.files
    rw [bind_eq_ok_iff.mpr ⟨root, hvalid.extracted, hvalid.manifest⟩] at hempty
    simp [hfiles] at hempty
  · rintro ⟨e, he⟩
    rw [he] at haccepted
    exact absurd haccepted (by simp [Except.isOk, Except.toBool])

/-- A report comes back, over the same one. -/
theorem backup_restores_report : sampleEnv.RoundTrips (sampleArchive [q3]) (sampleDir [q3])
    (sampleDir [q3]) := by
  have hsafety : sampleEnv.db.WithinRetention (sampleDir [q3]).store
      (sampleEnv.db.backupName 10 Migrations.beforeRestore) := by decide +kernel
  refine ((backup_then_restore sampleEnv).1 sampleLabel [sampleStamp] (sampleDir [q3])
    (sampleDir [q3]) (target sampleStamp sampleLabel) _ (Prod.ext rfl rfl)).mpr
    ⟨by decide +kernel, rfl, ⟨10, le_rfl, rfl⟩, fun _ _ => ⟨10, rfl⟩, ?_, ?_⟩
  · intro old hold
    refine ⟨_, hsafety, ?_⟩
    rw [Migrations.BackupEnv.withSafety_eq hold rfl]
    exact AList.lookup_insert _
  · intro x _ t ht p y hdirectory
    simp only [sampleDir] at ht
    split_ifs at ht
    · rw [FileTree.get_put ht] at hdirectory
      split_ifs at hdirectory with hq3 hprefix
      · exact absurd hdirectory (by simp)
      · -- above the report there is only the root
        have hlength := hprefix.length_le
        have heq := hprefix.eq_of_length (le_antisymm hlength (by simp))
        exact absurd heq hq3
      · rw [FileTree.get_empty, if_neg (by simp)] at hdirectory
        exact absurd hdirectory (by simp)
    · exact absurd ht (by simp)

end Env

end Habeny.Backup
