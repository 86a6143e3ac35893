import Habeny.Lib.Checks
import Habeny.Lib.FileTree
import Habeny.Lib.JsonValue
import Habeny.Migrations.Backups

/-!
# Full backups

A full backup is an archive of the database, the listed files and directories of the data
directory, the configuration file, and a manifest with the SHA-256 of each file.

Restoring extracts an archive beside the data directory, checks it, copies the database back (after
a backup of the one that is there), and then puts the files and directories in place; what they
replace is kept under another name.
-/

namespace Habeny.Backup

open Habeny.Lib CodeText

variable {C : Type}

/-! ## Names -/

def platformDb : EntryName := ⟨lit "platform.db", by decide⟩
def secretKey : EntryName := ⟨lit "secret.key", by decide⟩
def licenseKey : EntryName := ⟨lit "license.key", by decide⟩
def serverId : EntryName := ⟨lit "server-id", by decide⟩
def reports : EntryName := ⟨lit "reports", by decide⟩
def configs : EntryName := ⟨lit "configs", by decide⟩
def agents : EntryName := ⟨lit "agents", by decide⟩
def tls : EntryName := ⟨lit "tls", by decide⟩
def logs : EntryName := ⟨lit "logs", by decide⟩
def habenyConf : EntryName := ⟨lit "habeny.conf", by decide⟩
def restoredConf : EntryName := ⟨lit "restored-habeny.conf", by decide⟩
def manifestJson : EntryName := ⟨lit "manifest.json", by decide⟩

/-- The write-ahead log that SQLite reads with the database file beside it. -/
def platformDbWal : EntryName := ⟨lit "platform.db-wal", by decide⟩

/-- The directory that an archive holds. -/
def habenyBackup : EntryName := ⟨lit "habeny-backup", by decide⟩

/-- The files that are backed up. -/
def backupFiles : List EntryName := [secretKey, licenseKey, serverId]

/-- The directories that are backed up. -/
def backupDirectories : List EntryName := [reports, configs, agents, tls, logs]

lemma isEntryName_append {t suffix : CodeText} (ht : IsEntryName t)
    (hlength : 2 ≤ suffix.length) (hslash : slash ∉ suffix) (hnul : 0 ∉ suffix) :
    IsEntryName (t ++ suffix) := by
  obtain ⟨hnil, -, -, htslash, htnul⟩ := ht
  have htlength : t.length ≠ 0 := fun h => hnil (List.length_eq_zero_iff.mp h)
  have hlong : 3 ≤ (t ++ suffix).length := by
    rw [List.length_append]
    omega
  refine ⟨?_, ?_, ?_, ?_, ?_⟩
  · exact fun h => by rw [h] at hlong; exact absurd hlong (by decide)
  · exact fun h => by rw [h] at hlong; exact absurd hlong (by decide)
  · exact fun h => by rw [h] at hlong; exact absurd hlong (by decide)
  · exact fun h => (List.mem_append.mp h).elim htslash hslash
  · exact fun h => (List.mem_append.mp h).elim htnul hnul

/-- The name under which what is replaced is kept. -/
def aside (x : EntryName) : EntryName :=
  ⟨x.val ++ lit ".before-restore",
    isEntryName_append x.property (by decide) (by decide) (by decide)⟩

lemma aside_injective : Function.Injective aside := fun _ _ h =>
  Subtype.ext (List.append_cancel_right (congrArg Subtype.val h))

/-- A name that `*.tmp` matches. -/
def isTmp (x : EntryName) : Bool := (lit ".tmp").isSuffixOf x.val

/-! ## Archives -/

/-- What a member of an archive is; links and devices are other entries. -/
inductive Kind (C : Type) where
  | file (content : C)
  | directory
  | other

structure Member (C : Type) where
  name : CodeText
  kind : Kind C

/-- A file as `tarfile` reads it. -/
inductive Archive (C : Type) where
  | unreadable
  | members (ms : List (Member C))

/-- What a manifest says of a file. -/
structure FileMeta where
  sha256 : CodeText
  size : ℕ

def FileMeta.json (m : FileMeta) : JsonValue :=
  .dict [(lit "sha256", .str m.sha256), (lit "size", .int m.size)]

/-- The manifest of a new backup. -/
structure Manifest where
  habenyVersion : CodeText
  schemaVersion : ℕ
  createdAt : CodeText
  host : CodeText
  label : CodeText
  secretKey : CodeText
  files : List (CodeText × FileMeta)

def formatVersion : ℤ := 1

def Manifest.entries (m : Manifest) : JsonEntries :=
  [(lit "format", .int formatVersion), (lit "habeny_version", .str m.habenyVersion),
    (lit "schema_version", .int m.schemaVersion), (lit "created_at", .str m.createdAt),
    (lit "host", .str m.host), (lit "label", .str m.label),
    (lit "secret_key", .str m.secretKey),
    (lit "files", .dict (m.files.map fun e => (e.1, e.2.json)))]

/-- What is raised: a `BackupError` with what its message names, an error of the restored
database, or another exception.  `waiting` stands for no end within some readings of the clock. -/
inductive Failure where
  | invalidLabel
  | waiting
  | unexpectedPath (name : CodeText)
  | unexpectedEntryType (name : CodeText)
  | unreadable
  | noManifest
  | checksum (name : CodeText)
  | damaged
  | newer (schema : JsonValue) (release : Option JsonValue)
  | database (e : Migrations.Failure)
  | other

/-- The data directory: the database with its own backups, the full backups, and what else is
in it. -/
structure DataDir (C : Type) where
  store : Migrations.Store C
  archives : AList fun _ : CodeText => Archive C
  files : EntryName → Option C
  directories : EntryName → Option (FileTree C)

/-- What backups depend on: SQLite and the backups of the database; the SHA-256 of a file and its
size; JSON; what SQLite opens, from a database file and the log beside it; the content of the
configuration file, if it can be read; and what a name with `..` or from the root leads to when
a tree was extracted, in or outside of it. -/
structure Env (C : Type) where
  db : Migrations.BackupEnv C
  sha256 : C → CodeText
  size : C → ℕ
  dumps : Manifest → C
  loads : C → Option JsonValue
  loads_dumps : ∀ m, (m.files.map Prod.fst).Nodup → loads (dumps m) = some (.dict m.entries)
  opened : C → Option C → C
  opened_alone : ∀ c, opened c none = c
  conf : Option C
  elsewhere : FileTree C → CodeText → Option C
  habenyVersion : CodeText
  host : CodeText
  now : CodeText
  secretKeySetting : Bool
  keep : ℕ
  dataDir : CodeText
  unpacked : Text

namespace Env

variable (env : Env C)

/-! ## Creating a backup -/

def isLabel (label : CodeText) : Bool :=
  !label.isEmpty && label.all fun c => decide (c = 45 ∨ 97 ≤ c ∧ c ≤ 122)

def target (stamp label : CodeText) : CodeText :=
  lit "habeny-backup-" ++ stamp ++ lit "-" ++ label ++ lit ".tar.gz"

/-- What is copied for a backup. -/
def stage (s : DataDir C) : Dict EntryName (Entry C) :=
  let copied := ((Dict.empty.set platformDb (.file (env.db.content s.store))).setEach
    (fun x => (s.files x).map .file) backupFiles).setEach
    (fun x => (s.directories x).map fun t => .tree (t.restrict fun y => !isTmp y)) backupDirectories
  copied.setEach (fun _ => env.conf.map .file) [habenyConf]

def manifest (label : CodeText) (version : ℕ) (staged : FileTree C) : Manifest where
  habenyVersion := env.habenyVersion
  schemaVersion := version
  createdAt := env.now
  host := env.host
  label := label
  secretKey :=
    if (staged.file [secretKey]).isSome then lit "included"
    else if env.secretKeySetting then lit "from HABENY_SECRET_KEY (not included; keep it too)"
    else lit "none yet (nothing has been encrypted)"
  files := staged.files.map fun e => (Path.text e.1, ⟨env.sha256 e.2, env.size e.2⟩)

def member (e : Path × Node C) : Member C where
  name := Path.text e.1
  kind := match e.2 with
    | .directory => .directory
    | .file c => .file c

/-- The archive of what was copied, with its manifest. -/
def pack (label : CodeText) (version : ℕ) (staged : Dict EntryName (Entry C)) : Archive C :=
  let m := env.manifest label version (FileTree.ofDict staged)
  let tree := FileTree.ofDict (staged.set manifestJson (.file (env.dumps m)))
  .members ((tree.listingUnder habenyBackup).map member)

/-- Write a new backup and prune old ones.  Connecting to a database makes one.  The name is that
of the first reading of the clock for which there is no backup. -/
def createBackup (label : CodeText) (stamps : List CodeText) (s : DataDir C) :
    Except Failure CodeText × DataDir C :=
  if ¬isLabel label then (.error .invalidLabel, s)
  else
    let database := env.db.content s.store
    let s' := { s with store := { s.store with database := some database } }
    match env.db.userVersion database with
    | .error _ => (.error .other, s')
    | .ok version =>
      match stamps.find? fun stamp => decide (target stamp label ∉ s.archives) with
      | none => (.error .waiting, s')
      | some stamp =>
        let name := target stamp label
        (.ok name, { s' with
          archives := keepGreatest env.keep
            (s.archives.insert name (env.pack label version (env.stage s))) })

/-- The archive of a name; what is not there cannot be read. -/
def archiveAt (s : DataDir C) (name : CodeText) : Archive C :=
  (s.archives.lookup name).getD .unreadable

/-! ## Unpacking -/

/-- The check of a member before anything is extracted. -/
def safeMember (m : Member C) : Except Failure Unit :=
  let parts := Path.parts m.name
  if m.name.head? = some slash ∨ lit ".." ∈ parts ∨ parts.head? ≠ some habenyBackup.val then
    .error (.unexpectedPath m.name)
  else
    match m.kind with
    | .other => .error (.unexpectedEntryType m.name)
    | _ => .ok ()

/-- A name of which the last part is a dot: a directory. -/
def endsInDot (name : CodeText) : Bool :=
  ((name.splitOn slash).filter fun part => decide (part ≠ [])).getLast? == some (lit ".")

def putMember (t : FileTree C) (p : Path) (n : Node C) : Except Failure (FileTree C) :=
  match t.put p n with
  | none => .error .unreadable
  | some u => .ok u

/-- Extract a member; a name with a null character raises another exception. -/
def extractMember (t : FileTree C) (m : Member C) : Except Failure (FileTree C) :=
  match Path.ofParts (Path.parts m.name) with
  | none => .error .other
  | some p =>
    match m.kind with
    | .directory => putMember t p .directory
    | .file c => if endsInDot m.name then .error .unreadable else putMember t p (.file c)
    | .other => .error .other

/-- The directory that an archive holds, when its members are safe and can be extracted. -/
def extractall : Archive C → Except Failure (FileTree C)
  | .unreadable => .error .unreadable
  | .members ms => do
    ms.forM safeMember
    let t ← ms.foldlM extractMember FileTree.empty
    match t.sub [habenyBackup] with
    | none => .error .noManifest
    | some root => .ok root

/-- The entries of the manifest; of a manifest that is no object nothing can be got. -/
def readManifest (root : FileTree C) : Except Failure JsonEntries :=
  match (root.file [manifestJson]).bind env.loads with
  | none => .error .noManifest
  | some (.dict entries) => .ok entries
  | some _ => .error .other

/-- `manifest.get("files", {})` -/
def manifestFiles (entries : JsonEntries) : Except Failure JsonEntries :=
  match entries.lookup (lit "files") with
  | none => .ok []
  | some (.dict files) => .ok files
  | some _ => .error .other

/-- The path of a name that stays in the tree. -/
def relative (name : CodeText) : Option Path :=
  if name.head? = some slash then none else Path.ofParts (Path.parts name)

/-- The content of the file that a name of the manifest leads to. -/
def leadsTo (root : FileTree C) (name : CodeText) : Option C :=
  match relative name with
  | none => env.elsewhere root name
  | some p => root.file p

/-- `meta["sha256"]` -/
def digestOf : JsonValue → Option JsonValue
  | .dict entries => entries.lookup (lit "sha256")
  | _ => none

/-- The check of a name of the manifest. -/
def checkFile (root : FileTree C) (e : CodeText × JsonValue) : Except Failure Unit :=
  match env.leadsTo root e.1 with
  | none => .error (.checksum e.1)
  | some c =>
    match digestOf e.2 with
    | none => .error .other
    | some digest =>
      if digest.text? = some (env.sha256 c) then .ok () else .error (.checksum e.1)

/-- The database that SQLite opens. -/
def database (root : FileTree C) : Option C :=
  (root.file [platformDb]).map fun c => env.opened c (root.file [platformDbWal])

def checkDatabase (root : FileTree C) : Except Failure Unit :=
  match env.database root with
  | none => .error .other
  | some c =>
    match env.db.integrityOk c with
    | .error _ => .error .other
    | .ok false => .error .damaged
    | .ok true => .ok ()

/-- The extracted directory and the manifest of an archive that passes its checks. -/
def unpack (a : Archive C) : Except Failure (FileTree C × JsonEntries) := do
  let root ← extractall a
  let entries ← env.readManifest root
  let files ← manifestFiles entries
  files.forM (env.checkFile root)
  env.checkDatabase root
  return (root, entries)

/-! ## Restoring a backup -/

/-- `manifest.get("schema_version", 0) > latest_version()` -/
def checkSchema (entries : JsonEntries) : Except Failure Unit :=
  match entries.lookup (lit "schema_version") with
  | none => .ok ()
  | some version =>
    match version.exceeds env.db.latestVersion with
    | none => .error .other
    | some true => .error (.newer version (entries.lookup (lit "habeny_version")))
    | some false => .ok ()

/-- SQLite's files where archives are unpacked. -/
def unpackedDb : Migrations.BackupEnv C := { env.db with directory := env.unpacked }

def unpackedName : Text := "platform.db".toList

/-- `migrations.restore` of the unpacked database. -/
def restoreDatabase (root : FileTree C) (s : Migrations.Store C) :
    Except Migrations.Failure ℕ × Migrations.Store C :=
  match env.database root with
  | none => (.error (env.unpackedDb.notFound unpackedName), s)
  | some file =>
    match env.unpackedDb.checkSource unpackedName file with
    | .error e => (.error e, s)
    | .ok version =>
      match s.database with
      | none => (.ok version, { s with database := some file })
      | some old =>
        match env.db.backup false Migrations.beforeRestore old s.backups with
        | (.error e, files) => (.error e, { s with backups := files })
        | (.ok _, files) => (.ok version, ⟨some file, files⟩)

/-- Put a new entry in place, if there is one; what it replaces is kept aside. -/
def replaceEntry {V : Type} (new : EntryName → Option V) (current : EntryName → Option V)
    (x : EntryName) : EntryName → Option V :=
  match new x with
  | none => current
  | some v =>
    let kept := match current x with
      | none => current
      | some old => Function.update current (aside x) (some old)
    Function.update kept x (some v)

def replaceEach {V : Type} (new : EntryName → Option V) (xs : List EntryName)
    (current : EntryName → Option V) : EntryName → Option V :=
  xs.foldl (replaceEntry new) current

/-- Put the files and directories of an extracted archive in place. -/
def place (root : FileTree C) (s : DataDir C) : DataDir C :=
  let files := replaceEach (fun x => root.file [x]) backupFiles s.files
  { s with
    files := match root.file [habenyConf] with
      | none => files
      | some c => Function.update files restoredConf (some c)
    directories := replaceEach (fun x => root.sub [x]) backupDirectories s.directories }

/-- The manifest as it is returned. -/
def restoredManifest (root : FileTree C) (entries : JsonEntries) : JsonEntries :=
  match root.file [habenyConf] with
  | none => entries
  | some _ => entries.set (lit "config_restored_to")
      (.str (env.dataDir ++ lit "/" ++ restoredConf.val))

/-- Restore the data from a backup. -/
def restoreBackup (a : Archive C) (s : DataDir C) : Except Failure JsonEntries × DataDir C :=
  match env.unpack a with
  | .error e => (.error e, s)
  | .ok (root, entries) =>
    match env.checkSchema entries with
    | .error e => (.error e, s)
    | .ok () =>
      match env.restoreDatabase root s.store with
      | (.error e, store) => (.error (.database e), { s with store := store })
      | (.ok _, store) =>
        (.ok (env.restoredManifest root entries), place root { s with store := store })

end Env

end Habeny.Backup
