import Habeny.Backup.Install

/-!
# What a new backup holds

The members of a new archive are extracted to the tree that was copied, with the manifest: the
database, each listed file, and each listed directory without what `*.tmp` matches.  Such an
archive is accepted unless its database is damaged or newer.
-/

namespace Habeny.Backup

open Habeny.Lib CodeText Checks

variable {C : Type}

namespace Env

variable {env : Env C}

/-! ## Extracting a new archive -/

lemma member_name (e : Path × Node C) : (member e).name = Path.text e.1 := rfl

lemma safeMember_member {e : Path × Node C} {p : Path} (h : e.1 = habenyBackup :: p) :
    safeMember (member e) = .ok () := by
  have hne : e.1 ≠ [] := by
    rw [h]
    exact List.cons_ne_nil _ _
  have hdots : lit ".." ∉ e.1.map Subtype.val := by
    intro hmem
    obtain ⟨x, -, hx⟩ := List.mem_map.mp hmem
    exact x.property.2.2.1 hx
  have hroot : (e.1.map Subtype.val).head? = some habenyBackup.val := by
    rw [h]
    rfl
  simp only [safeMember, member_name, Path.parts_text hne]
  rw [if_neg (not_or.mpr ⟨Path.head?_text hne, not_or.mpr ⟨hdots, not_not.mpr hroot⟩⟩)]
  obtain ⟨q, n⟩ := e
  cases n <;> rfl

lemma endsInDot_text {p : Path} (h : p ≠ []) : endsInDot (Path.text p) = false := by
  have hall : (p.map Subtype.val).filter (fun part => decide (part ≠ [])) = p.map Subtype.val := by
    refine List.filter_eq_self.mpr fun part hpart => ?_
    obtain ⟨x, -, rfl⟩ := List.mem_map.mp hpart
    exact decide_eq_true x.property.1
  rw [endsInDot, Path.splitOn_text h, hall, beq_eq_false_iff_ne]
  intro hlast
  obtain ⟨x, -, hx⟩ := List.mem_map.mp (List.mem_of_getLast? hlast)
  exact x.property.2.1 hx

lemma extractMember_member (t : FileTree C) {e : Path × Node C} (h : e.1 ≠ []) :
    extractMember t (member e) = putMember t e.1 e.2 := by
  obtain ⟨p, n⟩ := e
  simp only [extractMember, member_name, Path.parts_text h, Path.ofParts_map_val]
  cases n with
  | directory => rfl
  | file c => simp [member, endsInDot_text h]

/-- Members are extracted as the entries are put. -/
lemma foldlM_extractMember {es : List (Path × Node C)} {t u : FileTree C}
    (hes : ∀ e ∈ es, e.1 ≠ []) (h : t.putAll es = some u) :
    (es.map member).foldlM extractMember t = .ok u := by
  induction es generalizing t with
  | nil =>
    cases h
    rfl
  | cons e es ih =>
    rw [FileTree.putAll, Option.bind_eq_some_iff] at h
    obtain ⟨v, hv, hu⟩ := h
    have hstep : extractMember t (member e) = .ok v := by
      rw [extractMember_member t (hes e List.mem_cons_self), putMember, hv]
    rw [List.map_cons, List.foldlM_cons, hstep]
    exact ih (fun b hb => hes b (List.mem_cons_of_mem e hb)) hu

/-- **A new archive holds what was copied, with the manifest.** -/
theorem extractall_pack (label : CodeText) (version : ℕ) (staged : Dict EntryName (Entry C)) :
    ∃ root, extractall (env.pack label version staged) = .ok root ∧
      ∀ p, root.get p = (FileTree.ofDict (staged.set manifestJson
        (.file (env.dumps (env.manifest label version (FileTree.ofDict staged)))))).get p := by
  obtain ⟨u, root, hu, hroot, hget⟩ := FileTree.putAll_listingUnder habenyBackup
    (FileTree.ofDict (staged.set manifestJson
      (.file (env.dumps (env.manifest label version (FileTree.ofDict staged))))))
  refine ⟨root, ?_, hget⟩
  have hpaths : ∀ e ∈ FileTree.listingUnder habenyBackup (FileTree.ofDict (staged.set manifestJson
      (.file (env.dumps (env.manifest label version (FileTree.ofDict staged)))))),
      ∃ p, e.1 = habenyBackup :: p := fun e he => by
    obtain ⟨p, hp, -⟩ := FileTree.mem_listingUnder.mp he
    exact ⟨p, hp⟩
  have hsafe : ((FileTree.listingUnder habenyBackup (FileTree.ofDict (staged.set manifestJson
      (.file (env.dumps (env.manifest label version (FileTree.ofDict staged))))))).map
      member).forM safeMember = .ok () := by
    refine forM_eq_ok_iff.mpr fun m hm => ?_
    obtain ⟨e, he, rfl⟩ := List.mem_map.mp hm
    obtain ⟨p, hp⟩ := hpaths e he
    exact safeMember_member hp
  have hextract := foldlM_extractMember (fun e he => by
    obtain ⟨p, hp⟩ := hpaths e he
    rw [hp]
    exact List.cons_ne_nil _ _) hu
  rw [pack, extractall, hsafe]
  simp only [hextract, bind, Except.bind, hroot]

/-! ## What is copied -/

lemma get_stage_of_not_listed {s : DataDir C} {x : EntryName} (hdb : x ≠ platformDb)
    (hfiles : x ∉ backupFiles) (hdirs : x ∉ backupDirectories) (hconf : x ∉ [habenyConf]) :
    (env.stage s).get x = none := by
  simp [stage, Dict.get_setEach, hfiles, hdirs, hconf, hdb]

lemma get_stage_platformDb (s : DataDir C) :
    (env.stage s).get platformDb = some (.file (env.db.content s.store)) := by
  have hfiles : platformDb ∉ backupFiles := by decide
  have hdirs : platformDb ∉ backupDirectories := by decide
  have hconf : platformDb ∉ [habenyConf] := by decide
  simp only [stage, Dict.get_setEach, hfiles, hdirs, hconf, if_false, Dict.get_set_self]

lemma get_stage_file (s : DataDir C) {x : EntryName} (h : x ∈ backupFiles) :
    (env.stage s).get x = (s.files x).map .file := by
  have hapart : ∀ x ∈ backupFiles, x ≠ platformDb ∧ x ∉ backupDirectories ∧ x ∉ [habenyConf] := by
    decide
  obtain ⟨hdb, hdirs, hconf⟩ := hapart x h
  simp [stage, Dict.get_setEach, h, hdirs, hconf, hdb]

lemma get_stage_directory (s : DataDir C) {x : EntryName} (h : x ∈ backupDirectories) :
    (env.stage s).get x =
      (s.directories x).map fun t => .tree (t.restrict fun y => !isTmp y) := by
  have hapart : ∀ x ∈ backupDirectories, x ≠ platformDb ∧ x ∉ backupFiles ∧ x ∉ [habenyConf] := by
    decide
  obtain ⟨hdb, hfiles, hconf⟩ := hapart x h
  simp [stage, Dict.get_setEach, h, hfiles, hconf, hdb]

/-! ## A new archive -/

/-- The archive of a data directory holds this tree. -/
structure Holds (env : Env C) (label : CodeText) (version : ℕ) (s : DataDir C)
    (root : FileTree C) : Prop where
  extracted : extractall (env.pack label version (env.stage s)) = .ok root
  get : ∀ p, root.get p = (FileTree.ofDict ((env.stage s).set manifestJson
    (.file (env.dumps (env.manifest label version (FileTree.ofDict (env.stage s))))))).get p

variable {label : CodeText} {version : ℕ} {s : DataDir C} {root : FileTree C}

lemma Holds.get_staged (h : env.Holds label version s root) {x : EntryName} (hx : x ≠ manifestJson)
    (p : Path) : root.get (x :: p) = ((env.stage s).get x).bind fun e => e.get p := by
  rw [h.get, FileTree.get_ofDict_cons, Dict.get_set_of_ne hx]

lemma Holds.file_staged (h : env.Holds label version s root) {x : EntryName}
    (hx : x ≠ manifestJson) (p : Path) :
    root.file (x :: p) = (FileTree.ofDict (env.stage s)).file (x :: p) := by
  rw [FileTree.file, FileTree.file, h.get_staged hx, FileTree.get_ofDict_cons]

lemma Holds.file_platformDb (h : env.Holds label version s root) :
    root.file [platformDb] = some (env.db.content s.store) := by
  rw [h.file_staged (by decide), FileTree.file_ofDict_cons, get_stage_platformDb]
  rfl

lemma Holds.database (h : env.Holds label version s root) :
    env.database root = some (env.db.content s.store) := by
  have hwal : root.file [platformDbWal] = none := by
    rw [h.file_staged (by decide), FileTree.file_ofDict_cons,
      get_stage_of_not_listed (by decide) (by decide) (by decide) (by decide)]
    rfl
  rw [Env.database, h.file_platformDb, hwal, Option.map_some, env.opened_alone]

lemma Holds.file_listed (h : env.Holds label version s root) {x : EntryName}
    (hx : x ∈ backupFiles) : root.file [x] = s.files x := by
  have hapart : ∀ x ∈ backupFiles, x ≠ manifestJson := by decide
  rw [h.file_staged (hapart x hx), FileTree.file_ofDict_cons, get_stage_file s hx]
  cases s.files x <;> rfl

/-- A directory that was backed up is there without what `*.tmp` matches. -/
lemma Holds.sub_listed (h : env.Holds label version s root) {x : EntryName}
    (hx : x ∈ backupDirectories) {t : FileTree C} (ht : s.directories x = some t) :
    ∃ u, root.sub [x] = some u ∧ ∀ p, u.get p = (t.restrict fun y => !isTmp y).get p := by
  have hapart : ∀ x ∈ backupDirectories, x ≠ manifestJson := by decide
  have hget : ∀ p, root.get (x :: p) = (t.restrict fun y => !isTmp y).get p := by
    intro p
    rw [h.get_staged (hapart x hx), get_stage_directory s hx, ht]
    rfl
  obtain ⟨u, hu⟩ := FileTree.sub_eq_some ((hget []).trans (FileTree.get_root _))
  exact ⟨u, hu, fun p => (FileTree.get_sub hu p).trans (hget p)⟩

lemma Holds.sub_absent (h : env.Holds label version s root) {x : EntryName}
    (hx : x ∈ backupDirectories) (hnone : s.directories x = none) : root.sub [x] = none := by
  have hapart : ∀ x ∈ backupDirectories, x ≠ manifestJson := by decide
  rw [FileTree.sub_eq_none_iff, h.get_staged (hapart x hx), get_stage_directory s hx, hnone]
  simp

lemma nodup_manifest (label : CodeText) (version : ℕ) (t : FileTree C) :
    ((env.manifest label version t).files.map Prod.fst).Nodup := by
  have hmap : (env.manifest label version t).files.map Prod.fst =
      (t.files.map Prod.fst).map Path.text := by
    simp [manifest]
  rw [hmap]
  have hne : ∀ p ∈ t.files.map Prod.fst, p ≠ [] := by
    rintro p hp rfl
    obtain ⟨e, he, hnil⟩ := List.mem_map.mp hp
    have hfile := FileTree.mem_files.mp he
    rw [hnil, FileTree.file_root] at hfile
    exact absurd hfile (by simp)
  exact t.nodup_files.map_on fun p hp q hq h => Path.text_injective (hne p hp) (hne q hq) h

lemma lookup_files (m : Manifest) :
    m.entries.lookup (lit "files") = some (.dict (m.files.map fun e => (e.1, e.2.json))) := rfl

lemma lookup_schemaVersion (m : Manifest) :
    m.entries.lookup (lit "schema_version") = some (.int m.schemaVersion) := rfl

lemma Holds.readManifest (h : env.Holds label version s root) :
    env.readManifest root =
      .ok (env.manifest label version (FileTree.ofDict (env.stage s))).entries := by
  have hfile : root.file [manifestJson] = some
      (env.dumps (env.manifest label version (FileTree.ofDict (env.stage s)))) := by
    rw [FileTree.file_congr h.get, FileTree.file_ofDict_cons, Dict.get_set_self]
    rfl
  rw [Env.readManifest, hfile, Option.bind_some, env.loads_dumps _ (nodup_manifest ..)]

/-- Every file that was copied is where the manifest says, with its SHA-256. -/
lemma Holds.checkFile (h : env.Holds label version s root) {e : CodeText × JsonValue}
    (he : e ∈ (env.manifest label version (FileTree.ofDict (env.stage s))).files.map
      fun e => (e.1, e.2.json)) : env.checkFile root e = .ok () := by
  obtain ⟨m, hm, rfl⟩ := List.mem_map.mp he
  obtain ⟨⟨p, c⟩, hfile, rfl⟩ := List.mem_map.mp hm
  have hcopied := FileTree.mem_files.mp hfile
  cases p with
  | nil =>
    rw [FileTree.file_root] at hcopied
    exact absurd hcopied (by simp)
  | cons x p =>
    have hx : x ≠ manifestJson := by
      rintro rfl
      rw [FileTree.file_ofDict_cons, get_stage_of_not_listed (by decide) (by decide) (by decide)
        (by decide)] at hcopied
      exact absurd hcopied (by simp)
    have hrelative : relative (Path.text (x :: p)) = some (x :: p) := by
      rw [relative, if_neg (Path.head?_text (List.cons_ne_nil x p)),
        Path.parts_text (List.cons_ne_nil x p), Path.ofParts_map_val]
    have hleads : env.leadsTo root (Path.text (x :: p)) = some c := by
      rw [leadsTo, hrelative]
      exact (h.file_staged hx p).trans hcopied
    simp only [Env.checkFile, hleads]
    exact if_pos rfl

/-- **A new archive is accepted exactly when its database is not damaged and not newer.** -/
lemma Holds.accepted_iff (h : env.Holds label version s root)
    (hversion : env.db.userVersion (env.db.content s.store) = .ok version) :
    (∃ root entries, env.Accepted (env.pack label version (env.stage s)) root entries) ↔
      env.db.integrityOk (env.db.content s.store) = .ok true ∧
        version ≤ env.db.latestVersion := by
  constructor
  · rintro ⟨root', entries, haccepted⟩
    have hroot : root' = root := by
      have hextracted := haccepted.extracted
      rw [h.extracted] at hextracted
      exact (Except.ok.inj hextracted).symm
    subst hroot
    obtain ⟨c, hc, hsound, v, hv, hok⟩ := haccepted.database
    rw [h.database, Option.some.injEq] at hc
    subst hc
    rw [hversion] at hok
    cases hok
    exact ⟨hsound, hv⟩
  · rintro ⟨hsound, hv⟩
    refine ⟨root, _, h.extracted, h.readManifest, ⟨_, ?_, fun e he => h.checkFile he⟩,
      ⟨_, h.database, hsound, version, hv, hversion⟩, ?_⟩
    · rw [manifestFiles, lookup_files]
    · have hexceeds : (JsonValue.int version).exceeds env.db.latestVersion = some false := by
        simp [JsonValue.exceeds, hv]
      rw [checkSchema, lookup_schemaVersion]
      dsimp only
      rw [show (env.manifest label version (FileTree.ofDict (env.stage s))).schemaVersion = version
        from rfl, hexceeds]

end Env

end Habeny.Backup
