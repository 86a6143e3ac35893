import Habeny.Installers.Install
import Habeny.Lib.PathText

/-!
# The downloads of the installers

The host keeps the package of an agent under a name with the version in it, or with the manager's
host where the manager is asked for its agent, and does not download what it already has.

A name in the cache stands for one address, whichever installers have run and with what values, so
that a package which is found there is the one that the installer would have downloaded
(`one_source_per_file`).  The name of a file leads to no other directory, and a value cannot change
which server is asked (`downloads_confined`).
-/

namespace Habeny.Installers

open Habeny.Lib CodeText Checks
open Habeny.Lib.Shell (fill)
open Habeny.Lib.PyRepr (Printables)
open Habeny.Deploy.MemoryLimit (Unicode)

/-! ## The commands on the host -/

/-- The options of a download, the name of the file, and the address. -/
def Agent.package : Agent → Option (List CodeText × Line × Line)
  | .wazuh => some ([lit "-q"], wazuhDeb, wazuhUrl)
  | .ossec => none
  | .utmstack => some ([lit "--no-check-certificate", lit "-q"], utmstackFile, utmstackUrl)
  | .elastic => some ([lit "-q"], elasticDeb, elasticUrl)

/-- The command that downloads to a file in the cache. -/
def Places.download (p : Places) (options : List CodeText) (file url : CodeText) : List CodeText :=
  lit "wget" :: options ++ [lit "-O", p.cacheDir ++ slash :: file, url]

variable {o o' : Outcomes} {p : Places} {r : Request} {U U' : Unicode} {P P' : Printables}
  {asks asks' : List Ask} {a b : Agent} {name name' : CodeText} {s s' : Settings}
  {argv : List CodeText} {options : List CodeText}

lemma onHost_notMem_executeInContainerShell (id command : CodeText) :
    .onHost argv ∉ executeInContainerShell o id command := by
  rw [executeInContainerShell]
  split_ifs <;> simp

lemma eq_of_onHost_ensureCached {download : List CodeText}
    (h : .onHost argv ∈ (ensureCached o download).1) : argv = download := by
  rw [ensureCached] at h
  split_ifs at h
  · cases h
  · exact Ask.onHost.inj (List.mem_singleton.mp h)

lemma eq_of_onHost_providePackage {file url path : Line}
    (h : .onHost argv ∈ (providePackage o p r options file url path).1) :
    argv = p.download options (fill r.values file) (fill r.values url) := by
  rw [providePackage] at h
  dsimp only at h
  split_ifs at h
  · obtain h | h := List.mem_append.mp h
    · exact eq_of_onHost_ensureCached h
    · cases List.mem_singleton.mp h
  · exact eq_of_onHost_ensureCached h

lemma eq_of_onHost_provideBinary (h : .onHost argv ∈ (provideBinary o p r).1) :
    argv = p.download [lit "--no-check-certificate", lit "-q"] (fill r.values utmstackFile)
      (fill r.values utmstackUrl) := by
  rw [provideBinary] at h
  dsimp only at h
  -- whatever is done in the container, only the download is on the host
  have hcached : .onHost argv ∈ (ensureCached o [lit "wget", lit "--no-check-certificate",
      lit "-q", lit "-O", p.cacheFile r utmstackFile, fill r.values utmstackUrl]).1 := by
    split_ifs at h <;> simpa [executeInContainer, copyToContainer] using h
  exact eq_of_onHost_ensureCached hcached

/-- What an installer asks the host for is the download of its package. -/
lemma download_of_onHost (h : a.install o p (a.request name s) U P = .ok asks)
    (hask : .onHost argv ∈ asks) :
    ∃ options file url, a.package = some (options, file, url) ∧
      argv = p.download options (fill (a.request name s).values file)
        (fill (a.request name s).values url) := by
  cases a with
  | wazuh =>
    obtain ⟨-, -, -, -, rfl⟩ := installWazuhAgent_eq_ok h
    refine ⟨_, _, _, rfl, ?_⟩
    obtain hask | hask := List.mem_append.mp hask
    · obtain hask | hask := List.mem_append.mp hask
      · exact eq_of_onHost_providePackage hask
      · exact absurd hask (onHost_notMem_executeInContainerShell _ _)
    · split_ifs at hask
      · exact absurd hask (onHost_notMem_executeInContainerShell _ _)
      · cases hask
  | ossec =>
    -- the script installs from a repository
    obtain ⟨_, _, -, -, rfl⟩ := installOssecAgent_eq_ok h
    exact absurd hask (onHost_notMem_executeInContainerShell _ _)
  | utmstack =>
    obtain ⟨-, -, -, rfl⟩ := installUtmstackAgent_eq_ok h
    refine ⟨_, _, _, rfl, ?_⟩
    obtain hask | hask := List.mem_append.mp hask
    · exact eq_of_onHost_provideBinary hask
    · exact absurd hask (onHost_notMem_executeInContainerShell _ _)
  | elastic =>
    obtain ⟨-, -, -, -, rfl⟩ := installElasticAgent_eq_ok h
    refine ⟨_, _, _, rfl, ?_⟩
    obtain hask | hask := List.mem_append.mp hask
    · exact eq_of_onHost_providePackage hask
    · exact absurd hask (onHost_notMem_executeInContainerShell _ _)

/-! ## Names and addresses -/

lemma download_inj {options' : List CodeText} {file file' url url' : CodeText} :
    p.download options file url = p.download options' file' url' ↔
      options = options' ∧ file = file' ∧ url = url' := by
  constructor
  · intro h
    obtain ⟨hoptions, hlast⟩ := List.append_inj' (List.cons.inj h).2 rfl
    obtain ⟨hfile, hurl⟩ := List.cons.inj (List.cons.inj hlast).2
    exact ⟨hoptions, (List.cons.inj (List.append_cancel_left hfile)).2, (List.cons.inj hurl).1⟩
  · rintro ⟨rfl, rfl, rfl⟩
    rfl

/-- The first letter of the names of an agent's packages. -/
def Agent.initial : Agent → ℕ
  | .wazuh => 119
  | .ossec => 111
  | .utmstack => 117
  | .elastic => 101

lemma initial_inj (h : a.initial = b.initial) : a = b := by
  cases a <;> cases b <;> first | rfl | cases h

variable {values values' : Field → CodeText} {options' : List CodeText} {file file' url url' : Line}

lemma head?_fill (h : a.package = some (options, file, url)) :
    (fill values file).head? = some a.initial := by
  cases a <;> cases h <;> rfl

/-- A name says which package it is, and where it comes from. -/
lemma source_of_name (ha : a.package = some (options, file, url))
    (hb : b.package = some (options', file', url'))
    (h : fill values file = fill values' file') :
    options = options' ∧ fill values url = fill values' url' := by
  -- no two agents have packages that begin with the same letter
  obtain rfl : a = b := by
    refine initial_inj (Option.some.inj ?_)
    rw [← head?_fill ha, h, head?_fill hb]
  -- the address of a package that is released has its name in it, and that of UTMstack its host
  cases a with
  | wazuh =>
    cases ha
    cases hb
    refine ⟨rfl, ?_⟩
    rw [wazuhUrl, Shell.fill_cons, Shell.fill_cons, h]
    rfl
  | ossec => cases ha
  | utmstack =>
    cases ha
    cases hb
    have hhost : values .host = values' .host := by
      rw [utmstackFile, Shell.fill_cons, Shell.fill_cons] at h
      simpa [fill, Shell.Piece.fill] using List.append_cancel_left h
    refine ⟨rfl, ?_⟩
    simp only [utmstackUrl, fill, List.flatMap_cons, Shell.Piece.fill, hhost]
    rfl
  | elastic =>
    cases ha
    cases hb
    refine ⟨rfl, ?_⟩
    rw [elasticUrl, Shell.fill_cons, Shell.fill_cons, h]
    rfl

/-- **A name in the cache stands for one address.**  Whichever installers run, with whatever values,
two downloads to one name are the same command. -/
theorem one_source_per_file {f u u' : CodeText}
    (ha : a.install o p (a.request name s) U P = .ok asks)
    (hb : b.install o' p (b.request name' s') U' P' = .ok asks')
    (hask : .onHost (p.download options f u) ∈ asks)
    (hask' : .onHost (p.download options' f u') ∈ asks') :
    p.download options f u = p.download options' f u' := by
  obtain ⟨options₁, file₁, url₁, hpackage, hargv⟩ := download_of_onHost ha hask
  obtain ⟨options₂, file₂, url₂, hpackage', hargv'⟩ := download_of_onHost hb hask'
  obtain ⟨rfl, hfile, rfl⟩ := download_inj.mp hargv
  obtain ⟨rfl, hfile', rfl⟩ := download_inj.mp hargv'
  obtain ⟨hoptions, hurl⟩ := source_of_name hpackage hpackage' (hfile.symm.trans hfile')
  exact download_inj.mpr ⟨hoptions, rfl, hurl⟩

theorem one_source_per_file_two :
    let o : Outcomes := ⟨false, true, true, true, true, true, true⟩
    let p : Places := ⟨lit "/var/cache", lit "1", lit "2"⟩
    let s : Settings := ⟨some (lit "10.0.0.7"), some (lit "web"), none, none⟩
    let P : Printables := ⟨fun _ => false, fun _ _ => rfl⟩
    ∃ asks asks' options options' f u u',
      Agent.wazuh.install o p (Agent.wazuh.request (lit "web-1") s) Deploy.MemoryLimit.ascii P =
          .ok asks ∧
        Agent.wazuh.install o p (Agent.wazuh.request (lit "web-2") s) Deploy.MemoryLimit.ascii P =
          .ok asks' ∧
        .onHost (p.download options f u) ∈ asks ∧ .onHost (p.download options' f u') ∈ asks' ∧
        p.download options f u = p.download options' f u' := by
  intro o p s P
  have hhost : validateHost Deploy.MemoryLimit.ascii P s.siemIp = .ok (lit "10.0.0.7") := by
    decide
  have hgroup : validateGroup P s.agentGroup = .ok (lit "web") := by decide
  have hversion : validateVersion Deploy.MemoryLimit.ascii P (orText s.siemVersion "4.14.2") =
      .ok (lit "4.14.2") := by decide
  have hinstall : ∀ name, validateContainerName P (some name) = .ok name → ∃ asks,
      Agent.wazuh.install o p (Agent.wazuh.request name s) Deploy.MemoryLimit.ascii P = .ok asks ∧
        .onHost (p.download [lit "-q"] (fill (fun _ => lit "4.14.2") wazuhDeb)
          (fill (fun _ => lit "4.14.2") wazuhUrl)) ∈ asks := by
    intro name hname
    exact ⟨_, bind_eq_ok_iff.mpr ⟨name, hname, bind_eq_ok_iff.mpr ⟨_, hhost, bind_eq_ok_iff.mpr
      ⟨_, hgroup, bind_eq_ok_iff.mpr ⟨_, hversion, rfl⟩⟩⟩⟩, .head _⟩
  obtain ⟨asks, hasks, hask⟩ := hinstall (lit "web-1") (by decide)
  obtain ⟨asks', hasks', hask'⟩ := hinstall (lit "web-2") (by decide)
  exact ⟨asks, asks', _, _, _, _, _, hasks, hasks', hask, hask',
    one_source_per_file hasks hasks' hask hask'⟩

/-! ## Where the downloads lead -/

/-- The server that an agent is downloaded from. -/
def Agent.server (s : Settings) : Agent → CodeText
  | .wazuh => lit "packages.wazuh.com"
  | .ossec => []
  | .utmstack => s.siemIp.getD [] ++ lit ":9001"
  | .elastic => lit "artifacts.elastic.co"

variable {others : CodeText}

lemma valueChars_host {value : Option CodeText} {v : CodeText}
    (h : validateHost U P value = .ok v) (hothers : ∀ c ∈ hostOthers, c ∈ others) :
    ∀ c ∈ value.getD [], isValueChar U others c = true := by
  obtain ⟨rfl, hhost⟩ := validateHost_eq_ok h
  intro c hc
  exact isValueChar_mono hothers (isValueChar_of_isHost hhost c hc)

lemma valueChars_version {value : Option CodeText} {v : CodeText}
    (h : validateVersion U P value = .ok v) (hothers : ∀ c ∈ hostOthers, c ∈ others) :
    ∀ c ∈ value.getD [], isValueChar U others c = true := by
  obtain ⟨rfl, hversion⟩ := check_eq_ok h
  intro c hc
  exact isValueChar_mono hothers (isValueChar_of_version hversion c hc)

/-- The characters of a text of the source. -/
lemma valueChars_text {t : CodeText} (h : ∀ c ∈ t, isAlnum c = true ∨ c ∈ others) :
    ∀ c ∈ t, isValueChar U others c = true := by
  intro c hc
  exact isValueChar_iff.mpr ((h c hc).imp_right .inl)

lemma valueChars_txt {t : String} (h : ∀ c ∈ ascii t, isAlnum c = true ∨ c ∈ others) :
    ∀ c ∈ (txt t).fill values, isValueChar U others c = true := valueChars_text h

lemma valueChars_fill {line : Line}
    (h : ∀ piece ∈ line, ∀ c ∈ piece.fill values, isValueChar U others c = true) :
    ∀ c ∈ fill values line, isValueChar U others c = true := by
  intro c hc
  obtain ⟨piece, hpiece, hc⟩ := List.mem_flatMap.mp hc
  exact h piece hpiece c hc

/-- The name of a package has letters, digits and the characters of names. -/
lemma valueChars_file (h : a.install o p (a.request name s) U P = .ok asks)
    (hpackage : a.package = some (options, file, url)) :
    ∀ c ∈ fill (a.request name s).values file, isValueChar U nameOthers c = true := by
  refine valueChars_fill ?_
  cases a with
  | wazuh =>
    cases hpackage
    obtain ⟨-, -, -, ⟨_, hversion⟩, -⟩ := installWazuhAgent_eq_ok h
    simp only [wazuhDeb, List.forall_mem_cons]
    exact ⟨valueChars_txt (by decide), valueChars_version hversion (by decide),
      valueChars_txt (by decide), List.forall_mem_nil _⟩
  | ossec => cases hpackage
  | utmstack =>
    cases hpackage
    obtain ⟨-, ⟨_, hhost⟩, -, -⟩ := installUtmstackAgent_eq_ok h
    simp only [utmstackFile, List.forall_mem_cons]
    exact ⟨valueChars_txt (by decide), valueChars_host hhost (by decide), List.forall_mem_nil _⟩
  | elastic =>
    cases hpackage
    obtain ⟨-, -, -, ⟨_, hversion⟩, -⟩ := installElasticAgent_eq_ok h
    simp only [elasticDeb, List.forall_mem_cons]
    exact ⟨valueChars_txt (by decide), valueChars_version hversion (by decide),
      valueChars_txt (by decide), List.forall_mem_nil _⟩

lemma valueChars_server (h : a.install o p (a.request name s) U P = .ok asks) :
    ∀ c ∈ a.server s, isValueChar U (lit ".-:") c = true := by
  cases a with
  | wazuh => exact valueChars_text (t := lit "packages.wazuh.com") (by decide)
  | ossec => exact List.forall_mem_nil _
  | utmstack =>
    obtain ⟨-, ⟨_, hhost⟩, -, -⟩ := installUtmstackAgent_eq_ok h
    exact List.forall_mem_append.mpr
      ⟨valueChars_host hhost (by decide), valueChars_text (by decide)⟩
  | elastic => exact valueChars_text (t := lit "artifacts.elastic.co") (by decide)

/-- An address begins with the server. -/
lemma exists_path (hpackage : a.package = some (options, file, url)) :
    ∃ path, fill (a.request name s).values url =
      lit "https://" ++ a.server s ++ slash :: path := by
  cases a with
  | wazuh =>
    cases hpackage
    refine ⟨ascii "4.x/apt/pool/main/w/wazuh-agent/" ++
      fill (Agent.wazuh.request name s).values wazuhDeb, ?_⟩
    rw [wazuhUrl, Shell.fill_cons]
    rfl
  | ossec => cases hpackage
  | utmstack =>
    cases hpackage
    refine ⟨ascii "private/dependencies/agent/utmstack_agent_service", ?_⟩
    have hport : ascii ":9001/private/dependencies/agent/utmstack_agent_service" =
        lit ":9001" ++ slash :: ascii "private/dependencies/agent/utmstack_agent_service" := by
      decide
    simp only [utmstackUrl, txt, fill, List.flatMap_cons, List.flatMap_nil, Shell.Piece.fill, hport,
      Agent.server, List.append_nil, List.append_assoc]
    rfl
  | elastic =>
    cases hpackage
    refine ⟨ascii "downloads/beats/elastic-agent/" ++
      fill (Agent.elastic.request name s).values elasticDeb, ?_⟩
    rw [elasticUrl, Shell.fill_cons]
    rfl

/-- Such a name is one part of a path. -/
lemma parts_of_file {f : CodeText} (hhead : f.head? = some a.initial)
    (h : ∀ c ∈ f, isValueChar U nameOthers c = true) (dir : CodeText) :
    Path.parts (dir ++ slash :: f) = Path.parts dir ++ [f] := by
  have hslash : slash ∉ f := by
    intro hc
    exact absurd (isValueChar_ascii (h slash hc) (by decide)) (by decide)
  have hne : f ≠ [] := by
    rintro rfl
    cases hhead
  have hdot : f ≠ lit "." := by
    rintro rfl
    cases a <;> cases hhead
  rw [Path.parts_append, Path.parts_of_name hslash hne hdot]

/-- **No value changes where a download leads.**  The package is kept right in the cache, under a
name that begins with a letter of its own, and it comes over HTTPS from the agent's server: no value
has a character that ends the name of a server. -/
theorem downloads_confined (h : a.install o p (a.request name s) U P = .ok asks)
    (hask : .onHost argv ∈ asks) :
    ∃ options f path, argv = p.download options f (lit "https://" ++ a.server s ++ slash :: path) ∧
      Path.parts (p.cacheDir ++ slash :: f) = Path.parts p.cacheDir ++ [f] ∧
      f.head? = some a.initial ∧
      (∀ c ∈ f, isValueChar U nameOthers c = true) ∧
      ∀ c ∈ a.server s, isValueChar U (lit ".-:") c = true := by
  obtain ⟨options, file, url, hpackage, rfl⟩ := download_of_onHost h hask
  obtain ⟨path, hpath⟩ := exists_path hpackage
  have hhead : (fill (a.request name s).values file).head? = some a.initial := head?_fill hpackage
  have hchars := valueChars_file h hpackage
  exact ⟨options, _, path, congrArg (p.download options _) hpath, parts_of_file hhead hchars _,
    hhead, hchars, valueChars_server h⟩

theorem downloads_confined_utmstack :
    let o : Outcomes := ⟨false, true, true, true, true, true, true⟩
    let p : Places := ⟨lit "/var/cache", lit "1", lit "2"⟩
    let s : Settings := ⟨some (lit "10.0.0.7"), none, none, some (lit "k=")⟩
    let P : Printables := ⟨fun _ => false, fun _ _ => rfl⟩
    ∃ asks argv,
      Agent.utmstack.install o p (Agent.utmstack.request (lit "web-1") s) Deploy.MemoryLimit.ascii
          P = .ok asks ∧
        .onHost argv ∈ asks ∧
        ∃ options f path,
          argv = p.download options f (lit "https://10.0.0.7:9001" ++ slash :: path) ∧
            Path.parts (p.cacheDir ++ slash :: f) = Path.parts p.cacheDir ++ [f] := by
  intro o p s P
  obtain ⟨asks, hasks, hask⟩ : ∃ asks, Agent.utmstack.install o p
      (Agent.utmstack.request (lit "web-1") s) Deploy.MemoryLimit.ascii P = .ok asks ∧
        .onHost (p.download [lit "--no-check-certificate", lit "-q"]
          (fill (fun _ => lit "10.0.0.7") utmstackFile)
          (fill (fun _ => lit "10.0.0.7") utmstackUrl)) ∈ asks :=
    ⟨_, bind_eq_ok_iff.mpr ⟨lit "web-1", by decide, bind_eq_ok_iff.mpr ⟨lit "10.0.0.7",
      by decide, bind_eq_ok_iff.mpr ⟨lit "k=", by decide, rfl⟩⟩⟩, .head _⟩
  obtain ⟨options, f, path, hargv, hparts, -⟩ := downloads_confined hasks hask
  exact ⟨asks, _, hasks, hask, options, f, path, hargv, hparts⟩

end Habeny.Installers
