import Habeny.Installers.Scripts
import Habeny.Lib.Checks
import Habeny.Lib.FileTree

/-!
# Installing an agent

An installer checks its values, downloads the package of the agent to the host's cache, copies it
into the container, and runs its script there; where there is no package, the script downloads it.

Whatever the calls return, everything that an installer has a shell read is read in the same way for
all values that it accepts: the characters of a value stand for themselves, between quotes or in a
word that can be nothing but a word, and every other character is read as with all other values
(`installs_read_alike`).
-/

namespace Habeny.Installers

open Habeny.Lib CodeText Checks
open Habeny.Lib.Shell (Piece PieceReading Returns fill pieceReadings readings readings_fill)
open Habeny.Lib.PyRepr (Printables)
open Habeny.Deploy.MemoryLimit (Unicode)

/-! ## What is asked for -/

/-- What a command in a container gets as its input. -/
inductive Input where
  | package
  | script (text : CodeText)

inductive Ask where
  | onHost (argv : List CodeText)
  | inContainer (argv : List CodeText) (input : Option Input)

/-- What the calls of an installer return; a call that raises counts as one that fails. -/
structure Outcomes where
  /-- the package is in the cache -/
  cached : Bool
  /-- the download succeeds, and the package is there -/
  downloaded : Bool
  /-- the package has at least 1000 bytes -/
  large : Bool
  copied : Bool
  scriptCopied : Bool
  /-- the script has run, with whatever status -/
  ran : Bool
  succeeded : Bool

/-- Where the packages are on the host, and the names of the scripts in the container. -/
structure Places where
  cacheDir : CodeText
  scriptId : CodeText
  checkId : CodeText

/-- What an installer is given; the container's name is checked as well. -/
structure Request where
  container : Option CodeText
  host : Option CodeText
  group : Option CodeText
  version : Option CodeText
  token : Option CodeText

def Request.values (r : Request) : Field → CodeText
  | .container => r.container.getD []
  | .host => r.host.getD []
  | .group => r.group.getD []
  | .version => r.version.getD []
  | .token => r.token.getD []

/-! ## The calls -/

variable (o : Outcomes)

/-- `ensure_cached`: what is asked for, and whether there is a package. -/
def ensureCached (download : List CodeText) : List Ask × Bool :=
  if o.cached then ([], true) else ([.onHost download], o.downloaded)

def copyCommand : CodeText := ascii "cat > \"$1\" && chmod 644 \"$1\""

/-- `copy_to_container` -/
def copyToContainer (path : CodeText) : Ask :=
  .inContainer [lit "bash", lit "-c", copyCommand, lit "copy", path] (some .package)

/-- `execute_in_container` -/
def executeInContainer (command : CodeText) : Ask :=
  .inContainer [lit "bash", lit "-c", command] none

def scriptHead : CodeText := ascii "#!/bin/bash\nset -o pipefail\n"

def copyScriptCommand : CodeText := ascii "cat > \"$1\" && chmod +x \"$1\""

/-- `execute_in_container_shell` -/
def executeInContainerShell (id command : CodeText) : List Ask :=
  let path := lit "/tmp/script_" ++ id ++ lit ".sh"
  .inContainer [lit "bash", lit "-c", copyScriptCommand, lit "copy", path]
      (some (.script (scriptHead ++ command ++ [newline]))) ::
    if o.scriptCopied then
      .inContainer [lit "bash", path] none ::
        if o.ran then [.inContainer [lit "rm", lit "-f", path] none] else []
    else []

variable (p : Places) (r : Request)

/-- A package in the cache. -/
def Places.cacheFile (file : Line) : CodeText := p.cacheDir ++ slash :: fill r.values file

/-- Download a package, unless it is in the cache, and copy it into the container: what is asked
for, and whether the package is in the container then. -/
def providePackage (options : List CodeText) (file url path : Line) : List Ask × Bool :=
  let (asks, there) := ensureCached o
    (lit "wget" :: options ++ [lit "-O", p.cacheFile r file, fill r.values url])
  if there then (asks ++ [copyToContainer (fill r.values path)], o.copied) else (asks, false)

/-! ## The installers -/

variable (U : Unicode) (P : Printables)

/-- The script of the check that follows an installation of Wazuh. -/
def verification : CodeText :=
  ascii ("sleep 5 && systemctl is-active wazuh-agent 2>/dev/null && echo 'Agent active' || " ++
    "echo 'Agent inactive'")

/-- `install_wazuh_agent` -/
def installWazuhAgent : Except CodeText (List Ask) := do
  let _ ← validateContainerName P r.container
  let _ ← validateHost U P r.host
  let _ ← validateGroup P r.group
  let _ ← validateVersion U P r.version
  let (asks, copied) := providePackage o p r [lit "-q"] wazuhDeb wazuhUrl (tmp wazuhDeb)
  return asks ++ executeInContainerShell o p.scriptId (fill r.values (wazuhScript !copied)) ++
    if o.succeeded then executeInContainerShell o p.checkId verification else []

/-- `install_ossec_agent` -/
def installOssecAgent : Except CodeText (List Ask) := do
  let name ← validateContainerName P r.container
  let server ← validateHost U P r.host
  return executeInContainerShell o p.scriptId (ossecScript server name)

def makeDirCommand : CodeText := ascii "mkdir -p /opt/utmstack-linux-agent"

def chmodCommand : Line := txt "chmod 755 " :: utmstackBin

/-- What is asked for to get the binary into the container, and whether it is there then. -/
def provideBinary : List Ask × Bool :=
  let (asks, there) := ensureCached o
    [lit "wget", lit "--no-check-certificate", lit "-q", lit "-O", p.cacheFile r utmstackFile,
      fill r.values utmstackUrl]
  if there && o.large then
    let copying := asks ++ [executeInContainer makeDirCommand,
      copyToContainer (fill r.values utmstackBin)]
    if o.copied then (copying ++ [executeInContainer (fill r.values chmodCommand)], true)
    else (copying, false)
  else (asks, false)

/-- `install_utmstack_agent` -/
def installUtmstackAgent : Except CodeText (List Ask) := do
  let _ ← validateContainerName P r.container
  let _ ← validateHost U P r.host
  let _ ← validateToken P r.token
  let (asks, copied) := provideBinary o p r
  return asks ++ executeInContainerShell o p.scriptId (fill r.values (utmstackScript !copied))

/-- `install_elastic_agent` -/
def installElasticAgent : Except CodeText (List Ask) := do
  let _ ← validateContainerName P r.container
  let _ ← validateHost U P r.host
  let _ ← validateToken P r.token
  let _ ← validateVersion U P r.version
  let (asks, copied) := providePackage o p r [lit "-q"] elasticDeb elasticUrl (tmp elasticDeb)
  return asks ++ executeInContainerShell o p.scriptId (fill r.values (elasticScript !copied))

/-- The agents that can be installed. -/
inductive Agent where
  | wazuh
  | ossec
  | utmstack
  | elastic

/-- The part of a deployment's settings that the installers get. -/
structure Settings where
  siemIp : Option CodeText
  agentGroup : Option CodeText
  siemVersion : Option CodeText
  siemAuthKey : Option CodeText

/-- `or` with a text. -/
def orText (value : Option CodeText) (other : String) : Option CodeText :=
  if value.getD [] = [] then some (lit other) else value

/-- What the installer of an agent is given, from the settings. -/
def Agent.request (name : CodeText) (s : Settings) : Agent → Request
  | .wazuh => ⟨some name, s.siemIp, s.agentGroup, orText s.siemVersion "4.14.2", none⟩
  | .ossec => ⟨some name, s.siemIp, none, none, none⟩
  | .utmstack => ⟨some name, s.siemIp, none, none, s.siemAuthKey⟩
  | .elastic => ⟨some name, s.siemIp, none, orText s.siemVersion "9.0.2", s.siemAuthKey⟩

def Agent.install : Agent → Except CodeText (List Ask)
  | .wazuh => installWazuhAgent o p r U P
  | .ossec => installOssecAgent o p r U P
  | .utmstack => installUtmstackAgent o p r U P
  | .elastic => installElasticAgent o p r U P

/-! ## What is read -/

/-- What a shell is to read: a command that stands among its arguments, and a script. -/
def Ask.shellTexts : Ask → List CodeText
  | .onHost _ => []
  | .inContainer argv input =>
    (match argv with
      | bash :: option :: command :: _ =>
        if bash = lit "bash" ∧ option = lit "-c" then [command] else []
      | _ => []) ++
    match input with
      | some (.script text) => [text]
      | _ => []

/-- What the shells read when a script is copied and run, with the values in their places. -/
def scriptPieces (command : List (Piece Field)) : List (List (Piece Field)) :=
  [[.text copyScriptCommand], .text scriptHead :: command ++ [.text [newline]]]

/-- Whether there is a package to be copied. -/
def Outcomes.there (o : Outcomes) : Bool := o.cached || o.downloaded

def packagePieces : List (List (Piece Field)) := if o.there then [[.text copyCommand]] else []

def binaryPieces : List (List (Piece Field)) :=
  if o.there && o.large then
    [[.text makeDirCommand], [.text copyCommand]] ++ if o.copied then [chmodCommand] else []
  else []

/-- Everything that an installer which goes on has a shell read, with the values in their places. -/
def Agent.pieces : Agent → List (List (Piece Field))
  | .wazuh => packagePieces o ++ scriptPieces (wazuhScript !(o.there && o.copied)) ++
    if o.succeeded then scriptPieces [.text verification] else []
  | .ossec => scriptPieces (ofLines ossecLines)
  | .utmstack => binaryPieces o ++ scriptPieces (utmstackScript !(o.there && o.large && o.copied))
  | .elastic => packagePieces o ++ scriptPieces (elasticScript !(o.there && o.copied))

variable {o p r U P} {asks : List Ask} {values : Field → CodeText}

lemma shellTexts_executeInContainerShell (id command : CodeText) :
    (executeInContainerShell o id command).flatMap Ask.shellTexts =
      [copyScriptCommand, scriptHead ++ command ++ [newline]] := by
  rw [executeInContainerShell]
  split_ifs <;> rfl

lemma fill_scriptPieces (command : List (Piece Field)) :
    (scriptPieces command).map (fill values) =
      [copyScriptCommand, scriptHead ++ fill values command ++ [newline]] := by
  simp [scriptPieces, fill, Piece.fill]

lemma snd_ensureCached (download : List CodeText) : (ensureCached o download).2 = o.there := by
  rw [ensureCached, Outcomes.there]
  cases o.cached <;> rfl

lemma shellTexts_ensureCached (download : List CodeText) :
    (ensureCached o download).1.flatMap Ask.shellTexts = [] := by
  rw [ensureCached]
  split_ifs <;> rfl

lemma shellTexts_providePackage (options : List CodeText) (file url path : Line) :
    (providePackage o p r options file url path).1.flatMap Ask.shellTexts =
      (packagePieces o).map (fill values) := by
  rw [providePackage, packagePieces]
  dsimp only
  rw [snd_ensureCached]
  cases o.there with
  | false => exact shellTexts_ensureCached _
  | true =>
    rw [if_pos rfl, if_pos rfl, List.flatMap_append, shellTexts_ensureCached]
    simp [copyToContainer, Ask.shellTexts, fill, Piece.fill]

lemma snd_providePackage (options : List CodeText) (file url path : Line) :
    (providePackage o p r options file url path).2 = (o.there && o.copied) := by
  rw [providePackage]
  dsimp only
  rw [snd_ensureCached]
  cases o.there <;> rfl

lemma snd_provideBinary : (provideBinary o p r).2 = (o.there && o.large && o.copied) := by
  rw [provideBinary]
  dsimp only
  rw [snd_ensureCached]
  cases o.there <;> cases o.large <;> cases o.copied <;> rfl

lemma shellTexts_provideBinary :
    (provideBinary o p r).1.flatMap Ask.shellTexts = (binaryPieces o).map (fill r.values) := by
  rw [provideBinary, binaryPieces]
  dsimp only
  rw [snd_ensureCached]
  split_ifs with hthere hcopied
  · simp [shellTexts_ensureCached, executeInContainer, copyToContainer, Ask.shellTexts, fill,
      Piece.fill]
  · simp [shellTexts_ensureCached, executeInContainer, copyToContainer, Ask.shellTexts, fill,
      Piece.fill]
  · exact shellTexts_ensureCached _

/-! ## What an installer that goes on has checked -/

lemma installWazuhAgent_eq_ok (h : installWazuhAgent o p r U P = .ok asks) :
    (∃ name, validateContainerName P r.container = .ok name) ∧
      (∃ manager, validateHost U P r.host = .ok manager) ∧
      (∃ group, validateGroup P r.group = .ok group) ∧
      (∃ version, validateVersion U P r.version = .ok version) ∧
      asks = (providePackage o p r [lit "-q"] wazuhDeb wazuhUrl (tmp wazuhDeb)).1 ++
          executeInContainerShell o p.scriptId
            (fill r.values (wazuhScript !(o.there && o.copied))) ++
        if o.succeeded then executeInContainerShell o p.checkId verification else [] := by
  rw [installWazuhAgent] at h
  obtain ⟨name, hname, h⟩ := bind_eq_ok_iff.mp h
  obtain ⟨manager, hmanager, h⟩ := bind_eq_ok_iff.mp h
  obtain ⟨group, hgroup, h⟩ := bind_eq_ok_iff.mp h
  obtain ⟨version, hversion, h⟩ := bind_eq_ok_iff.mp h
  dsimp only at h
  rw [snd_providePackage] at h
  exact ⟨⟨name, hname⟩, ⟨manager, hmanager⟩, ⟨group, hgroup⟩, ⟨version, hversion⟩,
    (Except.ok.inj h).symm⟩

lemma installOssecAgent_eq_ok (h : installOssecAgent o p r U P = .ok asks) :
    ∃ name server, validateContainerName P r.container = .ok name ∧
      validateHost U P r.host = .ok server ∧
      asks = executeInContainerShell o p.scriptId (ossecScript server name) := by
  rw [installOssecAgent] at h
  obtain ⟨name, hname, h⟩ := bind_eq_ok_iff.mp h
  obtain ⟨server, hserver, h⟩ := bind_eq_ok_iff.mp h
  exact ⟨name, server, hname, hserver, (Except.ok.inj h).symm⟩

lemma installUtmstackAgent_eq_ok (h : installUtmstackAgent o p r U P = .ok asks) :
    (∃ name, validateContainerName P r.container = .ok name) ∧
      (∃ manager, validateHost U P r.host = .ok manager) ∧
      (∃ key, validateToken P r.token = .ok key) ∧
      asks = (provideBinary o p r).1 ++ executeInContainerShell o p.scriptId
        (fill r.values (utmstackScript !(o.there && o.large && o.copied))) := by
  rw [installUtmstackAgent] at h
  obtain ⟨name, hname, h⟩ := bind_eq_ok_iff.mp h
  obtain ⟨manager, hmanager, h⟩ := bind_eq_ok_iff.mp h
  obtain ⟨key, hkey, h⟩ := bind_eq_ok_iff.mp h
  dsimp only at h
  rw [snd_provideBinary] at h
  exact ⟨⟨name, hname⟩, ⟨manager, hmanager⟩, ⟨key, hkey⟩, (Except.ok.inj h).symm⟩

lemma installElasticAgent_eq_ok (h : installElasticAgent o p r U P = .ok asks) :
    (∃ name, validateContainerName P r.container = .ok name) ∧
      (∃ fleet, validateHost U P r.host = .ok fleet) ∧
      (∃ token, validateToken P r.token = .ok token) ∧
      (∃ version, validateVersion U P r.version = .ok version) ∧
      asks = (providePackage o p r [lit "-q"] elasticDeb elasticUrl (tmp elasticDeb)).1 ++
        executeInContainerShell o p.scriptId
          (fill r.values (elasticScript !(o.there && o.copied))) := by
  rw [installElasticAgent] at h
  obtain ⟨name, hname, h⟩ := bind_eq_ok_iff.mp h
  obtain ⟨fleet, hfleet, h⟩ := bind_eq_ok_iff.mp h
  obtain ⟨token, htoken, h⟩ := bind_eq_ok_iff.mp h
  obtain ⟨version, hversion, h⟩ := bind_eq_ok_iff.mp h
  dsimp only at h
  rw [snd_providePackage] at h
  exact ⟨⟨name, hname⟩, ⟨fleet, hfleet⟩, ⟨token, htoken⟩, ⟨version, hversion⟩,
    (Except.ok.inj h).symm⟩

/-! ## The values -/

/-- No character of a value that is given means anything to a shell. -/
def MeansNothing (value : Option CodeText) : Prop :=
  ∀ c ∈ value.getD [], Shell.isInert c = true

variable {value : Option CodeText} {v others : CodeText}

lemma meansNothing_none : MeansNothing none := fun _ hc => absurd hc List.not_mem_nil

lemma meansNothing_some (hothers : ∀ c ∈ others, c ∈ allOthers)
    (h : ∀ c ∈ v, isValueChar U others c = true) : MeansNothing (some v) := by
  intro c hc
  exact isInert_of_isValueChar (isValueChar_mono hothers (h c hc))

lemma meansNothing_of_host (h : validateHost U P value = .ok v) : MeansNothing value := by
  obtain ⟨rfl, hhost⟩ := validateHost_eq_ok h
  exact meansNothing_some (by decide) (isValueChar_of_isHost hhost)

lemma meansNothing_of_version (h : validateVersion U P value = .ok v) : MeansNothing value := by
  obtain ⟨rfl, hversion⟩ := check_eq_ok h
  exact meansNothing_some (by decide) (isValueChar_of_version hversion)

lemma meansNothing_of_first {s what : String} {n : ℕ} (hs : ∀ c ∈ lit s, c ∈ allOthers)
    (h : check P value (.seq (.one isAlnum) (.upTo (.one (alnumOr s)) n)) what = .ok v) :
    MeansNothing value := by
  obtain ⟨rfl, hmatch⟩ := check_eq_ok h
  exact meansNothing_some hs (isValueChar_of_first (U := Deploy.MemoryLimit.ascii) hmatch)

lemma meansNothing_of_container (h : validateContainerName P value = .ok v) :
    MeansNothing value := meansNothing_of_first (by decide) h

lemma meansNothing_of_group (h : validateGroup P value = .ok v) : MeansNothing value :=
  meansNothing_of_first (by decide) h

lemma meansNothing_of_token (h : validateToken P value = .ok v) : MeansNothing value :=
  meansNothing_of_first (by decide) h

variable {a : Agent} {name : CodeText} {s : Settings}

/-- An installer that goes on has checked each of its values, or is not given it. -/
lemma inert_of_install (h : a.install o p (a.request name s) U P = .ok asks) (f : Field) :
    ∀ c ∈ (a.request name s).values f, Shell.isInert c = true := by
  -- a field that the agent has no value for is empty
  cases a with
  | wazuh =>
    obtain ⟨⟨_, hname⟩, ⟨_, hmanager⟩, ⟨_, hgroup⟩, ⟨_, hversion⟩, -⟩ := installWazuhAgent_eq_ok h
    cases f with
    | container => exact meansNothing_of_container hname
    | host => exact meansNothing_of_host hmanager
    | group => exact meansNothing_of_group hgroup
    | version => exact meansNothing_of_version hversion
    | token => exact meansNothing_none
  | ossec =>
    obtain ⟨_, _, hname, hserver, -⟩ := installOssecAgent_eq_ok h
    cases f with
    | container => exact meansNothing_of_container hname
    | host => exact meansNothing_of_host hserver
    | group | version | token => exact meansNothing_none
  | utmstack =>
    obtain ⟨⟨_, hname⟩, ⟨_, hmanager⟩, ⟨_, hkey⟩, -⟩ := installUtmstackAgent_eq_ok h
    cases f with
    | container => exact meansNothing_of_container hname
    | host => exact meansNothing_of_host hmanager
    | token => exact meansNothing_of_token hkey
    | group | version => exact meansNothing_none
  | elastic =>
    obtain ⟨⟨_, hname⟩, ⟨_, hfleet⟩, ⟨_, htoken⟩, ⟨_, hversion⟩, -⟩ := installElasticAgent_eq_ok h
    cases f with
    | container => exact meansNothing_of_container hname
    | host => exact meansNothing_of_host hfleet
    | version => exact meansNothing_of_version hversion
    | token => exact meansNothing_of_token htoken
    | group => exact meansNothing_none

/-! ## The readings -/

lemma fill_text (t : CodeText) : fill values [.text t] = t := List.append_nil t

/-- What the shells read are the pieces, with the values. -/
lemma shellTexts_install (h : a.install o p (a.request name s) U P = .ok asks) :
    asks.flatMap Ask.shellTexts = (a.pieces o).map (fill (a.request name s).values) := by
  cases a with
  | wazuh =>
    obtain ⟨-, -, -, -, rfl⟩ := installWazuhAgent_eq_ok h
    rw [Agent.pieces, List.flatMap_append, List.flatMap_append, shellTexts_providePackage,
      shellTexts_executeInContainerShell, List.map_append, List.map_append, fill_scriptPieces]
    split_ifs
    · rw [shellTexts_executeInContainerShell, fill_scriptPieces, fill_text]
    · rfl
  | ossec =>
    obtain ⟨name', server, hname, hserver, rfl⟩ := installOssecAgent_eq_ok h
    obtain ⟨hsome, -⟩ := check_eq_ok hname
    obtain ⟨hip, hhost⟩ := validateHost_eq_ok hserver
    obtain rfl : name = name' := Option.some.inj hsome
    have hip : s.siemIp = some server := hip
    -- the host is put in first, so that the other placeholder must not stand in it
    have hunderscore : 95 ∉ server := by
      intro hc
      exact absurd (isValueChar_ascii (isValueChar_of_isHost hhost 95 hc) (by decide)) (by decide)
    rw [Agent.pieces, shellTexts_executeInContainerShell, fill_scriptPieces,
      ossecScript_eq hunderscore]
    refine congrArg (fun values => [copyScriptCommand,
      scriptHead ++ fill values (ofLines ossecLines) ++ [newline]]) (funext fun f => ?_)
    cases f <;> simp [Agent.request, Request.values, hip]
  | utmstack =>
    obtain ⟨-, -, -, rfl⟩ := installUtmstackAgent_eq_ok h
    rw [Agent.pieces, List.flatMap_append, shellTexts_provideBinary,
      shellTexts_executeInContainerShell, List.map_append, fill_scriptPieces]
  | elastic =>
    obtain ⟨-, -, -, -, rfl⟩ := installElasticAgent_eq_ok h
    rw [Agent.pieces, List.flatMap_append, shellTexts_providePackage,
      shellTexts_executeInContainerShell, List.map_append, fill_scriptPieces]

/-- Every value stands where a value can stand, and nothing is open at the end of a script. -/
def AllRead (scripts : List (List (Piece Field))) : Prop :=
  ∀ ps ∈ scripts, (pieceReadings ps).isSome = true

instance : DecidablePred AllRead := fun scripts =>
  inferInstanceAs (Decidable (∀ ps ∈ scripts, (pieceReadings ps).isSome = true))

variable {scripts scripts' : List (List (Piece Field))}

lemma allRead_append (h : AllRead scripts) (h' : AllRead scripts') :
    AllRead (scripts ++ scripts') := List.forall_mem_append.mpr ⟨h, h'⟩

lemma allRead_if {b : Bool} (h : AllRead scripts) : AllRead (if b then scripts else []) := by
  split_ifs
  · exact h
  · exact List.forall_mem_nil _

lemma returns_ofLines_append {lines lines' : List Line} (h : Returns (ofLines lines))
    (h' : Returns (ofLines lines')) : Returns (ofLines (lines ++ lines')) := by
  rw [ofLines, List.flatMap_append]
  exact h.append h'

lemma returns_ofLines_split (n : ℕ) {lines : List Line} (h : Returns (ofLines (lines.take n)))
    (h' : Returns (ofLines (lines.drop n))) : Returns (ofLines lines) := by
  rw [← List.take_append_drop n lines]
  exact returns_ofLines_append h h'

/-- A script after which nothing is open. -/
abbrev ReadScript := { command : List (Piece Field) // Returns command }

-- a script has no variables but its values, so that the scanner can go through it here; whether it
-- downloads the package makes no difference to what stands around that
def readWazuhScript (download : Bool) : ReadScript where
  val := wazuhScript download
  property := by
    have hblock : ∀ download, Returns (ofLines (blockLines download
        (debDownload "  curl -sL -o \"" (tmp wazuhDeb) wazuhUrl))) := by decide +kernel
    refine returns_ofLines_append (returns_ofLines_append ?_ (hblock download)) ?_
    · decide +kernel
    · decide +kernel

def readOssecScript : ReadScript where
  val := ofLines ossecLines
  property := by
    refine returns_ofLines_split 40 ?_ (returns_ofLines_split 40 ?_ ?_)
    · decide +kernel
    · decide +kernel
    · decide +kernel

def readUtmstackScript (download : Bool) : ReadScript where
  val := utmstackScript download
  property := by
    have hscripts : ∀ download, Returns (utmstackScript download) := by decide +kernel
    exact hscripts download

def readElasticScript (download : Bool) : ReadScript where
  val := elasticScript download
  property := by
    have hblock : ∀ download, Returns (ofLines (blockLines download (aptBlock ++ [[]] ++
        debDownload "  curl -L -o \"" (tmp elasticDeb) elasticUrl))) := by decide +kernel
    refine returns_ofLines_append (returns_ofLines_append ?_ (hblock download)) ?_
    · decide +kernel
    · decide +kernel

def readHead : ReadScript := ⟨[.text scriptHead], by decide⟩

def readNewline : ReadScript := ⟨[.text [newline]], by decide⟩

/-- The commands that are not copied to scripts, and the script of the check. -/
def readCommands : { scripts : List (List (Piece Field)) // AllRead scripts } :=
  ⟨[[.text copyScriptCommand], [.text copyCommand], [.text makeDirCommand], chmodCommand] ++
    scriptPieces [.text verification], by decide +kernel⟩

lemma allRead_subset (h : scripts ⊆ readCommands.1) : AllRead scripts :=
  fun ps hps => readCommands.2 ps (h hps)

lemma allRead_scriptPieces (script : ReadScript) : AllRead (scriptPieces script.1) := by
  have hcopy : AllRead [[.text copyScriptCommand]] := allRead_subset (by simp [readCommands])
  have hscript : AllRead [.text scriptHead :: script.1 ++ [.text [newline]]] :=
    List.forall_mem_singleton.mpr (readHead.2.append (script.2.append readNewline.2)).isSome
  exact allRead_append hcopy hscript

lemma allRead_packagePieces : AllRead (packagePieces o) :=
  allRead_if (allRead_subset (by simp [readCommands]))

lemma allRead_binaryPieces : AllRead (binaryPieces o) := by
  have hcopying : AllRead [[.text makeDirCommand], [.text copyCommand]] :=
    allRead_subset (by simp [readCommands])
  have hchmod : AllRead [chmodCommand] := allRead_subset (by simp [readCommands])
  exact allRead_if (allRead_append hcopying (allRead_if hchmod))

lemma allRead_verification : AllRead (scriptPieces [.text verification]) :=
  allRead_subset (List.subset_append_right _ _)

lemma allRead_pieces (a : Agent) (o : Outcomes) : AllRead (a.pieces o) := by
  cases a with
  | wazuh =>
    have hinstall := allRead_scriptPieces (readWazuhScript !(o.there && o.copied))
    exact allRead_append (allRead_append allRead_packagePieces hinstall)
      (allRead_if allRead_verification)
  | ossec => exact allRead_scriptPieces readOssecScript
  | utmstack =>
    have hinstall := allRead_scriptPieces (readUtmstackScript !(o.there && o.large && o.copied))
    exact allRead_append allRead_binaryPieces hinstall
  | elastic =>
    have hinstall := allRead_scriptPieces (readElasticScript !(o.there && o.copied))
    exact allRead_append allRead_packagePieces hinstall

/-- **The shells read the same commands for all values.**  Whatever the calls of an installer
return, there are readings, found before the values are chosen, which hold for all values that it
accepts: each character of a value is read as itself, and every other character as these say. -/
theorem installs_read_alike (a : Agent) (o : Outcomes) :
    ∃ texts : List (List (PieceReading Field)), ∀ U P p name s asks,
      a.install o p (a.request name s) U P = .ok asks →
        (asks.flatMap Ask.shellTexts).map readings =
          texts.map fun as => some (as.flatMap (PieceReading.fill (a.request name s).values)) := by
  -- the pieces have no values yet, so that the scanner goes through them once
  refine ⟨(a.pieces o).map fun ps => (pieceReadings ps).getD [], ?_⟩
  intro U P p name s asks h
  rw [shellTexts_install h, List.map_map, List.map_map]
  refine List.map_congr_left ?_
  intro ps hps
  obtain ⟨as, has⟩ := Option.isSome_iff_exists.mp (allRead_pieces a o ps hps)
  calc readings (fill (a.request name s).values ps)
      = some (as.flatMap (PieceReading.fill (a.request name s).values)) :=
        readings_fill has (inert_of_install h)
    _ = some (((pieceReadings ps).getD []).flatMap
          (PieceReading.fill (a.request name s).values)) := by rw [has, Option.getD_some]

theorem installs_read_alike_utmstack :
    let o : Outcomes := ⟨false, true, true, true, true, true, true⟩
    let s : Settings := ⟨some (lit "10.0.0.7"), none, none, some (lit "k=")⟩
    ∃ (texts : List (List (PieceReading Field))) (asks : List Ask),
      Agent.utmstack.install o ⟨lit "/var/cache", lit "1", lit "2"⟩
          (Agent.utmstack.request (lit "web-1") s) Deploy.MemoryLimit.ascii
          ⟨fun _ => false, fun _ _ => rfl⟩ = .ok asks ∧
        (asks.flatMap Ask.shellTexts).map readings = texts.map fun as => some
          (as.flatMap (PieceReading.fill (Agent.utmstack.request (lit "web-1") s).values)) := by
  intro o s
  obtain ⟨texts, htexts⟩ := installs_read_alike .utmstack o
  obtain ⟨asks, hasks⟩ : ∃ asks, Agent.utmstack.install o ⟨lit "/var/cache", lit "1", lit "2"⟩
      (Agent.utmstack.request (lit "web-1") s) Deploy.MemoryLimit.ascii
      ⟨fun _ => false, fun _ _ => rfl⟩ = .ok asks :=
    ⟨_, bind_eq_ok_iff.mpr ⟨lit "web-1", by decide, bind_eq_ok_iff.mpr
      ⟨lit "10.0.0.7", by decide, bind_eq_ok_iff.mpr ⟨lit "k=", by decide, rfl⟩⟩⟩⟩
  exact ⟨texts, asks, hasks, htexts _ _ _ _ _ _ hasks⟩

end Habeny.Installers
