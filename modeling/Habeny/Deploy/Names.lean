import Habeny.Helper.Server
import Habeny.Lib.Json
import Habeny.Requests.Work
import Habeny.Tenancy.Platform

/-!
# Names of containers

The names of a deployment are its base name with a number, those of a benchmark its base name
with a phase and a number.  The two request models check the base name, each in its own way; the
helper, the installers and the console check the whole name, the helper up to 64 characters and
the console up to 50.

A pattern that ends in `$` matches before a newline at the end as well, unless the whole text is
asked for: a deployment's base name may end in a newline, which is then inside its names.  A
benchmark's base name may have 64 characters by itself.
-/

namespace Habeny.Deploy

open Habeny.Lib CodeText

/-! ## Patterns -/

/-- A pattern of one first character and any number of others, on the whole text
(`re.fullmatch`). -/
def fullMatch (first rest : ℕ → Bool) : CodeText → Bool
  | [] => false
  | c :: t => first c && t.all rest

/-- The same pattern between `^` and `$` from the beginning (`re.match`): a newline may follow. -/
def lineMatch (first rest : ℕ → Bool) (t : CodeText) : Bool :=
  fullMatch first rest t || (t.getLast? == some newline && fullMatch first rest t.dropLast)

/-- `[a-zA-Z0-9_-]` -/
def isBaseChar (c : ℕ) : Bool := Helper.isAlphanumeric c || decide (c ∈ lit "_-")

/-- `[a-zA-Z0-9_.-]` -/
def isNameChar (c : ℕ) : Bool := Helper.isAlphanumeric c || decide (c ∈ lit "_.-")

/-- `ALPHANUM_START_PATTERN.match` -/
def alphanumStart : CodeText → Bool := lineMatch Helper.isAlphanumeric isBaseChar

/-- The group pattern of `core.validation`, which is asked for the whole text. -/
def isGroup (t : CodeText) : Bool :=
  fullMatch Helper.isAlphanumeric isNameChar t && decide (t.length ≤ 64)

/-- The console's own check (`core.container.validate_container_name`). -/
def validateContainerName (t : CodeText) : Bool :=
  lineMatch Helper.isAlphanumeric isNameChar t && decide (t.length ≤ 50)

/-! ## The request models -/

/-- What the model of a request refuses: a value out of its bounds, or one that a validator
raises an error about. -/
inductive ModelError where
  | bounds (field : CodeText)
  | invalid (message : CodeText)
  deriving DecidableEq

/-- `validate_alphanumeric_name` -/
def validateAlphanumericName (t : CodeText) : Except ModelError Unit :=
  if alphanumStart t then .ok ()
  else .error (.invalid
    (lit "Name must start with alphanumeric and contain only alphanumeric, underscore, or hyphen"))

/-- The digits that the numbers of a deployment take, at least. -/
def suffixDigits (count : ℕ) : ℕ := max 4 (Tenancy.number count).length

/-- The generated names stay within 50 characters (`validate_naming`). -/
def validateNaming (count : ℕ) (baseName : CodeText) : Except ModelError Unit :=
  if baseName.length + 1 + suffixDigits count > 50 then
    .error (.invalid (lit "Generated container names will exceed 50 characters. Max base_name length: "
      ++ ((Json.intText (50 - suffixDigits count - 1)).map Char.toNat)))
  else .ok ()

/-- The fields of a deploy request that its names are made of. -/
structure AgentDeploymentRequest where
  count : ℤ
  agentBaseName : CodeText

def AgentDeploymentRequest.validate (req : AgentDeploymentRequest) : Except ModelError Unit := do
  if ¬(1 ≤ req.count ∧ req.count ≤ 1000) then .error (.bounds (lit "count"))
  if ¬(1 ≤ req.agentBaseName.length ∧ req.agentBaseName.length ≤ 30) then
    .error (.bounds (lit "agent_base_name"))
  validateAlphanumericName req.agentBaseName
  validateNaming req.count.toNat req.agentBaseName

/-- The fields of a benchmark request that its names are made of. -/
structure BenchmarkStartRequest where
  scenarioId : Text
  baseName : Option CodeText

def invalidGroup : CodeText := lit "group (letters, digits, '.', '_', '-')"

def BenchmarkStartRequest.validate (req : BenchmarkStartRequest) : Except ModelError Unit :=
  match req.baseName with
  | none | some [] => .ok ()
  | some base => if isGroup base then .ok () else .error (.invalid invalidGroup)

/-! ## The names -/

/-- The names of one base name. -/
def named (base : CodeText) (suffixes : List Text) : List CodeText :=
  suffixes.map fun s => base ++ s.map Char.toNat

def deploymentSuffixes (count : ℕ) : List Text :=
  (List.range count).map fun i => '-' :: padded (i + 1)

def benchmarkSuffixes (phases : List ℕ) : List Text :=
  (phases.mapIdx fun phase agents => (List.range agents).map fun j =>
    "-p".toList ++ Tenancy.number phase ++ '-' :: padded (j + 1)).flatten

def AgentDeploymentRequest.names (req : AgentDeploymentRequest) : List CodeText :=
  named req.agentBaseName (deploymentSuffixes req.count.toNat)

/-- The first eight characters of a benchmark's id. -/
abbrev ShortId := { t : CodeText // t.length = 8 ∧ t.all Helper.isHex = true }

/-- The base name of a benchmark: that of its request if it is given. -/
def BenchmarkStartRequest.base (req : BenchmarkStartRequest) (id : ShortId) : CodeText :=
  match req.baseName with
  | none | some [] => lit "bm-" ++ id.val
  | some base => base

/-- An unknown scenario is refused. -/
def BenchmarkStartRequest.names (req : BenchmarkStartRequest) (id : ShortId) : List CodeText :=
  named (req.base id) (benchmarkSuffixes ((Requests.scenarios.lookup req.scenarioId).getD []))

/-- These are the names that the deployment makes. -/
lemma containerNames_codes (base : Text) (count : ℕ) :
    (containerNames base count).map (List.map Char.toNat) =
      named (base.map Char.toNat) (deploymentSuffixes count) := by
  simp [containerNames, named, deploymentSuffixes, Function.comp_def]

/-- These are the names that the benchmark makes. -/
lemma benchmarkNames_codes (base : Text) (phases : List ℕ) :
    (Tenancy.benchmarkNames base phases).flatten.map (List.map Char.toNat) =
      named (base.map Char.toNat) (benchmarkSuffixes phases) := by
  simp [Tenancy.benchmarkNames, Tenancy.phaseNames, named, benchmarkSuffixes, List.map_flatten,
    List.mapIdx_eq_zipIdx_map, Function.comp_def]

/-! ## Suffixes -/

lemma isNameChar_of_isBaseChar {c : ℕ} (h : isBaseChar c = true) : isNameChar c = true := by
  have hdash : ∀ c ∈ lit "_-", c ∈ lit "_.-" := by decide
  simp only [isBaseChar, isNameChar, Bool.or_eq_true, decide_eq_true_eq] at h ⊢
  exact h.imp_right (hdash c)

lemma isNameChar_of_isDigit {c : Char} (h : c.isDigit = true) : isNameChar c.toNat = true := by
  have hrange : 48 ≤ c.toNat ∧ c.toNat ≤ 57 := by
    simpa [Char.isDigit, UInt32.le_iff_toNat_le] using h
  simp [isNameChar, Helper.isAlphanumeric, Helper.isAsciiDigit, hrange]

lemma isDigit_of_mem_number {n : ℕ} {c : Char} (h : c ∈ Tenancy.number n) : c.isDigit = true :=
  Json.isDigit_of_mem_toDigits h

lemma isDigit_of_mem_padded {i : ℕ} {c : Char} (h : c ∈ padded i) : c.isDigit = true := by
  rcases List.mem_append.mp h with h | h
  · rw [List.eq_of_mem_replicate h]
    decide
  · exact isDigit_of_mem_number h

/-- A number below ten thousand is written with four digits. -/
lemma length_padded {i : ℕ} (h : i < 10000) : (padded i).length = 4 := by
  have hlength : (Tenancy.number i).length ≤ 4 :=
    (Nat.length_toDigits_le_iff (by decide) (by decide)).mpr h
  rw [padded, List.length_leftpad]
  omega

/-- Suffixes of one length that may stand in a name, each of them once. -/
structure Suffixes (length : ℕ) (suffixes : List Text) : Prop where
  characters : ∀ s ∈ suffixes, ∀ c ∈ s, isNameChar c.toNat = true
  length_eq : ∀ s ∈ suffixes, s.length = length
  distinct : suffixes.Nodup

lemma deploymentSuffixes_ok {count : ℕ} (h : count ≤ 1000) :
    Suffixes 5 (deploymentSuffixes count) where
  characters := by
    intro s hs c hc
    obtain ⟨i, -, rfl⟩ := List.mem_map.mp hs
    rcases List.mem_cons.mp hc with rfl | hc
    · decide
    · exact isNameChar_of_isDigit (isDigit_of_mem_padded hc)
  length_eq := by
    intro s hs
    obtain ⟨i, hi, rfl⟩ := List.mem_map.mp hs
    rw [List.length_cons, length_padded]
    have := List.mem_range.mp hi
    omega
  distinct := by
    refine List.Nodup.map (fun i j hij => ?_) List.nodup_range
    have := padded_injective (List.cons.inj hij).2
    omega

/-- The suffixes of the phases differ in the number of the phase or in that of the container. -/
lemma benchmarkSuffixes_ok {phases : List ℕ} (hphases : phases.length ≤ 10)
    (hagents : ∀ n ∈ phases, n ≤ 1000) : Suffixes 8 (benchmarkSuffixes phases) where
  characters := by
    intro s hs c hc
    obtain ⟨l, hl, hs⟩ := List.mem_flatten.mp hs
    obtain ⟨phase, hphase, rfl⟩ := List.mem_mapIdx.mp hl
    obtain ⟨j, -, rfl⟩ := List.mem_map.mp hs
    rcases List.mem_append.mp hc with hc | hc
    · rcases List.mem_append.mp hc with hc | hc
      · have hall : ∀ c ∈ ['-', 'p'], isNameChar c.toNat = true :=
          List.forall_mem_cons.mpr ⟨by decide, List.forall_mem_singleton.mpr (by decide)⟩
        exact hall c hc
      · exact isNameChar_of_isDigit (isDigit_of_mem_number hc)
    · rcases List.mem_cons.mp hc with rfl | hc
      · decide
      · exact isNameChar_of_isDigit (isDigit_of_mem_padded hc)
  length_eq := by
    intro s hs
    obtain ⟨l, hl, hs⟩ := List.mem_flatten.mp hs
    obtain ⟨phase, hphase, rfl⟩ := List.mem_mapIdx.mp hl
    obtain ⟨j, hj, rfl⟩ := List.mem_map.mp hs
    have hle := hagents _ (List.getElem_mem hphase)
    have hlt := List.mem_range.mp hj
    have hdigit : (Tenancy.number phase).length = 1 := by
      have hle : (Tenancy.number phase).length ≤ 1 :=
        (Nat.length_toDigits_le_iff (by decide) (by decide)).mpr (by omega)
      have hpos : 0 < (Tenancy.number phase).length := Nat.length_toDigits_pos
      omega
    simp only [List.length_append, List.length_cons, hdigit]
    rw [length_padded (by omega)]
    rfl
  distinct := by
    have hsame : ∀ {p q i j : ℕ}, i < 1000 → j < 1000 →
        "-p".toList ++ Tenancy.number p ++ '-' :: padded (i + 1) =
          "-p".toList ++ Tenancy.number q ++ '-' :: padded (j + 1) → p = q ∧ i = j := by
      intro p q i j hi hj h
      have hlength : ('-' :: padded (i + 1)).length = ('-' :: padded (j + 1)).length := by
        rw [List.length_cons, List.length_cons, length_padded (by omega), length_padded (by omega)]
      obtain ⟨hphase, hnumber⟩ := List.append_inj' h hlength
      have := padded_injective (List.cons.inj hnumber).2
      exact ⟨Tenancy.number_injective (List.append_cancel_left hphase), by omega⟩
    refine List.nodup_flatten.mpr ⟨fun l hl => ?_, List.pairwise_iff_getElem.mpr ?_⟩
    · obtain ⟨phase, hphase, rfl⟩ := List.mem_mapIdx.mp hl
      have hle := hagents _ (List.getElem_mem hphase)
      refine List.Nodup.map_on (fun i hi j hj h => (hsame ?_ ?_ h).2) List.nodup_range
      · have := List.mem_range.mp hi
        omega
      · have := List.mem_range.mp hj
        omega
    · intro p q hp hq hlt s hs hs'
      rw [List.getElem_mapIdx] at hs hs'
      obtain ⟨i, hi, rfl⟩ := List.mem_map.mp hs
      obtain ⟨j, hj, h⟩ := List.mem_map.mp hs'
      rw [List.length_mapIdx] at hp hq
      have hlep := hagents _ (List.getElem_mem hp)
      have hleq := hagents _ (List.getElem_mem hq)
      have hip := List.mem_range.mp hi
      have hjq := List.mem_range.mp hj
      have := (hsame (by omega) (by omega) h).1
      omega

/-! ## Which names are accepted -/

/-- What is expected of the names of a request. -/
structure WellNamed (names : List CodeText) : Prop where
  characters : ∀ n ∈ names, ∀ c ∈ n, isNameChar c = true
  helper : ∀ n ∈ names, Helper.isContainerName n = true
  console : ∀ n ∈ names, validateContainerName n = true
  lengths : ∀ n ∈ names, n.length ≤ 50 ∧ n.length ≤ 64
  distinct : names.Nodup

/-- The helper's check is that of a group. -/
lemma isContainerName_eq (t : CodeText) : Helper.isContainerName t = isGroup t := by
  cases t with
  | nil => rfl
  | cons c rest =>
    have hlength : decide (rest.length + 1 ≤ 64) = decide (rest.length ≤ 63) :=
      decide_eq_decide.mpr (by omega)
    rw [Helper.isContainerName, isGroup, fullMatch, List.length_cons, hlength, Bool.and_right_comm]
    rfl

lemma fullMatch_append {first rest : ℕ → Bool} {t u : CodeText} (h : fullMatch first rest t = true) :
    fullMatch first rest (t ++ u) = u.all rest := by
  cases t with
  | nil => exact absurd h Bool.false_ne_true
  | cons c t =>
    rw [fullMatch, Bool.and_eq_true] at h
    rw [List.cons_append, fullMatch, List.all_append, h.1, h.2, Bool.true_and, Bool.true_and]

/-- With a base name of permitted characters, the names that are not too long are accepted. -/
lemma wellNamed_named {base : CodeText} {suffixes : List Text} {length : ℕ}
    (hbase : fullMatch Helper.isAlphanumeric isNameChar base = true)
    (hsuffixes : Suffixes length suffixes) (hlength : base.length + length ≤ 50) :
    WellNamed (named base suffixes) := by
  have hmatch : ∀ n ∈ named base suffixes,
      fullMatch Helper.isAlphanumeric isNameChar n = true := by
    intro n hn
    obtain ⟨s, hs, rfl⟩ := List.mem_map.mp hn
    rw [fullMatch_append hbase, List.all_map, List.all_eq_true]
    exact hsuffixes.characters s hs
  have hshort : ∀ n ∈ named base suffixes, n.length ≤ 50 := by
    intro n hn
    obtain ⟨s, hs, rfl⟩ := List.mem_map.mp hn
    rw [List.length_append, List.length_map, hsuffixes.length_eq s hs]
    exact hlength
  constructor
  case characters =>
    intro n hn c hc
    have h := hmatch n hn
    cases n with
    | nil => exact absurd hc List.not_mem_nil
    | cons d n =>
      rw [fullMatch, Bool.and_eq_true] at h
      rcases List.mem_cons.mp hc with rfl | hc
      · simp [isNameChar, h.1]
      · exact List.all_eq_true.mp h.2 c hc
  case helper =>
    intro n hn
    rw [isContainerName_eq, isGroup, hmatch n hn, Bool.true_and, decide_eq_true_eq]
    exact (hshort n hn).trans (by decide)
  case console =>
    intro n hn
    rw [validateContainerName, lineMatch, hmatch n hn, Bool.true_or, Bool.true_and,
      decide_eq_true_eq]
    exact hshort n hn
  case lengths => exact fun n hn => ⟨hshort n hn, (hshort n hn).trans (by decide)⟩
  case distinct =>
    refine List.Nodup.map (fun s t h => ?_) hsuffixes.distinct
    exact List.map_injective_iff.mpr (fun _ _ => Char.toNat_inj.mp) (List.append_cancel_left h)

/-! ## Base names that the models accept -/

/-- A base name of a deployment has permitted characters, but may end in a newline. -/
lemma fullMatch_of_alphanumStart {t : CodeText} (h : alphanumStart t = true) :
    fullMatch Helper.isAlphanumeric isNameChar t = true ∨ t.getLast? = some newline := by
  rw [alphanumStart, lineMatch, Bool.or_eq_true, Bool.and_eq_true] at h
  refine h.imp (fun hfull => ?_) fun hline => by simpa using hline.1
  cases t with
  | nil => exact absurd hfull Bool.false_ne_true
  | cons c t =>
    rw [fullMatch, Bool.and_eq_true, List.all_eq_true] at hfull ⊢
    exact ⟨hfull.1, fun d hd => isNameChar_of_isBaseChar (hfull.2 d hd)⟩

lemma AgentDeploymentRequest.validate_ok {req : AgentDeploymentRequest}
    (h : req.validate = .ok ()) :
    (1 ≤ req.count ∧ req.count ≤ 1000) ∧ req.agentBaseName.length ≤ 30 ∧
      alphanumStart req.agentBaseName = true := by
  simp only [validate, validateAlphanumericName] at h
  by_cases hcount : 1 ≤ req.count ∧ req.count ≤ 1000
  · by_cases hlength : 1 ≤ req.agentBaseName.length ∧ req.agentBaseName.length ≤ 30
    · by_cases hname : alphanumStart req.agentBaseName = true
      · exact ⟨hcount, hlength.2, hname⟩
      · rw [if_neg (not_not.mpr hcount), if_neg (not_not.mpr hlength), if_neg hname] at h
        cases h
    · rw [if_neg (not_not.mpr hcount), if_pos hlength] at h
      cases h
  · rw [if_pos hcount] at h
    cases h

/-- The base name of a benchmark has permitted characters. -/
lemma BenchmarkStartRequest.validate_ok {req : BenchmarkStartRequest} (h : req.validate = .ok ())
    (id : ShortId) : fullMatch Helper.isAlphanumeric isNameChar (req.base id) = true := by
  have hdefault : fullMatch Helper.isAlphanumeric isNameChar (lit "bm-" ++ id.val) = true := by
    refine (fullMatch_append (by decide)).trans (List.all_eq_true.mpr fun c hc => ?_)
    have hhex := List.all_eq_true.mp id.property.2 c hc
    simp only [Helper.isHex, Helper.isAsciiDigit, Bool.or_eq_true, decide_eq_true_eq] at hhex
    simp only [isNameChar, Helper.isAlphanumeric, Helper.isLetter, Helper.isAsciiDigit,
      Bool.or_eq_true, decide_eq_true_eq]
    omega
  unfold base
  unfold validate at h
  rcases hname : req.baseName with _ | _ | ⟨c, t⟩
  · exact hdefault
  · exact hdefault
  · simp only [hname] at h ⊢
    split_ifs at h with hgroup
    rw [isGroup, Bool.and_eq_true] at hgroup
    exact hgroup.1

/-- A base name made of an id is short. -/
lemma BenchmarkStartRequest.length_base_le_iff (req : BenchmarkStartRequest) (id : ShortId) :
    (req.base id).length ≤ 42 ↔ ∀ base, req.baseName = some base → base.length ≤ 42 := by
  have hdefault : (lit "bm-" ++ id.val).length ≤ 42 := by
    rw [List.length_append, id.property.1]
    decide
  unfold base
  rcases req.baseName with _ | _ | ⟨c, t⟩
  · exact iff_of_true hdefault fun base hgiven => absurd hgiven (by simp)
  · refine iff_of_true hdefault fun base hgiven => ?_
    rw [← Option.some.inj hgiven]
    exact Nat.zero_le _
  · exact ⟨fun h base hgiven => Option.some.inj hgiven ▸ h, fun h => h _ rfl⟩

lemma scenarios_sizes : ∀ p ∈ Requests.scenarios, p.2.length ≤ 10 ∧ (∀ n ∈ p.2, n ≤ 1000) ∧
    benchmarkSuffixes p.2 ≠ [] := by
  decide +kernel

/-! ## Both kinds of request -/

inductive NameRequest where
  | deployment (req : AgentDeploymentRequest)
  | benchmark (req : BenchmarkStartRequest)

namespace NameRequest

def validate : NameRequest → Except ModelError Unit
  | .deployment req => req.validate
  | .benchmark req => req.validate

/-- The names; a benchmark without a base name is named after its id. -/
def names (id : ShortId) : NameRequest → List CodeText
  | .deployment req => req.names
  | .benchmark req => req.names id

/-- A deployment's base name does not end in a newline; a benchmark's, if it is given and the
scenario is known, has at most 42 characters. -/
def Fits : NameRequest → Prop
  | .deployment req => req.agentBaseName.getLast? ≠ some newline
  | .benchmark req => (Requests.scenarios.lookup req.scenarioId).isSome = true →
      ∀ base, req.baseName = some base → base.length ≤ 42

/-- **The names of an accepted request are well formed exactly if its base name fits.** -/
theorem wellNamed_iff {req : NameRequest} (id : ShortId) (haccepted : req.validate = .ok ()) :
    WellNamed (req.names id) ↔ req.Fits := by
  cases req with
  | deployment req =>
    obtain ⟨hcount, hlength, hname⟩ := AgentDeploymentRequest.validate_ok haccepted
    constructor
    · intro h hnewline
      -- the newline is inside the first name
      have hfirst : req.agentBaseName ++ lit "-0001" ∈ req.names :=
        List.mem_map.mpr ⟨_, List.mem_map.mpr ⟨0, List.mem_range.mpr (by omega), rfl⟩, rfl⟩
      have hmem : newline ∈ req.agentBaseName := List.mem_of_getLast? hnewline
      have := h.characters _ hfirst newline (List.mem_append_left _ hmem)
      exact absurd this (by decide)
    · intro h
      refine wellNamed_named ((fullMatch_of_alphanumStart hname).resolve_right h)
        (deploymentSuffixes_ok (by omega)) (by omega)
  | benchmark req =>
    have hbase := BenchmarkStartRequest.validate_ok haccepted id
    cases hscenario : Requests.scenarios.lookup req.scenarioId with
    | none =>
      have hnames : (benchmark req).names id = [] := by
        simp [names, BenchmarkStartRequest.names, hscenario, named, benchmarkSuffixes]
      rw [hnames]
      refine iff_of_true ?_ fun hknown => ?_
      · constructor <;> simp
      · rw [hscenario] at hknown
        exact absurd hknown Bool.false_ne_true
    | some phases =>
      have hmem : (req.scenarioId, phases) ∈ Requests.scenarios := by
        obtain ⟨front, back, heq, -⟩ := List.lookup_eq_some_iff.mp hscenario
        exact heq ▸ List.mem_append_right front List.mem_cons_self
      obtain ⟨hphases, hagents, hsome⟩ := scenarios_sizes _ hmem
      have hsuffixes := benchmarkSuffixes_ok hphases hagents
      have hnames : (benchmark req).names id = named (req.base id) (benchmarkSuffixes phases) := by
        rw [names, BenchmarkStartRequest.names, hscenario, Option.getD_some]
      rw [hnames]
      constructor
      · intro h _
        obtain ⟨s, hs⟩ := List.exists_mem_of_ne_nil _ hsome
        have hshort := (h.lengths _ (List.mem_map.mpr ⟨s, hs, rfl⟩)).1
        rw [List.length_append, List.length_map, hsuffixes.length_eq s hs] at hshort
        exact (req.length_base_le_iff id).mp (by omega)
      · intro h
        have hlength := (req.length_base_le_iff id).mpr (h (by rw [hscenario]; rfl))
        exact wellNamed_named hbase hsuffixes (by omega)

/-- The first eight characters of an id. -/
def sampleId : ShortId := ⟨lit "3f2a91c0", by decide⟩

/-- Two containers `web-0001` and `web-0002`. -/
theorem wellNamed_web :
    WellNamed ((deployment ⟨2, lit "web"⟩).names sampleId) ↔ (deployment ⟨2, lit "web"⟩).Fits :=
  wellNamed_iff sampleId (by decide)

/-- A base name with a newline at its end is accepted, and its names are accepted nowhere; and
so is one of 43 characters, with which the names of a benchmark are too long for the console. -/
theorem accepted_not_wellNamed :
    (deployment ⟨1, lit "web\n"⟩).validate = .ok () ∧
      ((deployment ⟨1, lit "web\n"⟩).names sampleId).any Helper.isContainerName = false ∧
      ((deployment ⟨1, lit "web\n"⟩).names sampleId).any validateContainerName = false ∧
      ¬WellNamed ((deployment ⟨1, lit "web\n"⟩).names sampleId) ∧
    (benchmark ⟨"sustained_load".toList, some (List.replicate 43 97)⟩).validate = .ok () ∧
      ((benchmark ⟨"sustained_load".toList, some (List.replicate 43 97)⟩).names sampleId).any
        validateContainerName = false ∧
      ¬WellNamed
        ((benchmark ⟨"sustained_load".toList, some (List.replicate 43 97)⟩).names sampleId) := by
  have hnewline : lit "web\n-0001" ∈ (deployment ⟨1, lit "web\n"⟩).names sampleId := by decide
  have hlong : List.replicate 43 97 ++ lit "-p0-0001" ∈
      (benchmark ⟨"sustained_load".toList, some (List.replicate 43 97)⟩).names sampleId := by
    decide +kernel
  refine ⟨by decide, by decide, by decide, fun h => ?_, by decide +kernel, by decide +kernel,
    fun h => ?_⟩
  · exact absurd (h.helper _ hnewline) (by decide)
  · exact absurd (h.lengths _ hlong).1 (by decide)

end NameRequest

end Habeny.Deploy
