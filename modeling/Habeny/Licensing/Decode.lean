import Mathlib.Data.Rat.Defs
import Habeny.Lib.Lines
import Habeny.Licensing.Status

/-!
# Reading a licence

A licence is a text: some lines of comment, and `HBYL1.<payload>.<signature>` over any number
of other lines.  `token` takes the licence from the lines, and `decode` checks its form, its
signature and its payload.

What `token` gives is a line of its own that reads back as itself.  A payload is decoded only
from three parts of ASCII, and no longer with anything in front of them.
-/

namespace Habeny.Licensing

open Habeny.Lib Habeny.Lib.CodeText

/-! ## Values -/

abbrev Bytes := List ℕ

/-- A value that was read from JSON.  A float is `none` when it is not finite. -/
inductive PyValue where
  | null
  | bool (b : Bool)
  | int (n : ℤ)
  | float (value : Option ℚ)
  | str (t : CodeText)
  | list (items : List PyValue)
  | dict (fields : List (CodeText × PyValue))

/-- Whether `value == 1`. -/
def PyValue.isOne : PyValue → Bool
  | .bool b => b
  | .int n => decide (n = 1)
  | .float value => decide (value = some 1)
  | _ => false

/-- What `json.loads` may raise: a `ValueError`, or another exception (on values nested too
deep). -/
inductive LoadError where
  | value
  | other

/-- What the functions here raise: a `LicenseError`, or another exception. -/
inductive Failure where
  | licenseError (message : CodeText)
  | other
  deriving DecidableEq

abbrev Checked (α : Type) := Except Failure α

def refuse {α : Type} (message : CodeText) : Checked α := .error (.licenseError message)

abbrev NonemptyText := { t : CodeText // t ≠ [] }

/-- A day as a payload has it: its text and its ordinal. -/
structure DateText where
  text : NonemptyText
  day : ℤ
  deriving DecidableEq

/-- A payload that passed its checks. -/
structure LicensePayload where
  id : NonemptyText
  customer : NonemptyText
  serverId : NonemptyText
  issued : DateText
  expires : Option DateText
  maxContainers : Option { n : ℕ // 1 ≤ n }
  features : Option (List CodeText)
  deriving DecidableEq

/-- What installing depends on besides the text and the day.  A key checks a signature of some
bytes; `fromIsoformat` reads a day as its ordinal, and is asked only about a text that is not
empty, since the empty text is no day. -/
structure InstallEnv where
  publicKeys : List CodeText
  keyOf : CodeText → Option ℕ
  verify : ℕ → Bytes → CodeText → Bool
  urlsafeB64decode : CodeText → Option Bytes
  jsonLoads : Bytes → Except LoadError PyValue
  fromIsoformat : CodeText → Option ℤ
  serverId : Text
  trialStart : Option ℤ

namespace InstallEnv

variable (env : InstallEnv)

def enforced : Bool := !env.publicKeys.isEmpty

/-! ## Checking a payload -/

def get (fields : List (CodeText × PyValue)) (name : String) : Option PyValue :=
  fields.lookup (lit name)

def requiredText (fields : List (CodeText × PyValue)) (name label : String) :
    Checked NonemptyText :=
  match get fields name with
  | some (.str (c :: rest)) => .ok ⟨c :: rest, List.cons_ne_nil c rest⟩
  | _ => refuse (lit ("The license has no " ++ label))

def date (value : Option PyValue) (name : String) : Checked DateText :=
  match value with
  | some (.str (c :: rest)) =>
    match env.fromIsoformat (c :: rest) with
    | some day => .ok ⟨⟨c :: rest, List.cons_ne_nil c rest⟩, day⟩
    | none => refuse (lit ("The license's " ++ name ++ " date is invalid"))
  | _ => refuse (lit ("The license's " ++ name ++ " date is invalid"))

/-- A date that may be left out. -/
def optionalDate (value : Option PyValue) (name : String) : Checked (Option DateText) :=
  match value with
  | none | some .null => .ok none
  | some v => (env.date (some v) name).map some

def containerLimit (value : Option PyValue) : Checked (Option { n : ℕ // 1 ≤ n }) :=
  match value with
  | none | some .null => .ok none
  | some (.int (.ofNat (n + 1))) => .ok (some ⟨n + 1, Nat.le_add_left 1 n⟩)
  | _ => refuse (lit "The license's container limit is invalid")

def featureList (value : Option PyValue) : Checked (Option (List CodeText)) :=
  match value with
  | none => .ok none
  | some (.list items) =>
    match items.mapM (fun | .str t => some t | _ => none) with
    | some texts => .ok (some texts)
    | none => refuse (lit "The license's feature list is invalid")
  | _ => refuse (lit "The license's feature list is invalid")

def checkPayload : PyValue → Checked LicensePayload
  | .dict fields => do
    if (get fields "v").any PyValue.isOne = false then
      refuse (lit "This license is for a different version of Habeny")
    let id ← requiredText fields "id" "id"
    let customer ← requiredText fields "customer" "customer"
    let serverId ← requiredText fields "server_id" "server id"
    let issued ← env.date (get fields "issued") "issue"
    let expires ← env.optionalDate (get fields "expires") "expiry"
    let maxContainers ← containerLimit (get fields "max_containers")
    let features ← featureList (get fields "features")
    return { id, customer, serverId, issued, expires, maxContainers, features }
  | _ => refuse (lit "This license is for a different version of Habeny")

/-! ## Reading a licence -/

def formatPrefix : CodeText := lit "HBYL1"
def hash : ℕ := 35
def dot : ℕ := 46
def equalsSign : ℕ := 61

/-- Whether a line, its blanks at the ends taken off, counts. -/
def counts (line : CodeText) : Bool := !line.isEmpty && line.head? != some hash

/-- The license from a file's text: comment lines (#) and whitespace are ignored. -/
def token (text : CodeText) : CodeText :=
  (((splitlines text).map strip).filter counts).flatten

def b64decode (text : CodeText) : Option Bytes :=
  let padded := text ++ List.replicate ((4 - text.length % 4) % 4) equalsSign
  if padded.all fun c => decide (c < 128) then env.urlsafeB64decode padded else none

def notALicense : Checked LicensePayload := refuse (lit "This isn't a Habeny license file")
def damaged : Checked LicensePayload := refuse (lit "The license file is damaged")
def badSignature : Checked LicensePayload :=
  refuse (lit "The license's signature doesn't match: it was changed, or it isn't from the Habeny vendor")

/-- Whether one of the keys made the signature.  A key that cannot be read is ignored. -/
def signedByVendor (signature : Bytes) (signed : CodeText) : Bool :=
  (env.publicKeys.filterMap env.keyOf).any fun key => env.verify key signature signed

/-- What `decode` does with the parts after the first. -/
def decodeParts (body signature : CodeText) : Checked LicensePayload :=
  match env.b64decode signature, env.b64decode body with
  | some signatureBytes, some bodyBytes =>
    match env.jsonLoads bodyBytes with
    | .error .value => damaged
    | .error .other => .error .other
    | .ok payload =>
      if env.signedByVendor signatureBytes (formatPrefix ++ dot :: body) then
        env.checkPayload payload
      else badSignature
  | _, _ => damaged

/-- The payload of a correctly signed license. Doesn't check the server or the dates. -/
def decode (text : CodeText) : Checked LicensePayload :=
  match (token text).splitOn dot with
  | [start, body, signature] =>
    if start = formatPrefix then env.decodeParts body signature else notALicense
  | _ => notALicense

/-! ## The licence in a text -/

lemma mem_pieces {text piece : CodeText}
    (h : piece ∈ ((splitlines text).map strip).filter counts) :
    counts piece = true ∧ ∃ line ∈ splitlines text, strip line = piece := by
  obtain ⟨hmem, hcounts⟩ := List.mem_filter.mp h
  exact ⟨hcounts, List.mem_map.mp hmem⟩

lemma counts_iff (line : CodeText) : counts line = true ↔ line ≠ [] ∧ line.head? ≠ some hash := by
  simp [counts]

/-- No line end is left in a licence. -/
lemma isBreak_of_mem_token {text : CodeText} {c : ℕ} (h : c ∈ token text) : isBreak c = false := by
  obtain ⟨piece, hpiece, hc⟩ := List.mem_flatten.mp h
  obtain ⟨-, line, hline, rfl⟩ := mem_pieces hpiece
  exact isBreak_of_mem_linesOf hline ((strip_sublist line).mem hc)

/-- A licence begins neither with a blank nor with the sign of a comment. -/
lemma head_token {text : CodeText} {c : ℕ} (h : c ∈ (token text).head?) :
    isSpace c = false ∧ c ≠ hash := by
  rw [token] at h
  cases hpieces : ((splitlines text).map strip).filter counts with
  | nil => simp [hpieces] at h
  | cons piece pieces =>
    obtain ⟨hcounts, line, -, rfl⟩ := mem_pieces (hpieces ▸ List.mem_cons_self)
    obtain ⟨hne, hhash⟩ := (counts_iff _).mp hcounts
    rw [hpieces, List.flatten_cons, List.head?_append_of_ne_nil _ hne] at h
    -- the first piece counts, so it is not empty, and its head is that of the whole
    exact ⟨head_strip h, fun heq => hhash (heq ▸ h)⟩

/-- It does not end with a blank. -/
lemma last_token {text : CodeText} {c : ℕ} (h : c ∈ (token text).getLast?) :
    isSpace c = false := by
  rw [token] at h
  rcases List.eq_nil_or_concat (((splitlines text).map strip).filter counts) with
    hpieces | ⟨pieces, piece, hpieces⟩
  · simp [hpieces] at h
  · rw [List.concat_eq_append] at hpieces
    have hmem : piece ∈ ((splitlines text).map strip).filter counts := by
      rw [hpieces]
      exact List.mem_append_right _ (List.mem_singleton_self piece)
    obtain ⟨hcounts, line, -, rfl⟩ := mem_pieces hmem
    obtain ⟨hne, -⟩ := (counts_iff _).mp hcounts
    rw [hpieces, List.flatten_append, List.flatten_singleton,
      List.getLast?_append_of_ne_nil _ hne] at h
    exact last_strip h

/-- **The licence of a text reads back as itself.** -/
theorem token_token (text : CodeText) : token (token text ++ [newline]) = token text := by
  by_cases hnil : token text = []
  · rw [hnil]
    rfl
  · -- the licence has no line end of its own, so it is one line
    have hlines : splitlines (token text ++ [newline]) = [token text] :=
      splitlines_line (fun c hc => isBreak_of_mem_token hc) hnil
    have hstrip : strip (token text) = token text :=
      strip_of_ends (fun c hc => (head_token hc).1) fun c hc => last_token hc
    have hcounts : counts (token text) = true :=
      (counts_iff _).mpr ⟨hnil, fun hhead => (head_token hhead).2 rfl⟩
    rw [token, hlines, List.map_singleton, hstrip, List.filter_cons_of_pos hcounts,
      List.filter_nil, List.flatten_singleton]

/-- After a newline the licence goes on with that of the rest. -/
lemma token_append (a b : CodeText) :
    token (a ++ newline :: b) = token (a ++ [newline]) ++ token b := by
  rw [token, splitlines_append, List.map_append, List.filter_append, List.flatten_append, token,
    token]

lemma token_universalNewlines (text : CodeText) :
    token (universalNewlines text) = token text := by
  rw [token, splitlines_universalNewlines, token]

/-- All lines are blank or comments. -/
def CommentOnly (text : CodeText) : Prop := ∀ line ∈ splitlines text, counts (strip line) = false

lemma token_eq_nil_iff (text : CodeText) : token text = [] ↔ CommentOnly text := by
  constructor
  · intro hnil line hline
    by_contra hcounts
    have hcounts : counts (strip line) = true := by simpa using hcounts
    have hmem : strip line ∈ ((splitlines text).map strip).filter counts :=
      List.mem_filter.mpr ⟨List.mem_map_of_mem hline, hcounts⟩
    exact ((counts_iff _).mp hcounts).1 (List.flatten_eq_nil_iff.mp hnil _ hmem)
  · intro h
    have hnone : ((splitlines text).map strip).filter counts = [] := by
      refine List.filter_eq_nil_iff.mpr fun piece hpiece => ?_
      obtain ⟨line, hline, rfl⟩ := List.mem_map.mp hpiece
      simp [h line hline]
    rw [token, hnone, List.flatten_nil]

/-! ## What decodes -/

lemma decode_congr {text text' : CodeText} (h : token text = token text') :
    env.decode text = env.decode text' := by
  rw [decode, decode, h]

/-- A payload was decoded from three parts. -/
lemma decode_ok {text : CodeText} {p : LicensePayload} (h : env.decode text = .ok p) :
    ∃ body signature, (token text).splitOn dot = [formatPrefix, body, signature] ∧
      env.decodeParts body signature = .ok p := by
  rw [decode] at h
  split at h
  · rename_i start body signature hparts
    split_ifs at h with hstart
    · exact ⟨body, signature, hstart ▸ hparts, h⟩
    · exact absurd h (by simp [notALicense, refuse])
  · exact absurd h (by simp [notALicense, refuse])

/-- With anything in front it is no licence. -/
lemma decode_of_front {front text text' : CodeText} {p : LicensePayload}
    (h : env.decode text = .ok p) (hfront : front ≠ [])
    (htoken : token text' = front ++ token text) : env.decode text' = notALicense := by
  obtain ⟨body, signature, hparts, -⟩ := env.decode_ok h
  rw [decode, htoken]
  split
  · rename_i start body' signature' hparts'
    split_ifs with hstart
    · rw [hstart] at hparts'
      exact absurd hparts' (splitOn_append_ne hfront hparts rfl)
    · rfl
  · rfl

lemma ascii_of_b64decode {text : CodeText} {bytes : Bytes} (h : env.b64decode text = some bytes)
    {c : ℕ} (hc : c ∈ text) : c < 128 := by
  rw [b64decode] at h
  split_ifs at h with hall
  · exact of_decide_eq_true (List.all_eq_true.mp hall c (List.mem_append_left _ hc))

/-- The parts of a payload's licence are ASCII. -/
lemma ascii_of_decodeParts {body signature : CodeText} {p : LicensePayload}
    (h : env.decodeParts body signature = .ok p) :
    (∀ c ∈ body, c < 128) ∧ ∀ c ∈ signature, c < 128 := by
  rw [decodeParts] at h
  split at h
  · rename_i signatureBytes bodyBytes hsignature hbody
    exact ⟨fun c hc => env.ascii_of_b64decode hbody hc,
      fun c hc => env.ascii_of_b64decode hsignature hc⟩
  · exact absurd h (by simp [damaged, refuse])

lemma ascii_of_decode {text : CodeText} {p : LicensePayload} (h : env.decode text = .ok p) :
    ∀ c ∈ token text, c < 128 := by
  obtain ⟨body, signature, hparts, hdecode⟩ := env.decode_ok h
  obtain ⟨hbody, hsignature⟩ := env.ascii_of_decodeParts hdecode
  have hjoin : [dot].intercalate ((token text).splitOn dot) = token text :=
    List.intercalate_splitOn dot
  rw [hparts] at hjoin
  intro c hc
  -- every code point stands in one of the parts, or is a dot
  rw [← hjoin] at hc
  simp only [List.intercalate, List.intersperse, List.flatten_cons, List.flatten_nil,
    List.append_nil, List.mem_append, List.mem_singleton] at hc
  rcases hc with hc | rfl | hc | rfl | hc
  · revert c
    decide
  · decide
  · exact hbody c hc
  · decide
  · exact hsignature c hc

/-- Without keys nothing decodes. -/
lemma decode_of_off (hoff : env.enforced = false) (text : CodeText) (p : LicensePayload) :
    env.decode text ≠ .ok p := by
  intro h
  obtain ⟨body, signature, -, hdecode⟩ := env.decode_ok h
  have hkeys : env.publicKeys = [] := by simpa [enforced] using hoff
  have hnone : ∀ signatureBytes signed, env.signedByVendor signatureBytes signed = false := by
    intro signatureBytes signed
    simp [signedByVendor, hkeys]
  rw [decodeParts] at hdecode
  split at hdecode
  · split at hdecode
    · exact absurd hdecode (by simp [damaged, refuse])
    · exact absurd hdecode (by simp)
    · rw [if_neg (by simp [hnone])] at hdecode
      exact absurd hdecode (by simp [badSignature, refuse])
  · exact absurd hdecode (by simp [damaged, refuse])

end InstallEnv

end Habeny.Licensing
