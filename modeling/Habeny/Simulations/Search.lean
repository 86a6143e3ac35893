import Habeny.Audit.Recording
import Habeny.Hosts.Answers
import Habeny.Lib.JsonAccess
import Habeny.Lib.PyRepr

/-!
# What may come of asking a SIEM

A search is one request to the API of a SIEM.  Of the exceptions on the way some become a
`DetectionError`, which is the one class that a check handles; the others go through.
`exchange_handled` says which addresses and which behaviours of the other end raise nothing else
before the answer is read, and `search_handled` which answers do.
-/

namespace Habeny.Simulations.Search

open Habeny.Lib CodeText Hosts.Reachability

/-! ## The other end -/

/-- How a search fails. -/
inductive Failure where
  /-- a `DetectionError` -/
  | detection (text : CodeText)
  /-- any other exception -/
  | other
  deriving DecidableEq

/-- A `DetectionError` or a result. -/
def Handled {α : Type} (r : Except Failure α) : Prop := r ≠ .error .other

/-- Parts of the address of a SIEM.  The port is read when the connection is opened. -/
structure SearchUrl extends SplitUrl where
  query : Text
  fragment : Text
  username : Option Text
  port : Except Raised (Option ℕ)

/-- What is used of the language and its libraries. -/
structure SearchEnv where
  loads : List UInt8 → Except Raised JsonValue
  urlsplit : Text → Except Raised SearchUrl
  printables : PyRepr.Printables
  depth : ℕ

/-- A manager profile, as far as a check reads it. -/
structure Manager where
  name : CodeText
  siemType : CodeText
  detectionUrl : Option Text
  detectionFingerprint : Option Text

/-- Where a SIEM keeps what is asked for. -/
structure Backend where
  index : Text
  ruleName : CodeText
  level : CodeText
  technique : CodeText
  eventsIndex : Option Text

/-- `BACKENDS` -/
def backends : List (CodeText × Backend) :=
  [(lit "wazuh",
      { index := "wazuh-alerts-*".toList
        ruleName := lit "rule.description"
        level := lit "rule.level"
        technique := lit "rule.mitre.id"
        eventsIndex := none }),
    (lit "elastic",
      { index := ".alerts-security.alerts-*".toList
        ruleName := lit "kibana.alert.rule.name"
        level := lit "kibana.alert.severity"
        technique := lit "kibana.alert.rule.threat.technique.id"
        eventsIndex := some "logs-*".toList })]

/-- A text that is given and not empty. -/
def given (t : Option Text) : Option Text := t.filter (· ≠ [])

/-- The SIEM that a profile can be checked with (`configured`). -/
def backend (m : Manager) : Option Backend :=
  if (given m.detectionUrl).isSome then backends.lookup m.siemType else none

/-! ## Connecting -/

/-- Remove the blanks at both ends. -/
def strip (t : Text) : Text :=
  (t.dropWhile fun c => isSpace c.toNat).rdropWhile fun c => isSpace c.toNat

/-- The address that is asked. -/
def address (m : Manager) : Text := (strip (m.detectionUrl.getD [])).rstrip '/'

def refuse {α : Type} (text : String) : Except Failure α := .error (.detection (lit text))

/-- An address that a SIEM may have. -/
def SearchUrl.plain (parts : SearchUrl) : Bool :=
  decide (parts.scheme ∈ ["https".toList, "http".toList]) && (given parts.hostname).isSome &&
    (decide (parts.query = []) && decide (parts.fragment = []) && (given parts.username).isNone)

/-- The parts of the address of a profile (`normalize_url`). -/
def normalizeUrl (env : SearchEnv) (m : Manager) : Except Failure SearchUrl :=
  match env.urlsplit (address m) with
  | .error _ => .error .other
  | .ok parts =>
    if parts.scheme ∉ ["https".toList, "http".toList] ∨ given parts.hostname = none then
      refuse ("The detection URL must be http(s)://host:port, " ++
        "e.g. https://wazuh-indexer:9200")
    else if parts.query ≠ [] ∨ parts.fragment ≠ [] ∨ given parts.username ≠ none then
      refuse "The detection URL can't contain a query, fragment or credentials"
    else .ok parts

/-- Connect, with the certificate checked (`_open`).  In the clear nothing is caught. -/
def openUrl (p : Peer) (url : Text) (parts : SearchUrl) (pin : Option Text) :
    Except Hosts.Reachability.Failure Unit :=
  match parts.port with
  | .error e => .error (.raised e)
  | .ok _ =>
    if parts.scheme = "http".toList then
      match p.connect with
      | .ok _ => .ok ()
      | .error e => .error (.raised e)
    else
      match p.connect with
      | .ok presented =>
        match pin with
        | some fp =>
          if presented = fp then .ok () else .error (differentCertificate url presented fp)
        | none => .ok ()
      | .error e =>
        if e.kind = .certificate then
          match p.fingerprint url with
          | .ok fp => .error (fingerprintNeeded fp)
          | .error f => .error f
        else if e.kind = .os then .error (cantConnect url e)
        else .error (.raised e)

/-- A `HostError` becomes a `DetectionError`; one about a certificate with a text of its own. -/
def ofHostFailure (p : Peer) (parts : SearchUrl) : Hosts.Reachability.Failure → Failure
  | .raised _ => .other
  | .host text =>
    match p.connect, p.presentedAgain with
    | .error e, .ok fp =>
      if parts.scheme ≠ "http".toList ∧ e.kind = .certificate then
        .detection (lit ("The SIEM's certificate isn't from a trusted authority. " ++
          "Check this fingerprint and confirm it: ") ++ fp.map Char.toNat)
      else .detection (text.map Char.toNat)
    | _, _ => .detection (text.map Char.toNat)

/-! ## Asking -/

/-- `MAX_BODY` -/
def maxBody : ℕ := 8 * 1024 * 1024

/-- The path of a search. -/
def searchPath (parts : SearchUrl) (index : Text) : Text :=
  parts.path ++ "/".toList ++ index ++
    "/_search?ignore_unavailable=true&allow_no_indices=true".toList

/-- The status and the value of an answer that is read. -/
abbrev Answer := ℕ × JsonValue

/-- An answer is read, if it comes. -/
def readAnswer (env : SearchEnv) (url : Text) :
    Except Raised (ℕ × List UInt8) → Except Failure Answer
  | .error e =>
    .error (if e.isOsError then .detection ((url ++ ": ".toList ++ e.text).map Char.toNat)
      else .other)
  | .ok (status, body) =>
    let data := body.take (maxBody + 1)
    if status = 401 ∨ status = 403 then
      .error (.detection (lit "The SIEM rejected the credentials (HTTP " ++
        (Nat.toDigits 10 status).map Char.toNat ++ lit ")"))
    else if maxBody < data.length then refuse "The SIEM's answer is too large"
    else
      match env.loads (orEmptyObject data) with
      | .ok payload => .ok (status, payload)
      | .error e =>
        .error (if e.isValueError then
          .detection ((url ++ " didn't answer like Elasticsearch/OpenSearch (HTTP ".toList ++
            Nat.toDigits 10 status ++ ")".toList).map Char.toNat)
        else .other)

/-- One request, until its answer is read. -/
def exchange (env : SearchEnv) (p : Peer) (m : Manager) (index : Text) :
    Except Failure Answer :=
  match normalizeUrl env m with
  | .error f => .error f
  | .ok parts =>
    match openUrl p (address m) parts (given m.detectionFingerprint) with
    | .error f => .error (ofHostFailure p parts f)
    | .ok () => readAnswer env (address m) (p.answer (searchPath parts index))

section Reading

variable (F : JsonText.FloatText) [DecidablePred F.isFloat] (env : SearchEnv)

/-- `str` -/
def SearchEnv.str (v : JsonValue) : Option CodeText :=
  (PyRepr.str F env.printables env.depth v).toOption.map PyStr.points

/-- Why a search was refused, as the answer says it. -/
def reasonText (payload : JsonValue) : Option CodeText := do
  let error ← payload.get (lit "error")
  (if error.isObject then error.orEmpty.get (lit "reason") else some error) >>= env.str F

def refusal (status : ℕ) (text : CodeText) : CodeText :=
  lit "The SIEM refused the search (HTTP " ++ (Nat.toDigits 10 status).map Char.toNat ++
    lit "): " ++ text.take 200

/-- What is made of an answer that was read. -/
def settle (a : Answer) : Except Failure JsonValue :=
  if 400 ≤ a.1 then
    match reasonText F env a.2 with
    | some text => .error (.detection (refusal a.1 text))
    | none => .error .other
  else .ok a.2

/-- One search (`search`). -/
def search (p : Peer) (m : Manager) (index : Text) : Except Failure JsonValue :=
  match exchange env p m index with
  | .error f => .error f
  | .ok a => settle F env a

end Reading

/-! ## Which searches are handled -/

/-- The other end takes the connection, and presents the certificate that was confirmed if there is
one. -/
def connects (p : Peer) (parts : SearchUrl) (pin : Option Text) : Bool :=
  parts.port.isOk && match p.connect with
    | .ok presented =>
      decide (parts.scheme = "http".toList) || pin.all fun fp => decide (presented = fp)
    | .error _ => false

/-- A failure to connect is handled: over TLS, those of the socket and of the certificate. -/
def connectHandled (p : Peer) (parts : SearchUrl) : Bool :=
  parts.port.isOk && match p.connect with
    | .ok _ => true
    | .error e =>
      decide (parts.scheme ≠ "http".toList) && (decide (e.kind = .os) ||
        decide (e.kind = .certificate) && match p.presentedAgain with
          | .ok _ => true
          | .error e => e.isOsError)

/-- The answer is broken off, rejects the credentials, is too large, is no JSON or is read. -/
def readHandled (env : SearchEnv) : Except Raised (ℕ × List UInt8) → Bool
  | .error e => e.isOsError
  | .ok (status, body) =>
    decide (status = 401 ∨ status = 403) || decide (maxBody < body.length) ||
      match env.loads (orEmptyObject body) with
      | .ok _ => true
      | .error e => e.isValueError

/-- The address is one that can be taken apart, and the other end fails in a way that is handled or
gives an answer. -/
def exchangeHandled (env : SearchEnv) (p : Peer) (m : Manager) (index : Text) : Bool :=
  match env.urlsplit (address m) with
  | .error _ => false
  | .ok parts =>
    !parts.plain || connectHandled p parts &&
      (!connects p parts (given m.detectionFingerprint) ||
        readHandled env (p.answer (searchPath parts index)))

/-- The other end gives an answer that is read. -/
structure Answers (env : SearchEnv) (p : Peer) (m : Manager) (index : Text) (a : Answer) :
    Prop where
  asked : ∃ parts body, env.urlsplit (address m) = .ok parts ∧ parts.plain = true ∧
    connects p parts (given m.detectionFingerprint) = true ∧
    p.answer (searchPath parts index) = .ok (a.1, body) ∧
    body.length ≤ maxBody ∧ env.loads (orEmptyObject body) = .ok a.2
  accepted : a.1 ≠ 401 ∧ a.1 ≠ 403

variable {env : SearchEnv} {p : Peer} {m : Manager} {index : Text} {parts : SearchUrl}

lemma normalizeUrl_of_error {e : Raised} (h : env.urlsplit (address m) = .error e) :
    normalizeUrl env m = .error .other := by
  rw [normalizeUrl, h]

lemma plain_iff :
    parts.plain = true ↔
      ¬(parts.scheme ∉ ["https".toList, "http".toList] ∨ given parts.hostname = none) ∧
        ¬(parts.query ≠ [] ∨ parts.fragment ≠ [] ∨ given parts.username ≠ none) := by
  simp only [SearchUrl.plain, Bool.and_eq_true, decide_eq_true_eq, Option.isNone_iff_eq_none,
    Option.isSome_iff_ne_none, not_or, not_not, ne_eq, and_assoc]

lemma normalizeUrl_of_plain (h : env.urlsplit (address m) = .ok parts)
    (hplain : parts.plain = true) : normalizeUrl env m = .ok parts := by
  obtain ⟨hscheme, hquery⟩ := plain_iff.mp hplain
  rw [normalizeUrl, h]
  dsimp only
  rw [if_neg hscheme, if_neg hquery]

lemma normalizeUrl_of_not_plain (h : env.urlsplit (address m) = .ok parts)
    (hplain : parts.plain = false) :
    ∃ text, normalizeUrl env m = .error (.detection (lit text)) := by
  rw [normalizeUrl, h]
  dsimp only
  split_ifs with hscheme hquery
  · exact ⟨_, rfl⟩
  · exact ⟨_, rfl⟩
  · rw [plain_iff.mpr ⟨hscheme, hquery⟩] at hplain
    cases hplain

/-! ## Connections -/

lemma ofHostFailure_host (text : Text) :
    ∃ t, ofHostFailure p parts (.host text) = .detection t ∧ encodable t = true := by
  rw [ofHostFailure]
  split
  · split_ifs
    · refine ⟨_, rfl, ?_⟩
      rw [lit, ← List.map_append]
      exact Audit.Recording.encodable_text _
    · exact ⟨_, rfl, Audit.Recording.encodable_text text⟩
  · exact ⟨_, rfl, Audit.Recording.encodable_text text⟩

lemma openUrl_of_connects {pin : Option Text} (h : connects p parts pin = true) :
    openUrl p (address m) parts pin = .ok () := by
  rw [connects, Bool.and_eq_true] at h
  obtain ⟨hport, h⟩ := h
  rw [openUrl]
  cases hp : parts.port with
  | error e => rw [hp] at hport; cases hport
  | ok port =>
    cases hc : p.connect with
    | error e => rw [hc] at h; cases h
    | ok presented =>
      rw [hc] at h
      dsimp only at h ⊢
      split_ifs with hclear
      · rfl
      · cases pin with
        | none => rfl
        | some fp =>
          have hsame : presented = fp := by
            simpa only [decide_eq_false hclear, Bool.false_or, Option.all_some,
              decide_eq_true_eq] using h
          exact if_pos hsame

/-- A connection that is not made fails with a `DetectionError` exactly if the failure is handled. -/
lemma openUrl_of_not_connects {pin : Option Text} (h : connects p parts pin = false) :
    ∃ f, openUrl p (address m) parts pin = .error f ∧
      (connectHandled p parts = true ↔ ∃ text, f = .host text) := by
  rw [connects] at h
  rw [openUrl, connectHandled]
  cases hp : parts.port with
  | error e => exact ⟨.raised e, rfl, by simp [Except.isOk, Except.toBool]⟩
  | ok port =>
    simp only [hp, Except.isOk, Except.toBool, Bool.true_and] at h ⊢
    cases hc : p.connect with
    | ok presented =>
      simp only [hc, Bool.or_eq_false_iff, decide_eq_false_iff_not] at h ⊢
      rw [if_neg h.1]
      cases pin with
      | none => simp at h
      | some fp =>
        have hother : presented ≠ fp := by simpa using h.2
        exact ⟨_, if_neg hother, by simp [differentCertificate]⟩
    | error e =>
      dsimp only
      by_cases hclear : parts.scheme = "http".toList
      · exact ⟨.raised e, if_pos hclear, by simp [hclear]⟩
      · rw [if_neg hclear, decide_eq_true hclear, Bool.true_and]
        by_cases hcertificate : e.kind = .certificate
        · rw [if_pos hcertificate, Peer.fingerprint, hcertificate]
          cases hagain : p.presentedAgain with
          | ok fp => exact ⟨_, rfl, by simp [fingerprintNeeded]⟩
          | error e' => cases hos : e'.isOsError <;> simp [cantConnect, hos]
        · rw [if_neg hcertificate]
          by_cases hos : e.kind = .os
          · exact ⟨_, if_pos hos, by simp [hos, cantConnect]⟩
          · exact ⟨_, if_neg hos, by simp [hos, hcertificate]⟩

/-- A host of this console is connected to in the same way. -/
lemma openConn_eq_openUrl {h : Hosts.Host} {port : Option ℕ} (hport : parts.port = .ok port)
    (hscheme : parts.scheme = "http".toList ↔ Hosts.isHttps h.url = false) :
    openConn p h = openUrl p h.url parts h.pin := by
  rw [openConn, openUrl, hport]
  by_cases hclear : parts.scheme = "http".toList
  · rw [if_pos (hscheme.mp hclear)]
    exact (if_pos hclear).symm
  · rw [if_neg fun hhttps => hclear (hscheme.mpr hhttps)]
    exact (if_neg hclear).symm

/-! ## Answers -/

/-- What was answered is not too large if it is cut off nowhere. -/
lemma length_cut {body : List UInt8} :
    maxBody < (body.take (maxBody + 1)).length ↔ maxBody < body.length := by
  rw [List.length_take]
  omega

lemma readAnswer_eq_ok_iff {url : Text} {r : Except Raised (ℕ × List UInt8)} {a : Answer} :
    readAnswer env url r = .ok a ↔
      (∃ body, r = .ok (a.1, body) ∧ body.length ≤ maxBody ∧
        env.loads (orEmptyObject body) = .ok a.2) ∧ a.1 ≠ 401 ∧ a.1 ≠ 403 := by
  cases r with
  | error e => simp [readAnswer]
  | ok r =>
    obtain ⟨status, body⟩ := r
    rw [readAnswer]
    split_ifs with hrejected hlarge
    · refine iff_of_false (by simp) ?_
      rintro ⟨⟨body', hbody, -⟩, haccepted⟩
      cases hbody
      exact hrejected.elim haccepted.1 haccepted.2
    · rw [length_cut] at hlarge
      refine iff_of_false (by simp [refuse]) ?_
      rintro ⟨⟨body', hbody, hsmall, -⟩, -⟩
      cases hbody
      omega
    · rw [length_cut] at hlarge
      rw [List.take_of_length_le (by omega)]
      cases hloads : env.loads (orEmptyObject body) with
      | error e =>
        refine iff_of_false (by simp) ?_
        rintro ⟨⟨body', hbody, -, hloads'⟩, -⟩
        cases hbody
        rw [hloads] at hloads'
        cases hloads'
      | ok payload =>
        constructor
        · intro h
          cases h
          exact ⟨⟨body, rfl, by omega, hloads⟩, not_or.mp hrejected⟩
        · rintro ⟨⟨body', hbody, -, hloads'⟩, -⟩
          cases hbody
          rw [hloads] at hloads'
          exact congrArg (fun v => Except.ok (a.1, v)) (Except.ok.inj hloads')

/-- A failure that is handled says in characters what it is. -/
def FailsAs (f : Failure) : Bool → Prop
  | true => ∃ t, f = .detection t ∧ encodable t = true
  | false => f = .other

lemma readAnswer_error {url : Text} {r : Except Raised (ℕ × List UInt8)} {f : Failure}
    (h : readAnswer env url r = .error f) :
    FailsAs f (readHandled env r) := by
  cases r with
  | error e =>
    rw [readAnswer] at h
    obtain rfl := Except.error.inj h
    rw [readHandled]
    cases e.isOsError with
    | false => rfl
    | true => exact ⟨_, rfl, Audit.Recording.encodable_text _⟩
  | ok r =>
    obtain ⟨status, body⟩ := r
    rw [readAnswer] at h
    rw [readHandled]
    split_ifs at h with hrejected hlarge
    · rw [decide_eq_true hrejected]
      obtain rfl := Except.error.inj h
      refine ⟨_, rfl, ?_⟩
      rw [lit, lit, ← List.map_append, ← List.map_append]
      exact Audit.Recording.encodable_text _
    · rw [decide_eq_true (length_cut.mp hlarge), Bool.or_true]
      obtain rfl := Except.error.inj h
      exact ⟨_, rfl, Audit.Recording.encodable_text _⟩
    · rw [length_cut] at hlarge
      rw [decide_eq_false hrejected, decide_eq_false hlarge, Bool.or_false, Bool.false_or]
      rw [List.take_of_length_le (by omega)] at h
      cases hloads : env.loads (orEmptyObject body) with
      | ok payload => rw [hloads] at h; cases h
      | error e =>
        rw [hloads] at h
        obtain rfl := Except.error.inj h
        dsimp only
        cases e.isValueError with
        | false => rfl
        | true => exact ⟨_, rfl, Audit.Recording.encodable_text _⟩

lemma connectHandled_of_connects {pin : Option Text} (h : connects p parts pin = true) :
    connectHandled p parts = true := by
  rw [connects, Bool.and_eq_true] at h
  rw [connectHandled, h.1, Bool.true_and]
  cases hc : p.connect with
  | ok presented => rfl
  | error e => rw [hc] at h; cases h.2

/-- **Which exchanges are handled**: one that fails raises a `DetectionError`, with a text of
characters, exactly if the address and the other end are as in `exchangeHandled`. -/
theorem exchange_error {f : Failure} (h : exchange env p m index = .error f) :
    FailsAs f (exchangeHandled env p m index) := by
  rw [exchange] at h
  rw [exchangeHandled]
  cases hsplit : env.urlsplit (address m) with
  | error e =>
    rw [normalizeUrl_of_error hsplit] at h
    exact (Except.error.inj h).symm
  | ok parts =>
    dsimp only
    cases hplain : parts.plain with
    | false =>
      obtain ⟨text, hurl⟩ := normalizeUrl_of_not_plain hsplit hplain
      rw [hurl] at h
      exact ⟨_, (Except.error.inj h).symm, Audit.Recording.encodable_text _⟩
    | true =>
      rw [normalizeUrl_of_plain hsplit hplain] at h
      dsimp only at h
      cases hconnects : connects p parts (given m.detectionFingerprint) with
      | true =>
        rw [openUrl_of_connects hconnects] at h
        rw [connectHandled_of_connects hconnects]
        exact readAnswer_error h
      | false =>
        obtain ⟨f', hopen, hhandled⟩ := openUrl_of_not_connects (m := m) hconnects
        rw [hopen] at h
        obtain rfl := Except.error.inj h
        cases hconnect : connectHandled p parts with
        | true =>
          obtain ⟨text, rfl⟩ := hhandled.mp hconnect
          exact ofHostFailure_host text
        | false =>
          cases f' with
          | raised e => rfl
          | host text => rw [hhandled.mpr ⟨text, rfl⟩] at hconnect; cases hconnect

lemma exchange_eq_ok_iff {a : Answer} :
    exchange env p m index = .ok a ↔ Answers env p m index a := by
  constructor
  · intro h
    rw [exchange] at h
    cases hsplit : env.urlsplit (address m) with
    | error e => rw [normalizeUrl_of_error hsplit] at h; cases h
    | ok parts =>
      cases hplain : parts.plain with
      | false =>
        obtain ⟨text, hurl⟩ := normalizeUrl_of_not_plain hsplit hplain
        rw [hurl] at h
        cases h
      | true =>
        rw [normalizeUrl_of_plain hsplit hplain] at h
        dsimp only at h
        cases hconnects : connects p parts (given m.detectionFingerprint) with
        | true =>
          rw [openUrl_of_connects hconnects] at h
          obtain ⟨⟨body, hanswer, hsmall, hloads⟩, haccepted⟩ := readAnswer_eq_ok_iff.mp h
          exact ⟨⟨parts, body, hsplit, hplain, hconnects, hanswer, hsmall, hloads⟩, haccepted⟩
        | false =>
          obtain ⟨f', hopen, -⟩ := openUrl_of_not_connects (m := m) hconnects
          rw [hopen] at h
          cases h
  · rintro ⟨⟨parts, body, hsplit, hplain, hconnects, hanswer, hsmall, hloads⟩, haccepted⟩
    rw [exchange, normalizeUrl_of_plain hsplit hplain]
    dsimp only
    rw [openUrl_of_connects hconnects]
    exact readAnswer_eq_ok_iff.mpr ⟨⟨body, hanswer, hsmall, hloads⟩, haccepted⟩

lemma exchangeHandled_of_answers {a : Answer} (h : Answers env p m index a) :
    exchangeHandled env p m index = true := by
  obtain ⟨⟨parts, body, hsplit, hplain, hconnects, hanswer, hsmall, hloads⟩, haccepted⟩ := h
  rw [exchangeHandled, hsplit]
  dsimp only
  rw [connectHandled_of_connects hconnects, hanswer, readHandled]
  simp [hloads]

/-! ## Searches -/

section Searches

variable {F : JsonText.FloatText} [DecidablePred F.isFloat]

/-- Why a search was refused, for any answer. -/
def reason (payload : JsonValue) : JsonValue :=
  let error := payload.entry (lit "error")
  if error.isObject then error.entry (lit "reason") else error

/-- Whether `str` of a value returns. -/
def SearchEnv.writes (env : SearchEnv) (v : JsonValue) : Bool := PyRepr.fits env.depth v

lemma isSome_str {v : JsonValue} : (env.str F v).isSome = env.writes v := by
  rw [Bool.eq_iff_iff, SearchEnv.writes, ← PyRepr.str_isOk (F := F) (P := env.printables),
    SearchEnv.str, Option.isSome_map]
  cases PyRepr.str F env.printables env.depth v <;> simp [Except.toOption]

lemma str_eq {v : JsonValue} : env.str F v = returnIf (env.writes v) ((env.str F v).getD []) := by
  rw [← isSome_str (F := F)]
  exact eq_returnIf ..

lemma reasonText_eq (payload : JsonValue) :
    reasonText F env payload = if payload.isObject then env.str F (reason payload) else none := by
  have hreason : ∀ error : JsonValue,
      ((if error.isObject then error.orEmpty.get (lit "reason") else some error) >>= env.str F) =
        env.str F (if error.isObject then error.entry (lit "reason") else error) := by
    intro error
    split_ifs with hobject
    · rw [JsonValue.get_orEmpty, JsonValue.objectOrFalsy, hobject, Bool.or_true]
      rfl
    · rfl
  rw [reasonText, JsonValue.get_eq, reason]
  cases payload.isObject
  · rfl
  · exact hreason _

/-- An answer that refuses a search has a reason that can be written. -/
def settleHandled (env : SearchEnv) (a : Answer) : Bool :=
  decide (a.1 < 400) || a.2.isObject && env.writes (reason a.2)

/-- What an answer says where it refuses a search. -/
def Refuses (F : JsonText.FloatText) [DecidablePred F.isFloat] (env : SearchEnv) (a : Answer)
    (text : CodeText) : Prop :=
  400 ≤ a.1 ∧ a.2.isObject = true ∧ env.str F (reason a.2) = some text

lemma settle_eq_ok_iff {a : Answer} {v : JsonValue} :
    settle F env a = .ok v ↔ a.1 < 400 ∧ a.2 = v := by
  rw [settle]
  split_ifs with h
  · refine iff_of_false ?_ (by omega)
    cases reasonText F env a.2 <;> simp
  · simp only [Except.ok.injEq]
    exact ⟨fun hv => ⟨by omega, hv⟩, And.right⟩

lemma settle_eq_detection_iff {a : Answer} {t : CodeText} :
    settle F env a = .error (.detection t) ↔
      ∃ text, Refuses F env a text ∧ t = refusal a.1 text := by
  rw [settle, reasonText_eq]
  split_ifs with h hobject
  · cases hstr : env.str F (reason a.2) with
    | none => simp [Refuses, hstr]
    | some text => simp [Refuses, hstr, h, hobject, eq_comm]
  · simp [Refuses, hobject]
  · simp [Refuses, h]

lemma settle_handled {a : Answer} : Handled (settle F env a) ↔ settleHandled env a = true := by
  rw [settle, reasonText_eq, settleHandled, ← isSome_str (F := F)]
  split_ifs with h hobject
  · rw [decide_eq_false (by omega), hobject]
    cases env.str F (reason a.2) <;> simp [Handled]
  · simp only [Bool.not_eq_true] at hobject
    rw [decide_eq_false (by omega), hobject]
    simp [Handled]
  · rw [decide_eq_true (by omega)]
    simp [Handled]

lemma encodable_refusal {status : ℕ} {text : CodeText} :
    encodable (refusal status text) = encodable (text.take 200) := by
  have hfirst : encodable (lit "The SIEM refused the search (HTTP " ++
      (Nat.toDigits 10 status).map Char.toNat ++ lit "): ") = true := by
    rw [lit, lit, ← List.map_append, ← List.map_append]
    exact Audit.Recording.encodable_text _
  rw [refusal, encodable, List.all_append]
  rw [encodable] at hfirst
  rw [hfirst, Bool.true_and]
  rfl

/-- A search gives an answer or raises a `DetectionError`. -/
structure SearchHandled (env : SearchEnv) (p : Peer) (m : Manager) (index : Text) : Prop where
  exchange : exchangeHandled env p m index = true
  settle : ∀ a, Answers env p m index a → settleHandled env a = true

/-- **Which searches are handled.** -/
theorem search_handled : Handled (search F env p m index) ↔ SearchHandled env p m index := by
  rw [search]
  cases hexchange : exchange env p m index with
  | error f =>
    have hfails := exchange_error hexchange
    have hno : ∀ a, ¬Answers env p m index a := fun a ha => by
      rw [exchange_eq_ok_iff.mpr ha] at hexchange
      cases hexchange
    cases hhandled : exchangeHandled env p m index with
    | true =>
      rw [hhandled] at hfails
      obtain ⟨t, rfl, -⟩ := hfails
      exact iff_of_true (by simp [Handled]) ⟨hhandled, fun a ha => absurd ha (hno a)⟩
    | false =>
      rw [hhandled] at hfails
      obtain rfl := hfails
      refine iff_of_false (by simp [Handled]) fun h => ?_
      rw [h.exchange] at hhandled
      cases hhandled
  | ok a =>
    have ha := exchange_eq_ok_iff.mp hexchange
    show Handled (settle F env a) ↔ _
    rw [settle_handled]
    constructor
    · refine fun h => ⟨exchangeHandled_of_answers ha, fun a' ha' => ?_⟩
      rw [exchange_eq_ok_iff.mpr ha'] at hexchange
      obtain rfl := Except.ok.inj hexchange
      exact h
    · exact fun h => h.settle a ha

/-- The other end gives a search the value that it asks for. -/
def Finds (env : SearchEnv) (p : Peer) (m : Manager) (index : Text) (v : JsonValue) : Prop :=
  ∃ status < 400, Answers env p m index (status, v)

theorem search_eq_ok_iff {v : JsonValue} :
    search F env p m index = .ok v ↔ Finds env p m index v := by
  rw [search]
  constructor
  · intro h
    cases hexchange : exchange env p m index with
    | error f => rw [hexchange] at h; cases h
    | ok a =>
      rw [hexchange] at h
      obtain ⟨hstatus, rfl⟩ := settle_eq_ok_iff.mp h
      exact ⟨a.1, hstatus, exchange_eq_ok_iff.mp hexchange⟩
  · rintro ⟨status, hstatus, ha⟩
    rw [exchange_eq_ok_iff.mpr ha]
    exact settle_eq_ok_iff.mpr ⟨hstatus, rfl⟩

/-- What a search that is refused says can be encoded if the beginning of the reason can. -/
theorem search_text {t : CodeText} (h : search F env p m index = .error (.detection t)) :
    encodable t = true ↔ ∀ a text, Answers env p m index a → Refuses F env a text →
      encodable (text.take 200) = true := by
  rw [search] at h
  cases hexchange : exchange env p m index with
  | error f =>
    rw [hexchange] at h
    obtain rfl := Except.error.inj h
    have hno : ∀ a, ¬Answers env p m index a := fun a ha => by
      rw [exchange_eq_ok_iff.mpr ha] at hexchange
      cases hexchange
    refine iff_of_true ?_ fun a _ ha => absurd ha (hno a)
    have hfails := exchange_error hexchange
    cases hhandled : exchangeHandled env p m index with
    | true =>
      rw [hhandled] at hfails
      obtain ⟨t', ht', hencodable⟩ := hfails
      cases ht'
      exact hencodable
    | false => rw [hhandled] at hfails; cases hfails
  | ok a =>
    rw [hexchange] at h
    obtain ⟨text, hrefuses, rfl⟩ := settle_eq_detection_iff.mp h
    rw [encodable_refusal]
    constructor
    · intro hencodable a' text' ha' hrefuses'
      rw [exchange_eq_ok_iff.mpr ha'] at hexchange
      obtain rfl := Except.ok.inj hexchange
      obtain rfl := Option.some.inj (hrefuses.2.2.symm.trans hrefuses'.2.2)
      exact hencodable
    · exact fun h => h a text (exchange_eq_ok_iff.mp hexchange) hrefuses

end Searches

end Habeny.Simulations.Search
