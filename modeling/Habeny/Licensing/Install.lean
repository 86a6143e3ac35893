import Habeny.Licensing.Decode

/-!
# Installing a licence

`install` writes a licence anew, under a comment that names its id and its customer, and
`status` reads that file back whenever it is asked.

The comment is built from what the payload says.  An id or customer with a line end in it can
leave more than a comment there, or code points that no file takes; and a licence that expires
at the end of the calendar has no day on which its grace ends.
-/

namespace Habeny.Licensing

open Habeny.Lib Habeny.Lib.CodeText

namespace InstallEnv

variable (env : InstallEnv)

/-! ## Installing -/

/-- The code points of a text of characters. -/
def codes (t : Text) : CodeText := t.map Char.toNat

/-- The characters of a text, where it has no other code points. -/
def characters (t : CodeText) : Text := t.map Char.ofNat

/-- The ordinal of the last day of the calendar, 9999-12-31. -/
def maxDay : ℤ := 3652059

def isOwn (p : LicensePayload) : Bool := decide (p.serverId.1 = codes env.serverId)

/-- The checks of `install`.  The day on which the grace ends may be none of the calendar, which
raises an `OverflowError`. -/
def checkInstall (text : CodeText) (today : ℤ) : Checked LicensePayload :=
  if env.enforced = false then
    refuse (lit "Licensing is off in this build of Habeny, so there's nothing to install")
  else do
    let p ← env.decode text
    if env.isOwn p = false then
      refuse (lit "This license is for server " ++ p.serverId.1 ++ lit "; this server is "
        ++ codes env.serverId)
    else
      match p.expires with
      | none => .ok p
      | some e =>
        if maxDay < e.day + graceDays then .error .other
        else if e.day + graceDays < today then
          refuse (lit "This license expired on " ++ e.text.1)
        else .ok p

/-- The comment over an installed licence. -/
def header (p : LicensePayload) : CodeText :=
  lit "# Habeny license " ++ p.id.1 ++ lit " for " ++ p.customer.1 ++ [newline]

/-- The installed file. -/
def render (p : LicensePayload) (text : CodeText) : CodeText :=
  header p ++ (token text ++ [newline])

/-- Check a license and make it this server's. Returns its payload.  `stored` is the file that is
there, and the second result the one that is there then; a text that cannot be encoded leaves
the first. -/
def install (text : CodeText) (today : ℤ) (stored : Option CodeText) :
    Checked LicensePayload × Option CodeText :=
  match env.checkInstall text today with
  | .error e => (.error e, stored)
  | .ok p =>
    if encodable (render p text) then (.ok p, some (render p text)) else (.error .other, stored)

/-! ## The state afterwards -/

end InstallEnv

lemma LicensePayload.limit_pos (p : LicensePayload) :
    ∀ limit ∈ p.maxContainers.map Subtype.val, 1 ≤ limit := by
  intro limit hlimit
  obtain ⟨n, -, rfl⟩ := Option.map_eq_some_iff.mp hlimit
  exact n.2

/-- What the licensing state uses of a payload. -/
def LicensePayload.toPayload (p : LicensePayload) : Payload where
  customer := InstallEnv.characters p.customer.1
  serverId := InstallEnv.characters p.serverId.1
  expires := p.expires.map fun e => ⟨InstallEnv.characters e.text.1, e.day⟩
  maxContainers := p.maxContainers.map Subtype.val
  limit_pos := p.limit_pos

namespace InstallEnv

variable (env : InstallEnv)

/-- The server with what its licence file decodes to. -/
def server (licenseFile : Option (Except Text Payload)) (today : ℤ) : Server where
  enforced := env.enforced
  serverId := env.serverId
  licenseFile := licenseFile
  trialStart := env.trialStart
  today := today

/-- What the state reports: the licensing state and the payload of the licence that counts. -/
abbrev Report := Info × Option LicensePayload

/-- The state with a licence that counts. -/
def reportOf (p : LicensePayload) (today : ℤ) : Report :=
  (statusInfo (env.server (some (.ok p.toPayload)) today), some p)

/-- The state with an installed file that has a problem. -/
def problemReport (problem : Text) (today : ℤ) : Report :=
  (statusInfo (env.server (some (.error problem)) today), none)

/-- `status_info`, which reads the installed file.  `none` when it raises. -/
def status (stored : Option CodeText) (today : ℤ) : Option Report :=
  if env.enforced = false then some (statusInfo (env.server none today), none)
  else
    match stored with
    | none => some (statusInfo (env.server none today), none)
    | some file =>
      match env.decode (universalNewlines file) with
      | .ok p =>
        if env.isOwn p then some (env.reportOf p today)
        else some (env.problemReport (otherServer (characters p.serverId.1) env.serverId) today)
      | .error (.licenseError message) => some (env.problemReport (characters message) today)
      | .error .other => none

/-! ## The installed file -/

/-- The licence of an installed file: what the comment leaves, and the licence. -/
lemma token_render (p : LicensePayload) (text : CodeText) :
    token (render p text) = token (header p) ++ token text := by
  have hrender : render p text = (lit "# Habeny license " ++ p.id.1 ++ lit " for "
      ++ p.customer.1) ++ newline :: (token text ++ [newline]) := by
    rw [render, header, List.append_assoc _ [newline]]
    rfl
  rw [hrender, token_append, token_token]
  rfl

/-! ## What installing checks -/

/-- The day on which the grace ends is one of the calendar. -/
def OnCalendar (p : LicensePayload) : Prop := ∀ e ∈ p.expires, e.day + graceDays ≤ maxDay

/-- The grace has not ended. -/
def InTime (p : LicensePayload) (today : ℤ) : Prop := ∀ e ∈ p.expires, today ≤ e.day + graceDays

lemma checkInstall_of_refused {text : CodeText} {message : CodeText}
    (h : env.decode text = refuse message) (today : ℤ) :
    ∃ message', env.checkInstall text today = refuse message' := by
  rw [checkInstall]
  split_ifs with hoff
  · exact ⟨_, rfl⟩
  · rw [h]
    exact ⟨message, rfl⟩

lemma checkInstall_of_other {text : CodeText} (hon : env.enforced = true)
    (h : env.decode text = .error .other) (today : ℤ) :
    env.checkInstall text today = .error .other := by
  rw [checkInstall, if_neg (by simp [hon]), h]
  rfl

variable {env}

/-- What installing makes of a payload for another server. -/
lemma checkInstall_of_not_own {text : CodeText} {p : LicensePayload} (hon : env.enforced = true)
    (h : env.decode text = .ok p) (hown : env.isOwn p = false) (today : ℤ) :
    ∃ message, env.checkInstall text today = refuse message := by
  rw [checkInstall, if_neg (by simp [hon]), h]
  exact ⟨_, if_pos hown⟩

lemma checkInstall_own {text : CodeText} {p : LicensePayload} (hon : env.enforced = true)
    (h : env.decode text = .ok p) (hown : env.isOwn p = true) (today : ℤ) :
    env.checkInstall text today = match p.expires with
      | none => .ok p
      | some e =>
        if maxDay < e.day + graceDays then .error .other
        else if e.day + graceDays < today then
          refuse (lit "This license expired on " ++ e.text.1)
        else .ok p := by
  rw [checkInstall, if_neg (by simp [hon]), h]
  exact if_neg (by simp [hown])

lemma checkInstall_off_calendar {text : CodeText} {p : LicensePayload}
    (hon : env.enforced = true) (h : env.decode text = .ok p) (hown : env.isOwn p = true)
    (hday : ¬OnCalendar p) (today : ℤ) : env.checkInstall text today = .error .other := by
  rw [checkInstall_own hon h hown]
  cases he : p.expires with
  | none => exact absurd (fun e hmem => by simp [he] at hmem) hday
  | some e =>
    -- the one expiry is the one that is off the calendar
    have hlt : maxDay < e.day + graceDays := by
      by_contra hle
      refine hday fun e' he' => ?_
      rw [he, Option.mem_some_iff] at he'
      exact he' ▸ not_lt.mp hle
    exact if_pos hlt

lemma checkInstall_expired {text : CodeText} {p : LicensePayload} {today : ℤ}
    (hon : env.enforced = true) (h : env.decode text = .ok p) (hown : env.isOwn p = true)
    (hday : OnCalendar p) (htime : ¬InTime p today) :
    ∃ message, env.checkInstall text today = refuse message := by
  rw [checkInstall_own hon h hown]
  cases he : p.expires with
  | none => exact absurd (fun e hmem => by simp [he] at hmem) htime
  | some e =>
    have hlt : e.day + graceDays < today := by
      by_contra hle
      refine htime fun e' he' => ?_
      rw [he, Option.mem_some_iff] at he'
      exact he' ▸ not_lt.mp hle
    have hle : ¬maxDay < e.day + graceDays := not_lt.mpr (hday e he)
    exact ⟨_, (if_neg hle).trans (if_pos hlt)⟩

lemma checkInstall_in_time {text : CodeText} {p : LicensePayload} {today : ℤ}
    (hon : env.enforced = true) (h : env.decode text = .ok p) (hown : env.isOwn p = true)
    (hday : OnCalendar p) (htime : InTime p today) : env.checkInstall text today = .ok p := by
  rw [checkInstall_own hon h hown]
  cases he : p.expires with
  | none => rfl
  | some e => exact (if_neg (not_lt.mpr (hday e he))).trans (if_neg (not_lt.mpr (htime e he)))

/-! ## What can be written -/

lemma encodable_of_ascii {t : CodeText} (h : ∀ c ∈ t, c < 128) : encodable t = true := by
  refine List.all_eq_true.mpr fun c hc => ?_
  have hlt := h c hc
  have hnot : ¬(55296 ≤ c ∧ c ≤ 57343) := by omega
  simp [isSurrogate, hnot]

/-- The id and the customer decide. -/
lemma encodable_render {text : CodeText} {p p' : LicensePayload}
    (h : env.decode text = .ok p') :
    encodable (render p text) = (encodable p.id.1 && encodable p.customer.1) := by
  have htoken : encodable (token text) = true := encodable_of_ascii (env.ascii_of_decode h)
  have hfirst : encodable (lit "# Habeny license ") = true := by decide
  have hfor : encodable (lit " for ") = true := by decide
  have hnewline : encodable [newline] = true := by decide
  simp only [render, header, encodable_append, htoken, hfirst, hfor, hnewline, Bool.true_and,
    Bool.and_true]

/-! ## What the state reports -/

lemma characters_codes (t : Text) : characters (codes t) = t := by
  rw [characters, codes, List.map_map]
  have hid : Char.ofNat ∘ Char.toNat = id := funext Char.ofNat_toNat
  rw [hid, List.map_id]

/-- New work is allowed with this server's licence until its grace ends. -/
lemma reportOf_allowsNewWork_iff {p : LicensePayload} (hon : env.enforced = true)
    (hown : env.isOwn p = true) (today : ℤ) :
    (env.reportOf p today).1.allowsNewWork = true ↔ InTime p today := by
  have hserver : p.toPayload.serverId = env.serverId := by
    have heq : p.serverId.1 = codes env.serverId := of_decide_eq_true hown
    rw [LicensePayload.toPayload, heq, characters_codes]
  have hinstalled : installed (env.server (some (.ok p.toPayload)) today)
      = (some p.toPayload, none) := by
    simp [installed, server, hserver]
  rw [reportOf, statusInfo_allowsNewWork_iff, hinstalled]
  simp [server, hon, InTime, LicensePayload.toPayload]

lemma status_of_decode {file : CodeText} {p : LicensePayload} (hon : env.enforced = true)
    (h : env.decode (universalNewlines file) = .ok p) (hown : env.isOwn p = true) (today : ℤ) :
    env.status (some file) today = some (env.reportOf p today) := by
  rw [status, if_neg (by simp [hon])]
  simp only [h, hown, if_true]

/-- A file that holds no licence leaves the server without one. -/
lemma status_of_notALicense {file : CodeText} (hon : env.enforced = true)
    (h : env.decode (universalNewlines file) = notALicense) (today : ℤ) :
    ∃ info, env.status (some file) today = some (info, none) := by
  rw [status, if_neg (by simp [hon])]
  simp only [h, notALicense, refuse]
  exact ⟨_, rfl⟩

/-- What an installed file decodes to. -/
lemma decode_render {text : CodeText} {p : LicensePayload} (h : env.decode text = .ok p) :
    env.decode (universalNewlines (render p text)) =
      if token (header p) = [] then .ok p else notALicense := by
  have htoken : token (universalNewlines (render p text)) = token (header p) ++ token text := by
    rw [token_universalNewlines, token_render]
  split_ifs with hnil
  · rw [← h]
    exact env.decode_congr (by rw [htoken, hnil, List.nil_append])
  · exact env.decode_of_front h hnil htoken

/-! ## Installing and the state afterwards -/

variable (env)

/-- Installing a text is atomic and agrees with the state afterwards: it is refused with a
`LicenseError` and the stored file stays, or the state reports the payload that was signed and
allows new work; and what is accepted is what decodes to a payload for this server with which
the state allows new work. -/
structure InstallAgrees (text : CodeText) (today : ℤ) (stored : Option CodeText) : Prop where
  refused_or_reported :
    (∃ message, env.install text today stored = (refuse message, stored)) ∨
    ∃ p after info, env.install text today stored = (.ok p, after) ∧ env.decode text = .ok p ∧
      env.status after today = some (info, some p) ∧ info.allowsNewWork = true
  accepts_iff :
    (∃ p after, env.install text today stored = (.ok p, after)) ↔
      ∃ p, env.decode text = .ok p ∧ env.isOwn p = true ∧
        (env.reportOf p today).1.allowsNewWork = true

/-- The comment that names a payload's id and customer is one, and can be written. -/
structure Nameable (p : LicensePayload) : Prop where
  encodable_id : encodable p.id.1 = true
  encodable_customer : encodable p.customer.1 = true
  commentOnly : CommentOnly (header p)

/-- What installing needs of a text while licensing is on: its payload is not nested too deep to
be read, and if it is for this server its grace ends on a day of the calendar and, unless the
grace has ended, its id and its customer can stand in a comment. -/
structure Installable (text : CodeText) (today : ℤ) : Prop where
  reads : env.decode text ≠ .error .other
  onCalendar : ∀ p, env.decode text = .ok p → env.isOwn p = true → OnCalendar p
  nameable : ∀ p, env.decode text = .ok p → env.isOwn p = true → InTime p today → Nameable p

variable {env}

lemma install_of_refused {text : CodeText} {today : ℤ} {message : CodeText}
    (h : env.checkInstall text today = refuse message) (stored : Option CodeText) :
    env.install text today stored = (refuse message, stored) := by
  rw [install, h]
  rfl

lemma install_of_other {text : CodeText} {today : ℤ}
    (h : env.checkInstall text today = .error .other) (stored : Option CodeText) :
    env.install text today stored = (.error .other, stored) := by
  rw [install, h]

lemma not_agrees_of_other {text : CodeText} {today : ℤ} {stored : Option CodeText}
    (h : env.install text today stored = (.error .other, stored)) :
    ¬env.InstallAgrees text today stored := by
  intro hagrees
  rcases hagrees.refused_or_reported with ⟨message, hrefused⟩ | ⟨p, after, info, hok, -⟩
  · rw [h] at hrefused
    exact absurd (congrArg Prod.fst hrefused) (by simp [refuse])
  · rw [h] at hok
    exact absurd (congrArg Prod.fst hok) (by simp)

/-- A refusal agrees when there is nothing to accept. -/
lemma agrees_of_refused {text : CodeText} {today : ℤ} {stored : Option CodeText}
    {message : CodeText} (h : env.checkInstall text today = refuse message)
    (hnone : ∀ p, env.decode text = .ok p → env.isOwn p = true →
      (env.reportOf p today).1.allowsNewWork ≠ true) :
    env.InstallAgrees text today stored := by
  have hinstall := install_of_refused h stored
  refine ⟨Or.inl ⟨message, hinstall⟩, ?_, ?_⟩
  · rintro ⟨p, after, hok⟩
    rw [hinstall] at hok
    exact absurd (congrArg Prod.fst hok) (by simp [refuse])
  · rintro ⟨p, hdecode, hown, hallows⟩
    exact absurd hallows (hnone p hdecode hown)

/-- A licence for this server that is in time. -/
lemma agrees_iff_nameable {text : CodeText} {today : ℤ} {stored : Option CodeText}
    {p : LicensePayload} (hon : env.enforced = true) (h : env.decode text = .ok p)
    (hown : env.isOwn p = true) (hday : OnCalendar p) (htime : InTime p today) :
    env.InstallAgrees text today stored ↔ Nameable p := by
  have hcheck := checkInstall_in_time hon h hown hday htime
  have hencodable := encodable_render (p := p) h
  by_cases hwrite : encodable (render p text) = true
  · have hinstall : env.install text today stored = (.ok p, some (render p text)) := by
      rw [install, hcheck]
      exact if_pos hwrite
    rw [hwrite] at hencodable
    obtain ⟨hid, hcustomer⟩ := (Bool.and_eq_true _ _).mp hencodable.symm
    constructor
    · intro hagrees
      refine ⟨hid, hcustomer, ?_⟩
      rw [← token_eq_nil_iff]
      -- text that is left of the comment would stand in front of the licence
      by_contra hnil
      have hdecode := decode_render h
      rw [if_neg hnil] at hdecode
      obtain ⟨info, hstatus⟩ := status_of_notALicense hon hdecode today
      rcases hagrees.refused_or_reported with ⟨message, hrefused⟩ | ⟨p', after, info', hok, -, hreport, -⟩
      · rw [hinstall] at hrefused
        exact absurd (congrArg Prod.fst hrefused) (by simp [refuse])
      · rw [hinstall, Prod.mk.injEq] at hok
        rw [← hok.2, hstatus] at hreport
        exact absurd hreport (by simp)
    · intro hnameable
      have hdecode := decode_render h
      rw [if_pos ((token_eq_nil_iff _).mpr hnameable.commentOnly)] at hdecode
      have hallows := (reportOf_allowsNewWork_iff hon hown today).mpr htime
      exact ⟨Or.inr ⟨p, _, _, hinstall, h, status_of_decode hon hdecode hown today, hallows⟩,
        fun _ => ⟨p, h, hown, hallows⟩, fun _ => ⟨p, _, hinstall⟩⟩
  · have hinstall : env.install text today stored = (.error .other, stored) := by
      rw [install, hcheck]
      exact if_neg hwrite
    constructor
    · exact fun hagrees => absurd hagrees (not_agrees_of_other hinstall)
    · intro hnameable
      rw [hnameable.encodable_id, hnameable.encodable_customer] at hencodable
      exact absurd hencodable hwrite

lemma eq_of_decode {text : CodeText} {p p' : LicensePayload} (h : env.decode text = .ok p)
    (h' : env.decode text = .ok p') : p' = p := by
  rw [h] at h'
  exact (Except.ok.inj h').symm

/-- What installing needs of a text with a payload. -/
lemma installable_iff {text : CodeText} {p : LicensePayload} (h : env.decode text = .ok p)
    (today : ℤ) : env.Installable text today ↔
      (env.isOwn p = true → OnCalendar p ∧ (InTime p today → Nameable p)) := by
  constructor
  · intro hinstallable hown
    exact ⟨hinstallable.onCalendar p h hown, hinstallable.nameable p h hown⟩
  · intro hneeds
    refine ⟨by simp [h], ?_, ?_⟩
    · intro p' h' hown
      rw [eq_of_decode h h'] at hown ⊢
      exact (hneeds hown).1
    · intro p' h' hown htime
      rw [eq_of_decode h h'] at hown htime ⊢
      exact (hneeds hown).2 htime

/-- A text with a payload. -/
lemma agrees_iff_of_decode {text : CodeText} {today : ℤ} {stored : Option CodeText}
    {p : LicensePayload} (hon : env.enforced = true) (h : env.decode text = .ok p) :
    env.InstallAgrees text today stored ↔
      (env.isOwn p = true → OnCalendar p ∧ (InTime p today → Nameable p)) := by
  by_cases hown : env.isOwn p = true
  · rw [imp_iff_right hown]
    by_cases hday : OnCalendar p
    · by_cases htime : InTime p today
      · rw [agrees_iff_nameable hon h hown hday htime]
        exact ⟨fun hnameable => ⟨hday, fun _ => hnameable⟩, fun hneeds => hneeds.2 htime⟩
      · obtain ⟨message, hcheck⟩ := checkInstall_expired hon h hown hday htime
        refine iff_of_true (agrees_of_refused hcheck ?_) ⟨hday, fun h => absurd h htime⟩
        intro p' h' hown'
        rw [Ne, reportOf_allowsNewWork_iff hon hown', eq_of_decode h h']
        exact htime
    · have hcheck := checkInstall_off_calendar hon h hown hday today
      exact iff_of_false (not_agrees_of_other (install_of_other hcheck stored))
        fun hneeds => hday hneeds.1
  · have hother : env.isOwn p = false := by simpa using hown
    obtain ⟨message, hcheck⟩ := checkInstall_of_not_own hon h hother today
    refine iff_of_true (agrees_of_refused hcheck ?_) fun h => absurd h hown
    intro p' h' hown'
    exact absurd (eq_of_decode h h' ▸ hown') hown

/-- **Installing is atomic and agrees with the state afterwards exactly when licensing is off
or the text is installable.** -/
theorem install_agrees_iff (env : InstallEnv) (text : CodeText) (today : ℤ)
    (stored : Option CodeText) :
    env.InstallAgrees text today stored ↔
      (env.enforced = true → env.Installable text today) := by
  cases hon : env.enforced with
  | false =>
    have hcheck : env.checkInstall text today = refuse _ := if_pos hon
    have hnone := env.decode_of_off hon text
    exact iff_of_true (agrees_of_refused hcheck fun p hp => absurd hp (hnone p)) (by simp)
  | true =>
    rw [imp_iff_right rfl]
    cases hdecode : env.decode text with
    | error failure =>
      cases failure with
      | licenseError message =>
        obtain ⟨message', hcheck⟩ := env.checkInstall_of_refused hdecode today
        refine iff_of_true (agrees_of_refused hcheck (by simp [hdecode])) ⟨?_, ?_, ?_⟩ <;>
          simp [hdecode]
      | other =>
        have hinstall := install_of_other (env.checkInstall_of_other hon hdecode today) stored
        exact iff_of_false (not_agrees_of_other hinstall) fun h => h.reads hdecode
    | ok p => rw [agrees_iff_of_decode hon hdecode, installable_iff hdecode]

/-! ## A customer of two lines -/

def sampleServerId : Text := "3F9A-0C21-77DE-B410-5A6E".toList
def sampleKey : CodeText := (List.replicate 10 (lit "AQEB")).flatten ++ lit "AQE="

def sampleBody : CodeText :=
  lit "eyJjdXN0b21lciI6IkV4YW1w" ++ lit "bGVcbkNvcnAiLCJpZCI6IkwtM" ++ lit "SIsImlzc3VlZCI6IjIwMjYt"
    ++ lit "MDEtMDEiLCJzZXJ2ZXJfaWQi" ++ lit "OiIzRjlBLTBDMjEtNzdERS1C" ++ lit "NDEwLTVBNkUiLCJ2IjoxfQ"

def sampleSignature : CodeText := (List.replicate 21 (lit "BwcH")).flatten ++ lit "Bw"
def sampleSignatureBytes : Bytes := List.replicate 64 7

/-- The JSON that the body encodes. -/
def sampleJson : Bytes :=
  lit "\x7b\"customer\":\"Example\\nCorp\"," ++ lit "\"id\":\"L-1\"," ++ lit "\"issued\":\"2026-01-01\","
    ++ lit "\"server_id\":" ++ lit "\"3F9A-0C21-77DE-B410-5A6E\"" ++ lit ",\"v\":1\x7d"

def samplePayload : PyValue :=
  .dict [(lit "customer", .str (lit "Example\nCorp")), (lit "id", .str (lit "L-1")),
    (lit "issued", .str (lit "2026-01-01")), (lit "server_id", .str (codes sampleServerId)),
    (lit "v", .int 1)]

/-- A server with one key, and one licence that the key signed. -/
def sampleInstallEnv : InstallEnv where
  publicKeys := [sampleKey]
  keyOf := fun t => if t = sampleKey then some 1 else none
  verify := fun key signature signed => decide (key = 1 ∧ signature = sampleSignatureBytes
    ∧ signed = formatPrefix ++ dot :: sampleBody)
  urlsafeB64decode := fun t =>
    if t = sampleBody ++ [equalsSign, equalsSign] then some sampleJson
    else if t = sampleSignature ++ [equalsSign, equalsSign] then some sampleSignatureBytes
    else none
  jsonLoads := fun bytes => if bytes = sampleJson then .ok samplePayload else .error .value
  fromIsoformat := fun t => if t = lit "2026-01-01" then some 739617 else none
  serverId := sampleServerId
  trialStart := none

def sampleLicense : CodeText := formatPrefix ++ dot :: sampleBody ++ dot :: sampleSignature

def sampleDecoded : LicensePayload where
  id := ⟨lit "L-1", by decide⟩
  customer := ⟨lit "Example\nCorp", by decide⟩
  serverId := ⟨codes sampleServerId, by decide⟩
  issued := ⟨⟨lit "2026-01-01", by decide⟩, 739617⟩
  expires := none
  maxContainers := none
  features := none

lemma sample_decode : sampleInstallEnv.decode sampleLicense = .ok sampleDecoded := by
  decide +kernel

/-- The second line of the customer's name is read as part of the licence: the text is accepted,
and the state reports no licence. -/
theorem installed_unreported :
    sampleInstallEnv.install sampleLicense 739700 none =
        (.ok sampleDecoded, some (render sampleDecoded sampleLicense)) ∧
      (∃ info, sampleInstallEnv.status (some (render sampleDecoded sampleLicense)) 739700 =
        some (info, none)) ∧
      ¬sampleInstallEnv.InstallAgrees sampleLicense 739700 none := by
  have hon : sampleInstallEnv.enforced = true := rfl
  have hown : sampleInstallEnv.isOwn sampleDecoded = true := by decide
  have hday : OnCalendar sampleDecoded := fun e he => absurd he (by simp [sampleDecoded])
  have htime : InTime sampleDecoded 739700 := fun e he => absurd he (by simp [sampleDecoded])
  have hfront : token (header sampleDecoded) ≠ [] := by decide +kernel
  have hinstall : sampleInstallEnv.install sampleLicense 739700 none =
      (.ok sampleDecoded, some (render sampleDecoded sampleLicense)) := by
    have hwrite : encodable (render sampleDecoded sampleLicense) = true := by
      rw [encodable_render sample_decode]
      decide
    rw [install, checkInstall_in_time hon sample_decode hown hday htime]
    exact if_pos hwrite
  have hread := decode_render sample_decode
  rw [if_neg hfront] at hread
  refine ⟨hinstall, status_of_notALicense hon hread 739700, ?_⟩
  rw [agrees_iff_nameable hon sample_decode hown hday htime]
  exact fun hnameable => hfront ((token_eq_nil_iff _).mpr hnameable.commentOnly)

end InstallEnv

end Habeny.Licensing
