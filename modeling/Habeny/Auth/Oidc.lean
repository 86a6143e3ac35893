import Habeny.Auth.Users

/-!
# Identities of the identity provider

A verified ID token names a subject and carries claims.  The subject with the issuer is what an
account is found by; the username of a new account comes from a claim, and so do the groups that
are mapped to a role.

A sign-in at the identity provider is a pending flow for some minutes, under a state that the
provider hands back.
-/

namespace Habeny.Auth

open Habeny.Lib

/-- The value of a claim: a text, a list by the texts of its items (an object by its keys), or a
value that has no items, of which only matters whether it counts as true. -/
inductive ClaimValue where
  | text (t : Text)
  | list (items : List Text)
  | other (counts : Bool)
  deriving DecidableEq

/-- Whether a value counts as true. -/
def ClaimValue.truthy : ClaimValue → Bool
  | .text t => !t.isEmpty
  | .list items => !items.isEmpty
  | .other counts => counts

/-- The claims of a verified ID token, which has a subject. -/
structure Claims where
  sub : Text
  others : Text → Option ClaimValue

/-- The value of a claim, when it is there and counts as true. -/
def Claims.get (claims : Claims) (name : Text) : Option ClaimValue :=
  (if name = "sub".toList then some (.text claims.sub) else claims.others name).filter
    ClaimValue.truthy

/-- What the single sign-on settings say about identities. -/
structure OidcSettings where
  issuer : Text
  usernameClaim : Text
  groupsClaim : Text
  roleGroups : Role → List Text
  defaultRole : Role

/-- Why a sign-in ends: it is refused with a message, or something raised. -/
inductive OidcFault where
  | refused (message : Text)
  | raised
  deriving DecidableEq

/-! ## The account's identity and name -/

/-- Stable identity for linking: the issuer plus its subject id. -/
def subjectKey (cfg : OidcSettings) (claims : Claims) : Text := cfg.issuer ++ '|' :: claims.sub

/-- The characters of an SSO username. -/
def isSsoChar (c : Char) : Bool := c.isAlphanum || "_.@+-".toList.contains c

/-- `SSO_USERNAME.match`: the pattern's end also stands before a line feed that ends the text. -/
def ssoUsernameMatches : Text → Bool
  | [] => false
  | c :: cs =>
    c.isAlphanum && decide ((cs.takeWhile isSsoChar).length ≤ 63)
      && decide (cs.dropWhile isSsoChar = [] ∨ cs.dropWhile isSsoChar = ['\n'])

/-- A username as it is documented: at most 64 letters, digits and other characters of a name. -/
structure Documented (username : Text) : Prop where
  ne_nil : username ≠ []
  length_le : username.length ≤ 64
  chars : ∀ c ∈ username, isSsoChar c = true

lemma isSsoChar_of_isAlphanum {c : Char} (h : c.isAlphanum = true) : isSsoChar c = true := by
  rw [isSsoChar, h, Bool.true_or]

/-- What the pattern accepts is documented but for a line feed at the end. -/
lemma documented_of_matches {username : Text} (h : ssoUsernameMatches username = true)
    (hend : username.getLast? ≠ some '\n') : Documented username := by
  cases username with
  | nil => exact absurd h (by simp [ssoUsernameMatches])
  | cons c cs =>
    simp only [ssoUsernameMatches, Bool.and_eq_true, decide_eq_true_eq] at h
    obtain ⟨⟨hc, hlen⟩, hrest⟩ := h
    have hsplit : cs.takeWhile isSsoChar ++ cs.dropWhile isSsoChar = cs :=
      List.takeWhile_append_dropWhile
    rcases hrest with hrest | hrest
    · rw [hrest, List.append_nil] at hsplit
      refine ⟨by simp, ?_, ?_⟩
      · rw [hsplit] at hlen
        rw [List.length_cons]
        omega
      · intro d hd
        rcases List.mem_cons.mp hd with rfl | hd
        · exact isSsoChar_of_isAlphanum hc
        · rw [← hsplit] at hd
          exact List.mem_takeWhile_imp hd
    · -- the line feed is the last character
      rw [hrest] at hsplit
      refine absurd ?_ hend
      rw [← hsplit, ← List.cons_append, List.getLast?_concat]

/-- The claim that a username is taken from. -/
def usernameValue (cfg : OidcSettings) (claims : Claims) : ClaimValue :=
  ((claims.get cfg.usernameClaim).or (claims.get "email".toList)).getD (.text [])

def notUsable (cfg : OidcSettings) : OidcFault :=
  .refused ("The identity provider's '".toList ++ cfg.usernameClaim
    ++ "' claim isn't a usable username".toList)

def usernameFrom (cfg : OidcSettings) (claims : Claims) : Except OidcFault Text :=
  match usernameValue cfg claims with
  | .text name => if ssoUsernameMatches name then .ok name else .error (notUsable cfg)
  | .list _ | .other _ => .error (notUsable cfg)

/-! ## Its role -/

/-- The roles, lowest first. -/
def ROLES : List Role := [.viewer, .operator, .admin]

/-- Whether any group is mapped to a role. -/
def OidcSettings.groupMapping (cfg : OidcSettings) : Bool :=
  ROLES.any fun role => !(cfg.roleGroups role).isEmpty

/-- The groups of a claim; a value without items cannot be gone through. -/
def groupsOf (cfg : OidcSettings) (claims : Claims) : Option (List Text) :=
  match claims.get cfg.groupsClaim with
  | none => some []
  | some (.text group) => some [group]
  | some (.list groups) => some groups
  | some (.other _) => none

/-- One of the groups is mapped to the role. -/
def Mapped (cfg : OidcSettings) (groups : List Text) (role : Role) : Prop :=
  ∃ group ∈ groups, group ∈ cfg.roleGroups role

instance (cfg : OidcSettings) (groups : List Text) (role : Role) :
    Decidable (Mapped cfg groups role) :=
  inferInstanceAs (Decidable (∃ group ∈ groups, group ∈ cfg.roleGroups role))

def notInGroup : OidcFault :=
  .refused
    "Your account isn't in a group that's allowed to use Habeny. Ask your administrator.".toList

/-- Role from group membership when group mapping is configured. -/
def roleFrom (cfg : OidcSettings) (claims : Claims) : Except OidcFault (Option Role) :=
  if ¬cfg.groupMapping then .ok none
  else
    match groupsOf cfg claims with
    | none => .error .raised
    | some groups =>
      match ROLES.reverse.find? fun role => decide (Mapped cfg groups role) with
      | some role => .ok (some role)
      | none => .error notInGroup

/-- A role that the claims' groups are mapped to, and none is above it. -/
def HighestMapped (cfg : OidcSettings) (claims : Claims) (role : Role) : Prop :=
  ∃ groups, groupsOf cfg claims = some groups ∧ Mapped cfg groups role ∧
    ∀ other, Mapped cfg groups other → other ≤ role

lemma groupMapping_of_mapped {cfg : OidcSettings} {groups : List Text} {role : Role}
    (h : Mapped cfg groups role) : cfg.groupMapping = true := by
  obtain ⟨group, -, hgroup⟩ := h
  refine List.any_eq_true.mpr ⟨role, by cases role <;> decide, ?_⟩
  simpa using List.ne_nil_of_mem hgroup

/-- The first mapped role from the top is the highest. -/
lemma find?_mapped_iff {cfg : OidcSettings} {groups : List Text} {role : Role} :
    ROLES.reverse.find? (fun r => decide (Mapped cfg groups r)) = some role ↔
      Mapped cfg groups role ∧ ∀ other, Mapped cfg groups other → other ≤ role := by
  have hroles : ROLES.reverse = [.admin, .operator, .viewer] := rfl
  rw [hroles]
  constructor
  · intro h
    refine ⟨by simpa using List.find?_some h, fun other hother => ?_⟩
    cases role with
    | admin => exact other.le_admin
    | operator =>
      by_cases hadmin : Mapped cfg groups .admin
      · simp [List.find?, hadmin] at h
      · cases other with
        | admin => exact absurd hother hadmin
        | operator | viewer => decide
    | viewer =>
      by_cases hadmin : Mapped cfg groups .admin
      · simp [List.find?, hadmin] at h
      · by_cases hoperator : Mapped cfg groups .operator
        · simp [List.find?, hadmin, hoperator] at h
        · cases other with
          | admin => exact absurd hother hadmin
          | operator => exact absurd hother hoperator
          | viewer => exact le_rfl
  · rintro ⟨hmapped, hmax⟩
    have habove : ∀ other, ¬other ≤ role → ¬Mapped cfg groups other :=
      fun other hle h => hle (hmax other h)
    cases role with
    | admin => simp [List.find?, hmapped]
    | operator => simp [List.find?, hmapped, habove .admin (by decide)]
    | viewer =>
      simp [List.find?, hmapped, habove .admin (by decide), habove .operator (by decide)]

/-- **The role of a sign-in is the highest one that its groups are mapped to.** -/
lemma roleFrom_eq_some_iff {cfg : OidcSettings} {claims : Claims} {role : Role} :
    roleFrom cfg claims = .ok (some role) ↔ HighestMapped cfg claims role := by
  unfold roleFrom HighestMapped
  by_cases hmapping : cfg.groupMapping = true
  · rw [if_neg (not_not.mpr hmapping)]
    cases hgroups : groupsOf cfg claims with
    | none => simp
    | some groups =>
      simp only [Option.some.injEq, exists_eq_left']
      rw [← find?_mapped_iff]
      cases ROLES.reverse.find? fun r => decide (Mapped cfg groups r) with
      | none => simp
      | some found => simp
  · rw [if_pos hmapping]
    constructor
    · intro h
      exact absurd h (by simp)
    · rintro ⟨groups, -, hmapped, -⟩
      exact absurd (groupMapping_of_mapped hmapped) hmapping

/-! ## Pending sign-ins -/

/-- The monotonic clock counts in microseconds. -/
def flowTtl : ℤ := 10 * 60 * 1000000

structure Flow where
  state : Text
  nonce : Text
  verifier : Text
  redirectUri : Text
  expires : ℤ
  deriving DecidableEq

/-- Pending sign-ins by their state (`FlowStore`). -/
abbrev Flows := List Flow

namespace Flows

/-- The flows of other states. -/
def others (flows : Flows) (state : Text) : Flows := flows.filter fun f => decide (f.state ≠ state)

/-- Add a flow, and drop the ones that have expired by now. -/
def create (flows : Flows) (flow : Flow) (now : ℤ) : Flows :=
  others (flows.filter fun f => decide (now < f.expires)) flow.state ++ [flow]

/-- Take the flow of a state out, if it has not expired. -/
def pop (flows : Flows) (state : Text) (now : ℤ) : Option Flow × Flows :=
  ((flows.find? fun f => decide (f.state = state)).filter fun f => decide (now < f.expires),
    flows.others state)

end Flows

/-! ## The account of an identity -/

/-- The account of an identity. -/
def Users.bySubject (u : Users) (subject : Text) : Option UserRow :=
  u.rows.find? fun r => decide (r.oidcSubject = some subject)

def nameTaken (username : Text) : OidcFault :=
  .refused ("A Habeny account named '".toList ++ username ++ "' already exists. ".toList
    ++ "Ask an administrator to rename or remove it.".toList)

/-- The first sign-in of an identity creates its account. -/
def newSsoAccount (u : Users) (cfg : OidcSettings) (claims : Claims) (groupRole : Option Role)
    (created : ℤ) : Except OidcFault UserRow × Users :=
  match usernameFrom cfg claims with
  | .error e => (.error e, u)
  | .ok username =>
    match u.createSsoUser username (subjectKey cfg claims) (groupRole.getD cfg.defaultRole)
        created with
    | (none, _) => (.error (nameTaken username), u)
    | (some user, u') => (.ok user, u')

/-- A later one brings the role in line with the groups, unless that would remove the last
administrator. -/
def syncRole (u : Users) (user : UserRow) (groupRole : Option Role) : UserRow × Users :=
  match groupRole with
  | none => (user, u)
  | some role =>
    if role ≠ user.role ∧ (u.setUserRole user.id role).1 = true then
      (((u.setUserRole user.id role).2.row user.id).getD user, (u.setUserRole user.id role).2)
    else (user, u)

/-- Find or create the account of a verified identity. -/
def ssoAccount (u : Users) (cfg : OidcSettings) (claims : Claims) (created : ℤ) :
    Except OidcFault UserRow × Users :=
  match roleFrom cfg claims with
  | .error e => (.error e, u)
  | .ok groupRole =>
    match u.bySubject (subjectKey cfg claims) with
    | none => newSsoAccount u cfg claims groupRole created
    | some user => (.ok (syncRole u user groupRole).1, (syncRole u user groupRole).2)

/-! ## What a sign-in does to the accounts -/

lemma Users.bySubject_some {u : Users} {subject : Text} {r : UserRow}
    (h : u.bySubject subject = some r) : r ∈ u.rows ∧ r.oidcSubject = some subject :=
  ⟨List.mem_of_find?_eq_some h, by simpa using List.find?_some h⟩

/-- An identity has one account at most. -/
lemma Users.bySubject_eq_some_iff {u : Users} {subject : Text} {r : UserRow} :
    u.bySubject subject = some r ↔ r ∈ u.rows ∧ r.oidcSubject = some subject := by
  refine ⟨Users.bySubject_some, ?_⟩
  rintro ⟨hr, hsubject⟩
  cases hfound : u.bySubject subject with
  | none => exact absurd (List.find?_eq_none.mp hfound r hr) (by simp [hsubject])
  | some r' =>
    obtain ⟨hr', hsubject'⟩ := Users.bySubject_some hfound
    rw [u.eq_of_oidcSubject_eq hr' hr hsubject' hsubject]

/-- The new account of an identity. -/
def ssoUser (cfg : OidcSettings) (claims : Claims) (username : Text) (groupRole : Option Role)
    (created : ℤ) : NewUser :=
  { username, passwordHash := Users.ssoOnlyPassword,
    isAdmin := decide (groupRole.getD cfg.defaultRole = .admin),
    role := groupRole.getD cfg.defaultRole, oidcSubject := some (subjectKey cfg claims),
    createdAt := created }

/-- The ways in which an identity reaches its account: a new row is written for it, or its row is
found and its role brought in line. -/
inductive Reaches (u : Users) (cfg : OidcSettings) (claims : Claims) (created : ℤ)
    (groupRole : Option Role) : UserRow → Users → Prop
  | new {username : Text} {u' : Users} (hnone : u.bySubject (subjectKey cfg claims) = none)
      (hname : usernameFrom cfg claims = .ok username)
      (hinsert : u.insert (ssoUser cfg claims username groupRole created)
        = (some (u.newRow (ssoUser cfg claims username groupRole created)), u'))
      (hrows : u'.rows = u.rows ++ [u.newRow (ssoUser cfg claims username groupRole created)])
      (hlast : u'.lastId = u.lastId + 1) :
      Reaches u cfg claims created groupRole
        (u.newRow (ssoUser cfg claims username groupRole created)) u'
  | found {r : UserRow} (hr : r ∈ u.rows) (hsubject : r.oidcSubject = some (subjectKey cfg claims)) :
      Reaches u cfg claims created groupRole (syncRole u r groupRole).1 (syncRole u r groupRole).2

lemma ssoAccount_ok {u u' : Users} {cfg : OidcSettings} {claims : Claims} {created : ℤ}
    {user : UserRow} (h : ssoAccount u cfg claims created = (.ok user, u')) :
    ∃ groupRole, roleFrom cfg claims = .ok groupRole ∧
      Reaches u cfg claims created groupRole user u' := by
  unfold ssoAccount at h
  cases hrole : roleFrom cfg claims with
  | error e =>
    rw [hrole] at h
    exact absurd (congrArg Prod.fst h) (by simp)
  | ok groupRole =>
    simp only [hrole] at h
    refine ⟨groupRole, rfl, ?_⟩
    cases hfound : u.bySubject (subjectKey cfg claims) with
    | some r =>
      simp only [hfound, Prod.mk.injEq, Except.ok.injEq] at h
      obtain ⟨rfl, rfl⟩ := h
      obtain ⟨hr, hsubject⟩ := Users.bySubject_some hfound
      exact .found hr hsubject
    | none =>
      simp only [hfound, newSsoAccount] at h
      cases hname : usernameFrom cfg claims with
      | error e =>
        rw [hname] at h
        exact absurd (congrArg Prod.fst h) (by simp)
      | ok username =>
        simp only [hname, Users.createSsoUser] at h
        rcases hi : u.insert (ssoUser cfg claims username groupRole created) with ⟨_ | r, u''⟩
        · rw [ssoUser] at hi
          rw [hi] at h
          exact absurd (congrArg Prod.fst h) (by simp)
        · obtain ⟨rfl, hrows, hlast⟩ := Users.insert_some hi
          have hinsert := hi
          rw [ssoUser] at hinsert
          rw [hinsert] at h
          simp only [Prod.mk.injEq, Except.ok.injEq] at h
          obtain ⟨rfl, rfl⟩ := h
          exact .new hfound hname hi hrows hlast

end Habeny.Auth
