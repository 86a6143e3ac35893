import Habeny.Hosts.Relay
import Habeny.Tenancy.Teams

/-!
# API tokens and the role cap

A token acts with the lower of its own role and its account's.  The cap is only as good as the
checks: each of them picks a field of the user's record, and the token's record has the lower
role but the account's own `isAdmin` flag.  This file lists the decisions that are made on the
record of a request and compares, for each of them, a token with a browser session of the
account lowered to the token's role (`token_decides_as_lowered_iff`).
-/

namespace Habeny.Auth

open Habeny.Lib Habeny.Hosts Habeny.Tenancy

/-! ## Detection settings -/

/-- The detection settings that a manager profile is given; `none` is a field that is not
given. -/
structure DetectionFields where
  url : Option Text
  username : Option Text
  secret : Option Text
  fingerprint : Option Text
  deriving DecidableEq

/-- Whether some detection setting is given. -/
def DetectionFields.given (data : DetectionFields) : Bool :=
  data.url.isSome || data.username.isSome || data.secret.isSome || data.fingerprint.isSome

/-- The refusal of detection settings. -/
def detectionForbidden : Refusal :=
  .http 403 "Only admins can set a profile's detection API connection".toList

/-- Detection settings are for administrators, and their URL is well formed
(`_check_detection_fields`).  `normalizeUrl` is the normal form of a URL, or what is wrong with
it. -/
def checkDetectionFields (normalizeUrl : Text → Except Text Text) (data : DetectionFields)
    (user : Option User) : Except Refusal DetectionFields :=
  if data.given = false then .ok data
  else if user.any (fun u => !u.isAdmin) then .error detectionForbidden
  else
    match data.url with
    | none => .ok data
    | some [] => .ok data
    | some url =>
      match normalizeUrl url with
      | .ok url' => .ok { data with url := some url' }
      | .error detail => .error (.http 400 detail)

/-- What stands before a manager profile is saved (`POST /managers`, `PUT /managers/{id}`): the
access check of the router, then the check of its detection settings. -/
def checkProfile (normalizeUrl : Text → Except Text Text) (shuttingDown : Bool) (conn : Conn)
    (data : DetectionFields) (user : Option User) : Except Refusal DetectionFields := do
  let u ← requireAccess shuttingDown conn user
  checkDetectionFields normalizeUrl data (some u)

/-- Without a given setting there is nothing to check. -/
lemma checkDetectionFields_of_not_given {normalizeUrl : Text → Except Text Text}
    {data : DetectionFields} (h : data.given = false) (user : Option User) :
    checkDetectionFields normalizeUrl data user = .ok data := by
  simp [checkDetectionFields, h]

/-- The check reads nothing of the record but the flag. -/
lemma checkDetectionFields_congr {normalizeUrl : Text → Except Text Text}
    {data : DetectionFields} {u v : User} (h : u.isAdmin = v.isAdmin) :
    checkDetectionFields normalizeUrl data (some u)
      = checkDetectionFields normalizeUrl data (some v) := by
  simp only [checkDetectionFields, Option.any_some, h]

/-- Given settings are refused exactly to the records without the flag. -/
lemma checkDetectionFields_forbidden_iff {normalizeUrl : Text → Except Text Text}
    {data : DetectionFields} {u : User} (h : data.given = true) :
    checkDetectionFields normalizeUrl data (some u) = .error detectionForbidden ↔
      u.isAdmin = false := by
  unfold checkDetectionFields
  rw [if_neg (by simp [h])]
  cases hu : u.isAdmin with
  | false => simp [hu]
  | true =>
    refine ⟨fun heq => ?_, fun h => absurd h (by decide)⟩
    rw [Option.any_some, hu, if_neg (by decide)] at heq
    rcases hurl : data.url with _ | _ | ⟨c, s⟩ <;> simp only [hurl] at heq
    · exact absurd heq (by simp)
    · exact absurd heq (by simp)
    · cases hn : normalizeUrl (c :: s) with
      | ok url => simp [hn] at heq
      | error detail =>
        -- a malformed URL is another error
        rw [hn, Except.error.injEq, detectionForbidden, Refusal.http.injEq] at heq
        exact absurd heq.1 (by decide)

/-- Given settings are decided alike exactly for records with the same flag. -/
lemma checkDetectionFields_eq_iff {normalizeUrl : Text → Except Text Text}
    {data : DetectionFields} {u v : User} (h : data.given = true) :
    checkDetectionFields normalizeUrl data (some u)
        = checkDetectionFields normalizeUrl data (some v) ↔
      u.isAdmin = v.isAdmin := by
  refine ⟨fun heq => ?_, checkDetectionFields_congr⟩
  have hiff : checkDetectionFields normalizeUrl data (some u) = .error detectionForbidden ↔
      u.isAdmin = false := checkDetectionFields_forbidden_iff h
  rw [heq, checkDetectionFields_forbidden_iff h] at hiff
  cases hu : u.isAdmin <;> cases hv : v.isAdmin <;> simp [hu, hv] at hiff ⊢

/-! ## Decisions -/

/-- The decisions that are made on the user's record of a request, with what each is asked. -/
inductive Decision where
  /-- signed in, from this origin -/
  | requireUser (conn : Conn)
  | requireAccess (shuttingDown : Bool) (conn : Conn)
  | requireAdmin (conn : Conn)
  | hasRole (minimum : Role)
  /-- whether a host may be used -/
  | usableBy (host : Host)
  | isUnrestricted
  | visible (owners : Owners) (names : List Text)
  | sameTeam (team : Option ℕ)
  | canSee (owners : Owners) (name : Text)
  | checkQuota (limits : Limits) (owners : Owners) (adding : ℕ) (existing : List Text)
  | checkProfile (normalizeUrl : Text → Except Text Text) (shuttingDown : Bool) (conn : Conn)
      (data : DetectionFields)

/-- What a decision says: passed or refused, yes or no, or the names that are left. -/
inductive Verdict where
  | check (r : Except Refusal Unit)
  | answer (b : Bool)
  | names (ns : List Text)
  | fields (r : Except Refusal DetectionFields)

/-- Make a decision on a record. -/
def Decision.verdict (u : User) : Decision → Verdict
  | .requireUser conn => .check ((Auth.requireUser conn (some u)).map fun _ => ())
  | .requireAccess down conn => .check ((Auth.requireAccess down conn (some u)).map fun _ => ())
  | .requireAdmin conn => .check ((Auth.requireAdmin conn (some u)).map fun _ => ())
  | .hasRole minimum => .answer (Auth.hasRole u minimum)
  | .usableBy host => .answer (Hosts.usableBy host (some u))
  | .isUnrestricted => .answer (Tenancy.isUnrestricted (some u))
  | .visible owners names => .names (Tenancy.visible owners (some u) names)
  | .sameTeam team => .answer (Tenancy.sameTeam (some u) team)
  | .canSee owners name => .answer (Tenancy.canSee owners (some u) name)
  | .checkQuota limits owners adding existing =>
    .check (Tenancy.checkQuota limits owners (some u) adding existing)
  | .checkProfile normalizeUrl down conn data =>
    .fields (Auth.checkProfile normalizeUrl down conn data (some u))

/-- Whether a decision comes to given detection settings: a profile is saved with some, by a
user whom the access check lets through. -/
def Decision.reachesDetectionSettings (u : User) : Decision → Bool
  | .checkProfile _ down conn data =>
    data.given && (Auth.requireAccess down conn (some u)).isOk
  | _ => false

/-! ## The account lowered to a role -/

/-- The same account, with the lower of a role and its own. -/
def Account.lowered (a : Account) (r : Role) : Account where
  id := a.id
  username := a.username
  role := min r a.role
  isAdmin := decide (min r a.role = .admin)
  teamId := a.teamId
  isAdmin_iff := by simp

/-- Two records that agree in everything the role checks and the tenancy checks read. -/
structure SameRole (u v : User) : Prop where
  id : u.id = v.id
  role : u.role = v.role
  teamId : u.teamId = v.teamId

lemma sameRole_token_lowered (a : Account) (r : Role) :
    SameRole (tokenUser a r) (sessionUser (a.lowered r)) := ⟨rfl, rfl, rfl⟩

lemma requireUser_map_congr (conn : Conn) (u v : User) :
    (requireUser conn (some u)).map (fun _ => ())
      = (requireUser conn (some v)).map fun _ => () := by
  rcases conn with ⟨m, p⟩ | ⟨p, _ | _⟩ <;> rfl

section SameRole

variable {u v : User} (h : SameRole u v)
include h

lemma SameRole.hasRole (minimum : Role) : hasRole u minimum = hasRole v minimum := by
  simp only [Auth.hasRole, h.role]

lemma SameRole.requireAccess (down : Bool) (conn : Conn) :
    (requireAccess down conn (some u)).map (fun _ => ())
      = (requireAccess down conn (some v)).map fun _ => () := by
  rcases conn with ⟨m, p⟩ | ⟨p, _ | _⟩ <;>
    simp only [Auth.requireAccess, Auth.requireUser, bind, Except.bind, h.hasRole] <;>
    split_ifs <;> rfl

lemma SameRole.requireAdmin (conn : Conn) :
    (requireAdmin conn (some u)).map (fun _ => ())
      = (requireAdmin conn (some v)).map fun _ => () := by
  rcases conn with ⟨m, p⟩ | ⟨p, _ | _⟩ <;>
    simp only [Auth.requireAdmin, Auth.requireUser, bind, Except.bind, h.hasRole] <;>
    split_ifs <;> rfl

lemma SameRole.isUnrestricted : isUnrestricted (some u) = isUnrestricted (some v) := by
  simp only [Tenancy.isUnrestricted, h.role]

lemma SameRole.teamOf : teamOf (some u) = teamOf (some v) := by
  simp only [Tenancy.teamOf, Option.bind_some, h.teamId]

lemma SameRole.visible (owners : Owners) (names : List Text) :
    visible owners (some u) names = visible owners (some v) names := by
  simp only [Tenancy.visible, h.isUnrestricted, h.teamOf]

/-- The access check before a profile is saved refuses both alike, or lets both through to
the check of its settings. -/
lemma SameRole.checkProfile_cases (normalizeUrl : Text → Except Text Text) (down : Bool)
    (conn : Conn) (data : DetectionFields) :
    ((Auth.requireAccess down conn (some u)).isOk = false ∧
        checkProfile normalizeUrl down conn data (some u)
          = checkProfile normalizeUrl down conn data (some v)) ∨
      ((Auth.requireAccess down conn (some u)).isOk = true ∧
        checkProfile normalizeUrl down conn data (some u)
          = checkDetectionFields normalizeUrl data (some u) ∧
        checkProfile normalizeUrl down conn data (some v)
          = checkDetectionFields normalizeUrl data (some v)) := by
  have hu {w : User} {x : User} (hw : Auth.requireAccess down conn (some x) = .ok w) : w = x :=
    (Option.some.inj (requireUser_ok_iff.mp (requireAccess_ok_iff.mp hw).1).1).symm
  have heq := h.requireAccess down conn
  unfold checkProfile
  cases hau : Auth.requireAccess down conn (some u) with
  | error r =>
    cases hav : Auth.requireAccess down conn (some v) with
    | error r' =>
      simp only [hau, hav, Except.map, Except.error.injEq] at heq
      exact Or.inl ⟨rfl, by rw [heq]⟩
    | ok w => simp [hau, hav, Except.map] at heq
  | ok w =>
    cases hav : Auth.requireAccess down conn (some v) with
    | error r' => simp [hau, hav, Except.map] at heq
    | ok w' =>
      rw [hu hau, hu hav]
      exact Or.inr ⟨rfl, rfl, rfl⟩

/-- Records that agree so get the same verdict, unless it comes to given detection
settings. -/
lemma SameRole.verdict {d : Decision} (hd : d.reachesDetectionSettings u = false) :
    d.verdict u = d.verdict v := by
  cases d with
  | requireUser conn => exact congrArg Verdict.check (requireUser_map_congr conn u v)
  | requireAccess down conn => exact congrArg Verdict.check (h.requireAccess down conn)
  | requireAdmin conn => exact congrArg Verdict.check (h.requireAdmin conn)
  | hasRole minimum => exact congrArg Verdict.answer (h.hasRole minimum)
  | usableBy host => simp only [Decision.verdict, Hosts.usableBy, h.role, h.teamId]
  | isUnrestricted => exact congrArg Verdict.answer h.isUnrestricted
  | visible owners names => exact congrArg Verdict.names (h.visible owners names)
  | sameTeam team => simp only [Decision.verdict, Tenancy.sameTeam, h.isUnrestricted, h.teamOf]
  | canSee owners name => simp only [Decision.verdict, Tenancy.canSee, h.visible]
  | checkQuota limits owners adding existing =>
    exact congrArg Verdict.check (checkQuota_congr h.id adding existing)
  | checkProfile normalizeUrl down conn data =>
    refine congrArg Verdict.fields ?_
    rcases h.checkProfile_cases normalizeUrl down conn data with ⟨-, heq⟩ | ⟨hok, hu, hv⟩
    · exact heq
    · rw [Decision.reachesDetectionSettings, hok, Bool.and_true] at hd
      rw [hu, hv, checkDetectionFields_of_not_given hd, checkDetectionFields_of_not_given hd]

/-- Where it comes to given detection settings, records that agree so get the same verdict
exactly when they have the same flag. -/
lemma SameRole.verdict_eq_iff {d : Decision} (hd : d.reachesDetectionSettings u = true) :
    d.verdict u = d.verdict v ↔ u.isAdmin = v.isAdmin := by
  cases d with
  | checkProfile normalizeUrl down conn data =>
    obtain ⟨hgiven, hok⟩ := Bool.and_eq_true_iff.mp hd
    rcases h.checkProfile_cases normalizeUrl down conn data with ⟨hno, -⟩ | ⟨-, hu, hv⟩
    · exact absurd (hno.symm.trans hok) Bool.false_ne_true
    · rw [Decision.verdict, Decision.verdict, Verdict.fields.injEq, hu, hv]
      exact checkDetectionFields_eq_iff hgiven
  | requireUser | requireAccess | requireAdmin | hasRole | usableBy | isUnrestricted | visible
  | sameTeam | canSee | checkQuota => exact absurd hd Bool.false_ne_true

end SameRole

/-! ## The cap -/

/-- The token keeps the flag of its account, which the lowered account loses when an
administrator's token has a lower role. -/
lemma token_isAdmin_ne_lowered_iff (a : Account) (r : Role) :
    (tokenUser a r).isAdmin ≠ (sessionUser (a.lowered r)).isAdmin ↔
      a.role = .admin ∧ r ≠ .admin := by
  have hlow : (sessionUser (a.lowered r)).isAdmin = decide (min r a.role = .admin) := rfl
  rw [tokenUser_isAdmin, hlow]
  by_cases ha : a.role = .admin
  · rw [a.isAdmin_iff.mpr ha, ha, min_eq_left r.le_admin]
    by_cases hr : r = .admin <;> simp [hr]
  · have hflag : a.isAdmin = false := by
      rw [← Bool.not_eq_true, a.isAdmin_iff]
      exact ha
    have hmin : min r a.role ≠ .admin := fun h =>
      ha (Role.admin_le_iff.mp (h ▸ min_le_right r a.role))
    simp [hflag, hmin, ha]

/-- **The role cap of API tokens.**  A decision on a token's record is the one on a session of
the account lowered to the token's role, except exactly where the token of an administrator's
account, with a lower role, comes to given detection settings. -/
theorem token_decides_as_lowered_iff (a : Account) (r : Role) (d : Decision) :
    d.verdict (tokenUser a r) = d.verdict (sessionUser (a.lowered r)) ↔
      ¬(d.reachesDetectionSettings (tokenUser a r) = true ∧ a.role = .admin ∧ r ≠ .admin) := by
  rw [← token_isAdmin_ne_lowered_iff]
  have hsame := sameRole_token_lowered a r
  cases hd : d.reachesDetectionSettings (tokenUser a r) with
  | false => simp [hsame.verdict hd]
  | true =>
    rw [hsame.verdict_eq_iff hd]
    simp

/-- A token never gets past the session check, whatever its role. -/
lemma requireSession_token (conn : Conn) (a : Account) (r : Role) (v : User) :
    requireSession conn (some (tokenUser a r)) ≠ .ok v := by
  intro h
  unfold requireSession at h
  rcases conn with ⟨m, p⟩ | ⟨p, _ | _⟩ <;>
    simp [requireUser, bind, Except.bind, tokenUser] at h

/-! ## A token that does what only an administrator may -/

/-- An administrator's account. -/
def rootAccount : Account :=
  { id := 1, username := "root".toList, role := .admin, isAdmin := true, teamId := none,
    isAdmin_iff := by simp }

/-- The decision on a new profile that is given a detection user. -/
def detectionUser : Decision :=
  .checkProfile .ok false (.http .post "/managers".toList)
    { url := none, username := some "wazuh".toList, secret := none, fingerprint := none }

/-- An operator's token of an administrator sets a profile's detection connection, which an
operator may not. -/
theorem token_exceeds_role_cap :
    ¬∀ (a : Account) (r : Role) (d : Decision),
      d.verdict (tokenUser a r) = d.verdict (sessionUser (a.lowered r)) := by
  intro h
  have hreach : detectionUser.reachesDetectionSettings (tokenUser rootAccount .operator)
      = true := by decide
  have hflag := ((sameRole_token_lowered rootAccount .operator).verdict_eq_iff hreach).mp
    (h rootAccount .operator detectionUser)
  exact absurd hflag (by decide)

end Habeny.Auth
