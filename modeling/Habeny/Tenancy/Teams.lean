import Habeny.Auth.Role
import Mathlib.Data.List.Dedup
import Mathlib.Logic.Function.Basic

/-!
# Teams, owners and container limits

Every container Habeny creates has a recorded team and user.  Administrators see every
container, anyone else those of their own team.  Before containers are created the limits of
the user and of their team are checked against the containers that exist (`checkQuota`), and
the new names are recorded as theirs (`record`).
-/

namespace Habeny.Tenancy

open Habeny.Lib Habeny.Auth

/-- The recorded owner of a container. -/
structure Owner where
  teamId : Option ℕ
  ownerId : Option ℕ
  deriving DecidableEq

/-- The table of owners, keyed by the container's name. -/
abbrev Owners := Text → Option Owner

/-- The team a container is recorded for. -/
def Owners.teamOf (owners : Owners) (name : Text) : Option ℕ := (owners name).bind Owner.teamId

/-- The user a container is recorded for. -/
def Owners.userOf (owners : Owners) (name : Text) : Option ℕ := (owners name).bind Owner.ownerId

/-- What the database says about an account's limit (`_load_user`). -/
structure UserLimit where
  teamId : Option ℕ
  maxContainers : Option ℕ
  deriving DecidableEq

/-- A team and its limit. -/
structure Team where
  name : Text
  maxContainers : Option ℕ
  deriving DecidableEq

/-- The accounts and the teams, by their ids. -/
structure Limits where
  user : ℕ → Option UserLimit
  team : ℕ → Option Team

/-! ## Visibility -/

def isUnrestricted (user : Option User) : Bool :=
  match user with
  | none => true
  | some u => decide (u.role = .admin)

/-- The team of a request's user. -/
def teamOf (user : Option User) : Option ℕ := user.bind User.teamId

/-- The containers among some names that a user may see, in the same order. -/
def visible (owners : Owners) (user : Option User) (names : List Text) : List Text :=
  if isUnrestricted user then names
  else names.filter fun n => decide (owners.teamOf n = teamOf user)

/-- For records stamped with a team: administrators see all, others their team's. -/
def sameTeam (user : Option User) (team : Option ℕ) : Bool :=
  isUnrestricted user || decide (teamOf user = team)

def canSee (owners : Owners) (user : Option User) (name : Text) : Bool :=
  !(visible owners user [name]).isEmpty

/-! ## Ownership -/

/-- Record some new containers as a user's and their team's. -/
def record (owners : Owners) (names : List Text) (user : Option User) : Owners := fun n =>
  if n ∈ names then some ⟨teamOf user, user.map User.id⟩ else owners n

/-- Forget who owns some containers. -/
def forget (owners : Owners) (names : List Text) : Owners := fun n =>
  if n ∈ names then none else owners n

/-- Move containers to a team, or to none. -/
def assign (owners : Owners) (names : List Text) (team : Option ℕ) : Owners := fun n =>
  if n ∈ names then some ⟨team, owners.userOf n⟩ else owners n

@[simp] lemma record_of_mem {owners : Owners} {names : List Text} {user : Option User} {n : Text}
    (h : n ∈ names) : record owners names user n = some ⟨teamOf user, user.map User.id⟩ := by
  simp [record, h]

@[simp] lemma record_of_notMem {owners : Owners} {names : List Text} {user : Option User}
    {n : Text} (h : n ∉ names) : record owners names user n = owners n := by
  simp [record, h]

lemma userOf_record_of_mem {owners : Owners} {names : List Text} {user : Option User} {n : Text}
    (h : n ∈ names) : (record owners names user).userOf n = user.map User.id := by
  rw [Owners.userOf, record_of_mem h]
  rfl

lemma Owners.userOf_congr {owners owners' : Owners} {n : Text} (h : owners' n = owners n) :
    owners'.userOf n = owners.userOf n := by
  rw [Owners.userOf, h, Owners.userOf]

/-! ## Limits -/

/-- How many of some containers are a user's. -/
def ownedBy (owners : Owners) (user : ℕ) (names : List Text) : ℕ :=
  names.dedup.countP fun n => decide (owners.userOf n = some user)

/-- How many of some containers are a team's. -/
def ofTeam (owners : Owners) (team : ℕ) (names : List Text) : ℕ :=
  names.dedup.countP fun n => decide (owners.teamOf n = some team)

/-- A number, as it stands in an error text. -/
def number (n : ℕ) : Text := Nat.toDigits 10 n

lemma number_injective : Function.Injective number :=
  Function.LeftInverse.injective (g := fun t => Nat.ofDigitChars 10 t 0) fun _ =>
    Nat.ofDigitChars_ten_toDigits

def userQuotaExceeded (limit mine adding : ℕ) : Refusal :=
  .http 403 ("Your limit is ".toList ++ number limit ++ " containers; you have ".toList
    ++ number mine ++ " and asked for ".toList ++ number adding
    ++ " more. Delete some, or ask an admin to raise the limit.".toList)

def teamQuotaExceeded (team : Text) (limit used adding : ℕ) : Refusal :=
  .http 403 ("Team ".toList ++ team ++ " is limited to ".toList ++ number limit
    ++ " containers; it has ".toList ++ number used ++ " and you asked for ".toList
    ++ number adding ++ " more.".toList)

/-- Refuse when a user's own limit would be passed. -/
def checkUserQuota (limits : Limits) (owners : Owners) (id adding : ℕ) (existing : List Text) :
    Except Refusal Unit :=
  match (limits.user id).bind UserLimit.maxContainers with
  | none => .ok ()
  | some limit =>
    if limit < ownedBy owners id existing + adding then
      .error (userQuotaExceeded limit (ownedBy owners id existing) adding)
    else .ok ()

/-- Refuse when the limit of a user's team would be passed. -/
def checkTeamQuota (limits : Limits) (owners : Owners) (id adding : ℕ) (existing : List Text) :
    Except Refusal Unit :=
  match (limits.user id).bind UserLimit.teamId with
  | none => .ok ()
  | some teamId =>
    match limits.team teamId with
    | none => .ok ()
    | some team =>
      match team.maxContainers with
      | none => .ok ()
      | some limit =>
        if limit < ofTeam owners teamId existing + adding then
          .error (teamQuotaExceeded team.name limit (ofTeam owners teamId existing) adding)
        else .ok ()

/-- Refuse `adding` more containers when that would pass the user's or their team's limit;
`existing` are the containers that exist now. -/
def checkQuota (limits : Limits) (owners : Owners) (user : Option User) (adding : ℕ)
    (existing : List Text) : Except Refusal Unit :=
  match user with
  | none => .ok ()
  | some u =>
    if adding = 0 then .ok ()
    else do
      checkUserQuota limits owners u.id adding existing
      checkTeamQuota limits owners u.id adding existing

/-- The check reads nothing of the request's user but the id. -/
lemma checkQuota_congr {limits : Limits} {owners : Owners} {u v : User} (h : u.id = v.id)
    (adding : ℕ) (existing : List Text) :
    checkQuota limits owners (some u) adding existing
      = checkQuota limits owners (some v) adding existing := by
  simp only [checkQuota, h]

lemma checkUserQuota_ok {limits : Limits} {owners : Owners} {id adding limit : ℕ}
    {existing : List Text} (hl : (limits.user id).bind UserLimit.maxContainers = some limit)
    (h : checkUserQuota limits owners id adding existing = .ok ()) :
    ownedBy owners id existing + adding ≤ limit := by
  rw [checkUserQuota, hl] at h
  by_contra hlt
  simp [Nat.lt_of_not_le hlt] at h

lemma checkTeamQuota_ok {limits : Limits} {owners : Owners} {id adding teamId limit : ℕ}
    {existing : List Text} (hu : (limits.user id).bind UserLimit.teamId = some teamId)
    (ht : (limits.team teamId).bind Team.maxContainers = some limit)
    (h : checkTeamQuota limits owners id adding existing = .ok ()) :
    ofTeam owners teamId existing + adding ≤ limit := by
  obtain ⟨team, hteam, hlimit⟩ := Option.bind_eq_some_iff.mp ht
  rw [checkTeamQuota, hu] at h
  simp only [hteam, hlimit] at h
  by_contra hlt
  simp [Nat.lt_of_not_le hlt] at h

/-- An accepted request for more containers passed both limits. -/
lemma checkQuota_ok {limits : Limits} {owners : Owners} {u : User} {adding : ℕ}
    {existing : List Text} (hpos : adding ≠ 0)
    (h : checkQuota limits owners (some u) adding existing = .ok ()) :
    checkUserQuota limits owners u.id adding existing = .ok () ∧
      checkTeamQuota limits owners u.id adding existing = .ok () := by
  simp only [checkQuota, if_neg hpos, bind, Except.bind] at h
  cases hu : checkUserQuota limits owners u.id adding existing with
  | error r => simp [hu] at h
  | ok _ =>
    simp only [hu] at h
    exact ⟨rfl, h⟩

end Habeny.Tenancy
