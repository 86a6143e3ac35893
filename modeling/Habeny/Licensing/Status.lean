import Habeny.Auth.Role
import Habeny.Tenancy.Teams

/-!
# The licence of a server

A licence is a signed file bound to one server.  `statusInfo` says in which state the server
is: an expired licence keeps working for some days, and without a licence there is a trial
from the first account on; after that new work is refused (`require`).  What the installed file
decodes to, its signature checked, is given.
-/

namespace Habeny.Licensing

open Habeny.Lib Habeny.Auth Habeny.Tenancy

/-- A day that a licence names, as its text and as a day number. -/
structure Expiry where
  text : Text
  day : ℤ
  deriving DecidableEq

/-- A checked licence payload.  Its container limit, if it has one, is at least one. -/
structure Payload where
  customer : Text
  serverId : Text
  expires : Option Expiry
  maxContainers : Option ℕ
  limit_pos : ∀ limit ∈ maxContainers, 1 ≤ limit

/-- What the licensing state depends on.  The installed file decodes to a payload or to a
problem; the trial starts with the first account. -/
structure Server where
  enforced : Bool
  serverId : Text
  licenseFile : Option (Except Text Payload)
  trialStart : Option ℤ
  today : ℤ

inductive LicenseState where
  | off
  | active
  | expiring
  | grace
  | expired
  | trial
  | trialEnded
  | invalid
  deriving DecidableEq

structure Info where
  state : LicenseState
  allowsNewWork : Bool
  maxContainers : Option ℕ
  daysLeft : Option ℤ
  problem : Option Text
  message : Text
  deriving DecidableEq

def trialDays : ℤ := 30
def graceDays : ℤ := 14
def warnDays : ℤ := 30

/-! ## The texts -/

/-- A number of days. -/
def days (n : ℤ) : Text :=
  number n.toNat ++ " day".toList ++ if n = 1 then [] else ['s']

def offMessage : Text := "Licensing is off in this build".toList

def otherServer (license server : Text) : Text :=
  "The installed license is for server ".toList ++ license ++ ", not this one (".toList ++ server
    ++ ")".toList

def activeMessage (p : Payload) : Text :=
  "Licensed to ".toList ++ p.customer ++ match p.expires with
    | none => []
    | some e => " until ".toList ++ e.text

def graceMessage (e : Expiry) (left : ℤ) : Text :=
  "The license expired on ".toList ++ e.text ++ ". New work stops in ".toList ++ days left
    ++ "; renew it.".toList

def expiredMessage (e : Expiry) : Text :=
  "The license expired on ".toList ++ e.text
    ++ ". Viewing and managing existing containers still work; install a renewed license to deploy and run tests.".toList

def expiringMessage (e : Expiry) (left : ℤ) : Text :=
  "The license expires on ".toList ++ e.text ++ " (".toList ++ days left ++ " left)".toList

/-- What stands before a message when the installed file has a problem. -/
def problemPrefix (problem : Option Text) (otherwise : Text) : Text :=
  match problem with
  | some text => text ++ ". ".toList
  | none => otherwise

def trialMessage (problem : Option Text) (left : ℤ) : Text :=
  problemPrefix problem [] ++ "Trial: ".toList ++ days left
    ++ " left. Install a license to keep deploying.".toList

def trialEndedMessage (problem : Option Text) : Text :=
  problemPrefix problem "The trial has ended. ".toList
    ++ "Viewing and managing existing containers still work; install a license to deploy and run tests.".toList

/-! ## The state -/

/-- The licence that counts: an installed one that is this server's; otherwise the problem
with the installed file, if there is one. -/
def installed (s : Server) : Option Payload × Option Text :=
  match s.licenseFile with
  | none => (none, none)
  | some (.error problem) => (none, some problem)
  | some (.ok p) =>
    if p.serverId = s.serverId then (some p, none)
    else (none, some (otherServer p.serverId s.serverId))

/-- The state with a licence that counts. -/
def licensedInfo (p : Payload) (today : ℤ) : Info :=
  let info : Info :=
    { state := .active, allowsNewWork := true, maxContainers := p.maxContainers, daysLeft := none,
      problem := none, message := activeMessage p }
  match p.expires with
  | none => info
  | some e =>
    let left := e.day - today
    let info := { info with daysLeft := some left }
    if left < 0 then
      if 0 ≤ graceDays + left then
        { info with state := .grace, message := graceMessage e (graceDays + left) }
      else { info with state := .expired, allowsNewWork := false, message := expiredMessage e }
    else if left ≤ warnDays then
      { info with state := .expiring, message := expiringMessage e left }
    else info

/-- The state without one. -/
def trialInfo (problem : Option Text) (start today : ℤ) : Info :=
  let left := start + trialDays - today
  if 0 ≤ left then
    { state := if problem.isSome then .invalid else .trial, allowsNewWork := true,
      maxContainers := none, daysLeft := some left, problem := problem,
      message := trialMessage problem left }
  else
    { state := if problem.isSome then .invalid else .trialEnded, allowsNewWork := false,
      maxContainers := none, daysLeft := some left, problem := problem,
      message := trialEndedMessage problem }

/-- The licensing state, for the UI, the CLI and the checks. -/
def statusInfo (s : Server) : Info :=
  if !s.enforced then
    { state := .off, allowsNewWork := true, maxContainers := none, daysLeft := none,
      problem := none, message := offMessage }
  else
    match installed s with
    | (some p, _) => licensedInfo p s.today
    | (none, problem) => trialInfo problem (s.trialStart.getD s.today) s.today

def limitExceeded (limit existing adding : ℕ) : Text :=
  "This server's license allows ".toList ++ number limit ++ " containers; there are ".toList
    ++ number existing ++ " and you asked for ".toList ++ number adding ++ " more.".toList

/-- Refuse new work without a valid licence; `adding` and `existing` count containers. -/
def require (s : Server) (adding existing : ℕ) : Except Refusal Unit :=
  if !s.enforced then .ok ()
  else
    let info := statusInfo s
    if !info.allowsNewWork then .error (.http 402 info.message)
    else
      match info.maxContainers with
      | none => .ok ()
      | some limit =>
        if 0 < adding ∧ limit < existing + adding then
          .error (.http 402 (limitExceeded limit existing adding))
        else .ok ()

/-! ## When new work is allowed -/

lemma licensedInfo_allowsNewWork_iff (p : Payload) (today : ℤ) :
    (licensedInfo p today).allowsNewWork = true ↔ ∀ e ∈ p.expires, today ≤ e.day + graceDays := by
  unfold licensedInfo
  cases p.expires with
  | none => simp
  | some e =>
    have hdays : graceDays = 14 := rfl
    simp only [Option.mem_some_iff, forall_eq']
    by_cases hleft : e.day - today < 0
    · by_cases hgrace : 0 ≤ graceDays + (e.day - today)
      · simp only [if_pos hleft, if_pos hgrace, true_iff]
        omega
      · simp only [if_pos hleft, if_neg hgrace, Bool.false_eq_true, false_iff]
        omega
    · rw [if_neg hleft]
      split <;> simp only [true_iff] <;> omega

lemma trialInfo_allowsNewWork_iff (problem : Option Text) (start today : ℤ) :
    (trialInfo problem start today).allowsNewWork = true ↔ today ≤ start + trialDays := by
  unfold trialInfo
  by_cases hleft : 0 ≤ start + trialDays - today
  · simp only [if_pos hleft, true_iff]
    omega
  · simp only [if_neg hleft, Bool.false_eq_true, false_iff]
    omega

/-- New work is allowed while licensing is off, with a licence that has not been expired for
more than the days of grace, and without one until the trial ends. -/
lemma statusInfo_allowsNewWork_iff (s : Server) :
    (statusInfo s).allowsNewWork = true ↔ s.enforced = false ∨
      match (installed s).1 with
      | some p => ∀ e ∈ p.expires, s.today ≤ e.day + graceDays
      | none => s.today ≤ s.trialStart.getD s.today + trialDays := by
  unfold statusInfo
  cases he : s.enforced with
  | false => simp
  | true =>
    rcases hi : installed s with ⟨- | p, problem⟩
    · simpa using trialInfo_allowsNewWork_iff problem _ s.today
    · simpa using licensedInfo_allowsNewWork_iff p s.today

/-- Where new work is not allowed, every request for it is refused. -/
lemma require_of_not_allowed {s : Server} (h : (statusInfo s).allowsNewWork = false)
    (adding existing : ℕ) :
    require s adding existing = .error (.http 402 (statusInfo s).message) := by
  cases he : s.enforced with
  | false => simp [statusInfo, he] at h
  | true => simp [require, he, h]

/-- An accepted request for more containers keeps within the licence's limit. -/
lemma require_ok {s : Server} {adding existing limit : ℕ}
    (hlimit : (statusInfo s).maxContainers = some limit) (hadding : 0 < adding)
    (h : require s adding existing = .ok ()) : existing + adding ≤ limit := by
  cases he : s.enforced with
  | false => simp [statusInfo, he] at hlimit
  | true =>
    cases hallowed : (statusInfo s).allowsNewWork with
    | false => simp [require_of_not_allowed hallowed] at h
    | true =>
      by_contra hlt
      simp [require, he, hallowed, hlimit, hadding, Nat.lt_of_not_le hlt] at h

end Habeny.Licensing
