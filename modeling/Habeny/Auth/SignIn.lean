import Habeny.Auth.Users
import Habeny.Lib.Transition
import Habeny.Lib.Window

/-!
# Signing in

A sign-in asks for a password and, for an account with a second factor, for a code.  Between
the two it lives on as a challenge in the server's memory.  Failed attempts are counted for each
client address, also those of the first setup, and the count is cleared when a sign-in is
completed.  Besides these three endpoints there are the ones that write a password or end
sessions.

Every endpoint here runs to its end before the next one starts: they are coroutines without a
point of suspension, in one process.  An attempt has two times, since checking a password takes
a while: the one at which it is let through and the one at which it is done.
-/

namespace Habeny.Auth

open Habeny.Lib

/-- What signing in takes from elsewhere: the check and the hash of passwords (with a salt), the
rules for new ones, and the limit on failures, with its window in seconds. -/
structure SignInEnv extends FactorEnv where
  verifyPassword : Text → Text → Bool
  hashPassword : Text → Text → Text
  passwordProblems : Text → Text → List Text
  maxFailures : ℕ
  window : ℤ

/-- The monotonic clock counts in microseconds. -/
def second : ℤ := 1000000

def SignInEnv.width (env : SignInEnv) : ℤ := env.window * second

/-! ## Failures by client -/

/-- The times of failed attempts by client (`LoginRateLimiter`). -/
abbrev Failures := Text → List ℤ

namespace Failures

/-- The failures of the last window. -/
def recent (env : SignInEnv) (f : Failures) (client : Text) (now : ℤ) : List ℤ :=
  prune (now - env.width) (f client)

/-- Seconds until another attempt is allowed, 0 if it is allowed now; nothing when the limit is
zero, where looking for the first failure raises. -/
def retryAfter (env : SignInEnv) (f : Failures) (client : Text) (now : ℤ) : Option ℤ :=
  if (f.recent env client now).length < env.maxFailures then some 0
  else
    match f.recent env client now with
    | [] => none
    | first :: _ => some (max 1 ((first + env.width - now) / second))

/-- What looking at the recent failures leaves. -/
def pruned (env : SignInEnv) (f : Failures) (client : Text) (now : ℤ) : Failures :=
  Function.update f client (f.recent env client now)

def recordFailure (env : SignInEnv) (f : Failures) (client : Text) (now : ℤ) : Failures :=
  Function.update f client (f.recent env client now ++ [now])

def reset (f : Failures) (client : Text) : Failures := Function.update f client []

end Failures

/-! ## Challenges -/

def challengeTtl : ℤ := 5 * 60 * second
def challengeMaxAttempts : ℕ := 5

/-- A sign-in whose password was accepted.  The password is kept here for the statements only;
the server does not have it. -/
structure Challenge where
  token : Text
  userId : ℕ
  expires : ℤ
  attempts : ℕ
  password : Text
  deriving DecidableEq

/-- The open challenges (`ChallengeStore`). -/
abbrev Challenges := List Challenge

namespace Challenges

def pop (cs : Challenges) (token : Text) : Challenges := cs.filter fun c => decide (c.token ≠ token)

def create (cs : Challenges) (token : Text) (userId : ℕ) (password : Text) (now : ℤ) :
    Challenges :=
  pop (cs.filter fun c => decide (now < c.expires)) token ++
    [{ token, userId, expires := now + challengeTtl, attempts := 0, password }]

def find (cs : Challenges) (token : Text) : Option Challenge :=
  cs.find? fun c => decide (c.token = token)

/-- The challenge of a token, if it has not expired, and what is left (`user_for`). -/
def userFor (cs : Challenges) (token : Text) (now : ℤ) : Option Challenge × Challenges :=
  match cs.find token with
  | none => (none, cs.pop token)
  | some c => if c.expires ≤ now then (none, cs.pop token) else (some c, cs)

/-- Count a wrong code; the challenge is dropped after too many. -/
def failed (cs : Challenges) (token : Text) : Challenges :=
  match cs.find token with
  | none => cs
  | some c =>
    if challengeMaxAttempts ≤ c.attempts + 1 then cs.pop token
    else cs.pop token ++ [{ c with attempts := c.attempts + 1 }]

lemma pop_subset (cs : Challenges) (token : Text) : cs.pop token ⊆ cs := List.filter_subset_self cs

lemma userFor_subset (cs : Challenges) (token : Text) (now : ℤ) : (cs.userFor token now).2 ⊆ cs := by
  unfold userFor
  rcases cs.find token with _ | c
  · exact cs.pop_subset token
  · simp only
    split_ifs with hexpired
    · exact cs.pop_subset token
    · exact List.Subset.refl cs

end Challenges

/-! ## The server -/

structure Session where
  tokenHash : Text
  userId : ℕ
  deriving DecidableEq

/-- A session that a sign-in created, and the password it was obtained with. -/
structure SignedIn where
  userId : ℕ
  password : Text
  deriving DecidableEq

/-- The server's state, and two records of its history: the times at which a password, a code or
a setup token was found wrong, by client and oldest first, and the sessions that sign-ins
created, newest first. -/
structure SignInState where
  users : Users
  setupToken : Option Text
  failures : Failures
  challenges : Challenges
  sessions : List Session
  now : ℤ
  wrong : Text → List ℤ
  signIns : List SignedIn

/-- The address of an attempt, and its times. -/
structure Attempt where
  client : Text
  start : ℤ
  finish : ℤ
  start_le : start ≤ finish

inductive Reply where
  | signedIn (userId : ℕ)
  | mfaRequired (mfaToken : Text)
  | done
  deriving DecidableEq

def internalError : Refusal := .http 500 "Internal Server Error".toList

namespace SignInState

/-- A server that has just started. -/
def start (users : Users) (setupToken : Option Text) (now : ℤ) : SignInState :=
  { users, setupToken, failures := fun _ => [], challenges := [], sessions := [], now,
    wrong := fun _ => [], signIns := [] }

/-- Whether an attempt is let through. -/
def LetThrough (env : SignInEnv) (s : SignInState) (a : Attempt) : Prop :=
  s.failures.retryAfter env a.client a.start = some 0

instance (env : SignInEnv) (s : SignInState) (a : Attempt) : Decidable (s.LetThrough env a) :=
  inferInstanceAs (Decidable (_ = _))

/-- The state in which an attempt goes on after the limit was looked at. -/
def checked (env : SignInEnv) (s : SignInState) (a : Attempt) : SignInState :=
  { s with failures := s.failures.pruned env a.client a.start }

/-- The refusal of an attempt that is not let through; `tooMany` is the endpoint's text. -/
def limitRefusal (env : SignInEnv) (s : SignInState) (a : Attempt) (tooMany : ℤ → Text) : Refusal :=
  match s.failures.retryAfter env a.client a.start with
  | none => internalError
  | some wait => .http 429 (tooMany wait)

/-- Something was found wrong. -/
def failed (env : SignInEnv) (s : SignInState) (a : Attempt) : SignInState :=
  { s with
    failures := s.failures.recordFailure env a.client a.finish
    wrong := Function.update s.wrong a.client (s.wrong a.client ++ [a.finish]) }

/-- Create a session (`start_session`); only the hash of its token is stored. -/
def startSession (env : SignInEnv) (s : SignInState) (userId : ℕ) (sessionToken : Text) :
    SignInState :=
  { s with sessions := s.sessions ++ [{ tokenHash := env.sha256 sessionToken, userId }] }

/-- `_complete_login`, for a sign-in that was obtained with a password. -/
def completeLogin (env : SignInEnv) (s : SignInState) (a : Attempt) (user : UserRow)
    (password sessionToken : Text) : SignInState :=
  { (s.startSession env user.id sessionToken) with
    failures := s.failures.reset a.client
    signIns := { userId := user.id, password } :: s.signIns }

/-- Sign a user out everywhere, except for one session. -/
def deleteUserSessions (s : SignInState) (userId : ℕ) (keep : Option Text) : SignInState :=
  { s with
    sessions := s.sessions.filter fun x => decide (x.userId ≠ userId ∨ some x.tokenHash = keep) }

end SignInState

/-! ## The endpoints -/

def tooManyAttempts (_ : ℤ) : Text := "Too many failed attempts. Try again later.".toList

def tooManySignIns (wait : ℤ) : Text :=
  "Too many failed sign-in attempts. Try again in ".toList
    ++ Nat.toDigits 10 (max 1 (wait / 60)).toNat ++ " min.".toList

def setupCompleted : Refusal := .http 409 "Setup has already been completed".toList
def invalidSetupToken : Refusal := .http 403 "Invalid setup token".toList
def invalidCredentials : Refusal := .http 401 "Invalid username or password".toList
def invalidCode : Refusal := .http 401 "Invalid authentication code".toList

def signInExpired : Refusal :=
  .http 401 "Sign-in expired. Enter your username and password again.".toList

/-- `enforce_password_policy`. -/
def policyRefusal (env : SignInEnv) (password username : Text) : Option Refusal :=
  match env.passwordProblems password username with
  | [] => none
  | problems =>
    some (.http 400 ("Password must be ".toList ++ "; ".toList.intercalate problems ++ ".".toList))

def Users.byName (u : Users) (username : Text) : Option UserRow :=
  u.rows.find? fun r => decide (r.nameKey = nocase username)

/-- A second factor's row as a column of the user's. -/
def withFactor (factor : FactorRow) (r : UserRow) : UserRow := { r with factor }

lemma keepsKeys_withFactor (factor : FactorRow) : Users.KeepsKeys (withFactor factor) :=
  ⟨fun _ => rfl, fun _ => rfl, fun _ => rfl⟩

def withPassword (hash : Text) (r : UserRow) : UserRow := { r with passwordHash := hash }

lemma keepsKeys_withPassword (hash : Text) : Users.KeepsKeys (withPassword hash) :=
  ⟨fun _ => rfl, fun _ => rfl, fun _ => rfl⟩

def updateUserPassword (u : Users) (id : ℕ) (hash : Text) : Users :=
  u.modify id (withPassword hash) (keepsKeys_withPassword hash)

structure SetupRequest where
  setupToken : Text
  username : Text
  password : Text

/-- Whether the setup token is right (`check_setup_token`). -/
def checkSetupToken (env : SignInEnv) (expected : Option Text) (candidate : Text) : Bool :=
  expected.any fun token => decide (token ≠ [] ∧ stripSpace env.toFactorEnv candidate = token)

/-- Create the first account, with the one-time setup token. -/
def setupAdmin (env : SignInEnv) (s : SignInState) (a : Attempt) (body : SetupRequest)
    (salt sessionToken : Text) (created : ℤ) : Except Refusal Reply × SignInState :=
  if s.users.rows ≠ [] then (.error setupCompleted, s)
  else if ¬s.LetThrough env a then (.error (s.limitRefusal env a tooManyAttempts), s.checked env a)
  else if ¬checkSetupToken env s.setupToken body.setupToken then
    (.error invalidSetupToken, (s.checked env a).failed env a)
  else
    match policyRefusal env body.password body.username with
    | some refusal => (.error refusal, s.checked env a)
    | none =>
      match s.users.createFirstUser body.username (env.hashPassword salt body.password) created with
      | (none, _) => (.error setupCompleted, s.checked env a)
      | (some user, users) =>
        (.ok (.signedIn user.id),
          { ((s.checked env a).startSession env user.id sessionToken) with
            users, setupToken := none })

/-- `check_credentials`. -/
def checkCredentials (env : SignInEnv) (user : Option UserRow) (password : Text) : Bool :=
  user.any fun r => env.verifyPassword password r.passwordHash

/-- Sign in with a password. -/
def login (env : SignInEnv) (s : SignInState) (a : Attempt)
    (username password mfaToken sessionToken : Text) : Except Refusal Reply × SignInState :=
  if ¬s.LetThrough env a then (.error (s.limitRefusal env a tooManySignIns), s.checked env a)
  else
    match s.users.byName username with
    | none => (.error invalidCredentials, (s.checked env a).failed env a)
    | some user =>
      if ¬checkCredentials env (some user) password then
        (.error invalidCredentials, (s.checked env a).failed env a)
      else if user.factor.totpEnabled then
        (.ok (.mfaRequired mfaToken),
          { (s.checked env a) with
            challenges := s.challenges.create mfaToken user.id password a.finish })
      else (.ok (.signedIn user.id), (s.checked env a).completeLogin env a user password sessionToken)

/-- The challenge of a code and the account that it is for. -/
def challenged (s : SignInState) (a : Attempt) (mfaToken : Text) : Option (Challenge × UserRow) :=
  (s.challenges.userFor mfaToken a.start).1.bind fun c =>
    (s.users.row c.userId).map fun user => (c, user)

/-- Sign in with the code of a second factor, after the password; `wall` is the time of day. -/
def loginSecondFactor (env : SignInEnv) (s : SignInState) (a : Attempt)
    (mfaToken code : Text) (wall : ℤ) (sessionToken : Text) : Except Refusal Reply × SignInState :=
  if ¬s.LetThrough env a then (.error (s.limitRefusal env a tooManySignIns), s.checked env a)
  else
    let remaining := (s.challenges.userFor mfaToken a.start).2
    match challenged s a mfaToken with
    | none => (.error signInExpired, { (s.checked env a) with challenges := remaining })
    | some (c, user) =>
      match checkSecondFactor env.toFactorEnv user.factor code wall user.factor with
      | (.error _, _) => (.error internalError, { (s.checked env a) with challenges := remaining })
      | (.ok none, _) =>
        (.error invalidCode,
          { ((s.checked env a).failed env a) with challenges := remaining.failed mfaToken })
      | (.ok (some _), factor) =>
        (.ok (.signedIn user.id),
          { ((s.checked env a).completeLogin env a user c.password sessionToken) with
            users := s.users.modify user.id (withFactor factor) (keepsKeys_withFactor factor)
            challenges := remaining.pop mfaToken })

def ssoManaged : Text :=
  "This account signs in with single sign-on; its password and two-factor are managed there".toList

def UserRow.isSsoManaged (r : UserRow) : Bool := r.oidcSubject.any fun t => decide (t ≠ [])

/-- Why an own password is not changed. -/
def changeRefusal (env : SignInEnv) (user : Option UserRow) (current new : Text) :
    Option Refusal :=
  match user with
  | none => some internalError
  | some full =>
    if full.isSsoManaged then some (.http 400 ssoManaged)
    else if ¬env.verifyPassword current full.passwordHash then
      some (.http 400 "Current password is incorrect".toList)
    else if new = current then some (.http 400 "New password must be different".toList)
    else policyRefusal env new full.username

/-- Change the own password, and sign out the other sessions. -/
def changeOwnPassword (env : SignInEnv) (s : SignInState) (userId : ℕ)
    (sessionToken current new salt : Text) : Except Refusal Reply × SignInState :=
  match changeRefusal env (s.users.row userId) current new with
  | some refusal => (.error refusal, s)
  | none =>
    (.ok .done,
      { s with users := updateUserPassword s.users userId (env.hashPassword salt new) }
        |>.deleteUserSessions userId (some (env.sha256 sessionToken)))

/-- Why an administrator's action on another user is refused (`_get_other_user`). -/
def otherUserRefusal (s : SignInState) (adminId targetId : ℕ) : Option Refusal :=
  match s.users.row targetId with
  | none => some (.http 404 "User not found".toList)
  | some target =>
    if target.id = adminId then some (.http 400 "You can't do that to your own account".toList)
    else none

/-- Why an administrator does not set a password. -/
def resetRefusal (env : SignInEnv) (s : SignInState) (adminId targetId : ℕ) (new : Text) :
    Option Refusal :=
  (otherUserRefusal s adminId targetId).or <|
    (s.users.row targetId).bind fun target =>
      if target.isSsoManaged then some (.http 400 ssoManaged)
      else policyRefusal env new target.username

/-- Set a new password for another user and sign them out everywhere. -/
def resetUserPassword (env : SignInEnv) (s : SignInState) (adminId targetId : ℕ)
    (new salt : Text) : Except Refusal Reply × SignInState :=
  match resetRefusal env s adminId targetId new with
  | some refusal => (.error refusal, s)
  | none =>
    (.ok .done,
      { s with users := updateUserPassword s.users targetId (env.hashPassword salt new) }
        |>.deleteUserSessions targetId none)

/-- Sign a user out everywhere. -/
def endUserSessions (s : SignInState) (adminId targetId : ℕ) : Except Refusal Reply × SignInState :=
  match otherUserRefusal s adminId targetId with
  | some refusal => (.error refusal, s)
  | none => (.ok .done, s.deleteUserSessions targetId none)

/-- Sign out everywhere except this browser. -/
def endMyOtherSessions (env : SignInEnv) (s : SignInState) (userId : ℕ) (sessionToken : Text) :
    Except Refusal Reply × SignInState :=
  (.ok .done, s.deleteUserSessions userId (some (env.sha256 sessionToken)))

/-! ## Steps -/

inductive SignInAction where
  | setup (a : Attempt) (body : SetupRequest) (salt sessionToken : Text) (created : ℤ)
  | login (a : Attempt) (username password mfaToken sessionToken : Text)
  | secondFactor (a : Attempt) (mfaToken code : Text) (wall : ℤ) (sessionToken : Text)
  | changePassword (time : ℤ) (userId : ℕ) (sessionToken current new salt : Text)
  | resetPassword (time : ℤ) (adminId targetId : ℕ) (new salt : Text)
  | endSessions (time : ℤ) (adminId targetId : ℕ)
  | endOtherSessions (time : ℤ) (userId : ℕ) (sessionToken : Text)

namespace SignInAction

def start : SignInAction → ℤ
  | .setup a .. | .login a .. | .secondFactor a .. => a.start
  | .changePassword t .. | .resetPassword t .. | .endSessions t .. | .endOtherSessions t .. => t

def finish : SignInAction → ℤ
  | .setup a .. | .login a .. | .secondFactor a .. => a.finish
  | .changePassword t .. | .resetPassword t .. | .endSessions t .. | .endOtherSessions t .. => t

/-- The answer to a request and the state after it. -/
def run (env : SignInEnv) (s : SignInState) : SignInAction → Except Refusal Reply × SignInState
  | .setup a body salt sessionToken created => setupAdmin env s a body salt sessionToken created
  | .login a username password mfaToken sessionToken =>
    Auth.login env s a username password mfaToken sessionToken
  | .secondFactor a mfaToken code wall sessionToken =>
    loginSecondFactor env s a mfaToken code wall sessionToken
  | .changePassword _ userId sessionToken current new salt =>
    changeOwnPassword env s userId sessionToken current new salt
  | .resetPassword _ adminId targetId new salt => resetUserPassword env s adminId targetId new salt
  | .endSessions _ adminId targetId => endUserSessions s adminId targetId
  | .endOtherSessions _ userId sessionToken => endMyOtherSessions env s userId sessionToken

lemma start_le_finish (a : SignInAction) : a.start ≤ a.finish := by
  cases a with
  | setup a | login a | secondFactor a => exact a.start_le
  | _ => exact le_rfl

end SignInAction

/-- Requests come one after another. -/
def SignInState.step (env : SignInEnv) (s : SignInState) (a : SignInAction) : Option SignInState :=
  if a.start < s.now then none else some { (a.run env s).2 with now := a.finish }

lemma SignInState.step_eq {env : SignInEnv} {s s' : SignInState} {a : SignInAction}
    (h : s.step env a = some s') :
    s.now ≤ a.start ∧ s' = { (a.run env s).2 with now := a.finish } := by
  unfold SignInState.step at h
  split_ifs at h with htime
  exact ⟨not_lt.mp htime, (Option.some.inj h).symm⟩

/-! ## A small server -/

/-- Ten failures in a quarter of an hour, and passwords whose hash is the password. -/
def sampleSignIn : SignInEnv :=
  { sampleEnv with
    verifyPassword := fun password hash => decide (hash = "scrypt$".toList ++ password)
    hashPassword := fun _ password => "scrypt$".toList ++ password
    passwordProblems := fun _ _ => []
    maxFailures := 10
    window := 15 * 60 }

/-- One account, without a second factor. -/
def sampleUsers : Users :=
  (Users.empty.createUser "operator".toList "scrypt$right".toList .operator 0).2

def sampleClient : Text := "192.0.2.7".toList

/-- An attempt that takes no time. -/
def attemptAt (time : ℤ) : Attempt :=
  { client := sampleClient, start := time * second, finish := time * second, start_le := le_rfl }

def loginAt (password : Text) (time : ℤ) : SignInAction :=
  .login (attemptAt time) "operator".toList password "challenge".toList "session".toList

end Habeny.Auth
