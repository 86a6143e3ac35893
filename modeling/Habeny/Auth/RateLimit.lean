import Habeny.Auth.SignIn
import Mathlib.Algebra.Order.Group.Int

/-!
# The limit on failed sign-ins

What was found wrong from an address is counted until it is older than the window, by the three
endpoints alike, and an attempt is let through while the count is below the limit.  A completed
sign-in clears the count, also of failures that are recent.  Where a sign-in is completed only
from an address without recent failures (`NothingRecent`), no window of the configured length
has more failures from one address than the limit.
-/

namespace Habeny.Auth

open Habeny.Lib

/-- The attempt of a request at one of the three endpoints that the limit is about. -/
def SignInAction.attempt : SignInAction → Option Attempt
  | .setup a .. | .login a .. | .secondFactor a .. => some a
  | _ => none

/-- The request is let through and completes a sign-in: the password is right, of an account
without a second factor, or the code of an open challenge is accepted. -/
def Completes (env : SignInEnv) (s : SignInState) : SignInAction → Prop
  | .login a username password _ _ => s.LetThrough env a ∧
      ∃ user, s.users.byName username = some user ∧
        checkCredentials env (some user) password = true ∧ user.factor.totpEnabled = false
  | .secondFactor a mfaToken code wall _ => s.LetThrough env a ∧
      ∃ c user factor, challenged s a mfaToken = some (c, user) ∧
        (checkSecondFactor env.toFactorEnv user.factor code wall user.factor).1 = .ok (some factor)
  | _ => False

/-- A sign-in is completed only from an address that has no failure in the window before. -/
def NothingRecent (env : SignInEnv) (s : SignInState) (act : SignInAction) : Prop :=
  ∀ a ∈ act.attempt, Completes env s act → s.failures.recent env a.client a.finish = []

/-- The ways in which a request changes what is counted. -/
inductive Counts (env : SignInEnv) (s : SignInState) (act : SignInAction) (s' : SignInState) : Prop
  | same (hfailures : s'.failures = s.failures) (hwrong : s'.wrong = s.wrong)
  | checked (a : Attempt) (hact : act.attempt = some a)
      (hfailures : s'.failures = s.failures.pruned env a.client a.start)
      (hwrong : s'.wrong = s.wrong)
  | failed (a : Attempt) (hact : act.attempt = some a) (hthrough : s.LetThrough env a)
      (hfailures : s'.failures =
        (s.failures.pruned env a.client a.start).recordFailure env a.client a.finish)
      (hwrong : s'.wrong = Function.update s.wrong a.client (s.wrong a.client ++ [a.finish]))
  | cleared (a : Attempt) (hact : act.attempt = some a) (hcompletes : Completes env s act)
      (hfailures : s'.failures = (s.failures.pruned env a.client a.start).reset a.client)
      (hwrong : s'.wrong = s.wrong)

/-! ## What each endpoint counts -/

section Endpoints

variable {env : SignInEnv} {s : SignInState}

lemma setupAdmin_counts (a : Attempt) (body : SetupRequest) (salt sessionToken : Text)
    (created : ℤ) :
    Counts env s (.setup a body salt sessionToken created)
      (setupAdmin env s a body salt sessionToken created).2 := by
  unfold setupAdmin
  split_ifs with hrows hthrough htoken
  · exact .same rfl rfl
  · rcases policyRefusal env body.password body.username with _ | refusal
    · rcases s.users.createFirstUser body.username (env.hashPassword salt body.password) created
        with ⟨_ | user, users⟩
      · exact .checked a rfl rfl rfl
      · exact .checked a rfl rfl rfl
    · exact .checked a rfl rfl rfl
  · exact .failed a rfl hthrough rfl rfl
  · exact .checked a rfl rfl rfl

lemma login_counts (a : Attempt) (username password mfaToken sessionToken : Text) :
    Counts env s (.login a username password mfaToken sessionToken)
      (login env s a username password mfaToken sessionToken).2 := by
  unfold login
  split_ifs with hthrough
  · cases huser : s.users.byName username with
    | none => exact .failed a rfl hthrough rfl rfl
    | some user =>
      simp only
      split_ifs with hcredentials htotp
      · exact .checked a rfl rfl rfl
      · exact .cleared a rfl ⟨hthrough, user, huser, hcredentials, by simpa using htotp⟩ rfl rfl
      · exact .failed a rfl hthrough rfl rfl
  · exact .checked a rfl rfl rfl

lemma loginSecondFactor_counts (a : Attempt) (mfaToken code : Text) (wall : ℤ)
    (sessionToken : Text) :
    Counts env s (.secondFactor a mfaToken code wall sessionToken)
      (loginSecondFactor env s a mfaToken code wall sessionToken).2 := by
  unfold loginSecondFactor
  split_ifs with hthrough
  · cases hchallenged : challenged s a mfaToken with
    | none => exact .checked a rfl rfl rfl
    | some found =>
      obtain ⟨c, user⟩ := found
      simp only
      rcases hcheck : checkSecondFactor env.toFactorEnv user.factor code wall user.factor with
        ⟨_ | _ | factor, row⟩
      · exact .checked a rfl rfl rfl
      · exact .failed a rfl hthrough rfl rfl
      · exact .cleared a rfl ⟨hthrough, c, user, factor, hchallenged, by rw [hcheck]⟩ rfl rfl
  · exact .checked a rfl rfl rfl

lemma changeOwnPassword_counts (act : SignInAction) (userId : ℕ)
    (sessionToken current new salt : Text) :
    Counts env s act (changeOwnPassword env s userId sessionToken current new salt).2 := by
  unfold changeOwnPassword
  rcases changeRefusal env (s.users.row userId) current new with _ | refusal
  · exact .same rfl rfl
  · exact .same rfl rfl

lemma resetUserPassword_counts (act : SignInAction) (adminId targetId : ℕ) (new salt : Text) :
    Counts env s act (resetUserPassword env s adminId targetId new salt).2 := by
  unfold resetUserPassword
  rcases resetRefusal env s adminId targetId new with _ | refusal
  · exact .same rfl rfl
  · exact .same rfl rfl

lemma endUserSessions_counts (act : SignInAction) (adminId targetId : ℕ) :
    Counts env s act (endUserSessions s adminId targetId).2 := by
  unfold endUserSessions
  rcases otherUserRefusal s adminId targetId with _ | refusal
  · exact .same rfl rfl
  · exact .same rfl rfl

lemma run_counts (act : SignInAction) : Counts env s act (act.run env s).2 := by
  cases act with
  | setup a body salt sessionToken created => exact setupAdmin_counts a body salt sessionToken created
  | login a username password mfaToken sessionToken =>
    exact login_counts a username password mfaToken sessionToken
  | secondFactor a mfaToken code wall sessionToken =>
    exact loginSecondFactor_counts a mfaToken code wall sessionToken
  | changePassword time userId sessionToken current new salt =>
    exact changeOwnPassword_counts _ userId sessionToken current new salt
  | resetPassword time adminId targetId new salt =>
    exact resetUserPassword_counts _ adminId targetId new salt
  | endSessions time adminId targetId => exact endUserSessions_counts _ adminId targetId
  | endOtherSessions time userId sessionToken => exact .same rfl rfl

end Endpoints

/-! ## What is counted -/

/-- An attempt is let through while fewer failures than the limit are recent. -/
lemma letThrough_iff {env : SignInEnv} {s : SignInState} {a : Attempt} :
    s.LetThrough env a ↔ (s.failures.recent env a.client a.start).length < env.maxFailures := by
  unfold SignInState.LetThrough Failures.retryAfter
  split_ifs with hlen
  · exact iff_of_true rfl hlen
  · refine iff_of_false ?_ hlen
    rcases s.failures.recent env a.client a.start with _ | ⟨first, rest⟩
    · simp
    · simp only [Option.some.injEq]
      omega

/-- The queue of each address has what is recent of all that was found wrong, and no window has
more than the limit. -/
structure Counted (env : SignInEnv) (s : SignInState) : Prop where
  tracks : ∀ client, Tracks env.width s.now (s.wrong client) (s.failures client)
  limited : ∀ client, Limited env.maxFailures env.width (s.wrong client)

lemma counted_start (env : SignInEnv) (users : Users) (setupToken : Option Text) (now : ℤ) :
    Counted env (.start users setupToken now) where
  tracks := fun _ => Tracks.nil _ _
  limited := fun _ => limited_nil _ _

lemma attempt_times {act : SignInAction} {a : Attempt} (h : act.attempt = some a) :
    act.start = a.start ∧ act.finish = a.finish := by
  cases act <;> simp_all [SignInAction.attempt, SignInAction.start, SignInAction.finish]

section Steps

variable {env : SignInEnv} {s : SignInState} {a : Attempt}

/-- What is left of an address's failures when its attempt is let through. -/
lemma Counted.atStart (hs : Counted env s) (hnow : s.now ≤ a.start) :
    Tracks env.width a.start (s.wrong a.client) (s.failures.recent env a.client a.start) :=
  ((hs.tracks a.client).mono hnow).prune

lemma Counted.recorded (hs : Counted env s) (hnow : s.now ≤ a.start) (hthrough : s.LetThrough env a) :
    Tracks env.width a.finish (s.wrong a.client ++ [a.finish])
        (prune (a.finish - env.width) (s.failures.recent env a.client a.start) ++ [a.finish]) ∧
      Limited env.maxFailures env.width (s.wrong a.client ++ [a.finish]) := by
  have htracks := ((hs.atStart hnow).mono a.start_le).prune
  have hlen := (length_prune_le (a.finish - env.width)
    (s.failures.recent env a.client a.start)).trans_lt (letThrough_iff.mp hthrough)
  exact ⟨htracks.record, (hs.limited a.client).record htracks hlen⟩

end Steps

lemma Counts.counted {env : SignInEnv} {s s' : SignInState} {act : SignInAction}
    (hcounts : Counts env s act s') (hs : Counted env s) (hrecent : NothingRecent env s act)
    (hstart : s.now ≤ act.start) : Counted env { s' with now := act.finish } := by
  have hnow : s.now ≤ act.finish := hstart.trans act.start_le_finish
  -- what is counted for the other addresses only ages
  have hother : ∀ client, Tracks env.width act.finish (s.wrong client) (s.failures client) :=
    fun client => (hs.tracks client).mono hnow
  cases hcounts with
  | same hfailures hwrong =>
    refine ⟨fun client => ?_, fun client => ?_⟩
    · simp only [hfailures, hwrong]
      exact hother client
    · simp only [hwrong]
      exact hs.limited client
  | checked a hact hfailures hwrong =>
    obtain ⟨hs₁, hf₁⟩ := attempt_times hact
    refine ⟨fun client => ?_, fun client => ?_⟩
    · simp only [hfailures, hwrong, Failures.pruned]
      by_cases hc : client = a.client
      · subst hc
        rw [Function.update_self, hf₁]
        exact (hs.atStart (hs₁ ▸ hstart)).mono a.start_le
      · rw [Function.update_of_ne hc]
        exact hother client
    · simp only [hwrong]
      exact hs.limited client
  | failed a hact hthrough hfailures hwrong =>
    obtain ⟨hs₁, hf₁⟩ := attempt_times hact
    have hrecorded := hs.recorded (hs₁ ▸ hstart) hthrough
    refine ⟨fun client => ?_, fun client => ?_⟩
    · simp only [hfailures, hwrong, Failures.recordFailure, Failures.recent, Failures.pruned]
      by_cases hc : client = a.client
      · subst hc
        simp only [Function.update_self, hf₁]
        exact hrecorded.1
      · simp only [Function.update_of_ne hc]
        exact hother client
    · simp only [hwrong]
      by_cases hc : client = a.client
      · subst hc
        rw [Function.update_self]
        exact hrecorded.2
      · rw [Function.update_of_ne hc]
        exact hs.limited client
  | cleared a hact hcompletes hfailures hwrong =>
    obtain ⟨hs₁, hf₁⟩ := attempt_times hact
    refine ⟨fun client => ?_, fun client => ?_⟩
    · simp only [hfailures, hwrong, Failures.reset, Failures.pruned]
      by_cases hc : client = a.client
      · subst hc
        rw [Function.update_self]
        have hempty := hrecent a hact hcompletes
        rw [← hf₁] at hempty
        exact (hother a.client).clear hempty
      · simp only [Function.update_of_ne hc]
        exact hother client
    · simp only [hwrong]
      exact hs.limited client

lemma step_counted {env : SignInEnv} {s s' : SignInState} {act : SignInAction}
    (hs : Counted env s) (hrecent : NothingRecent env s act) (h : s.step env act = some s') :
    Counted env s' := by
  obtain ⟨hstart, rfl⟩ := SignInState.step_eq h
  exact (run_counts act).counted hs hrecent hstart

/-- **The limit on failures holds** in every run in which no sign-in is completed from an address
that has failures in the window before: no window of the configured length, wherever it lies,
has more attempts from one address whose password, code or setup token was found wrong than the
limit. -/
theorem failures_limited {env : SignInEnv} {users : Users} {setupToken : Option Text} {now : ℤ}
    {as : List SignInAction} {s : SignInState}
    (hrun : Run (SignInState.step env) (NothingRecent env) (.start users setupToken now) as s)
    (client : Text) (x : ℤ) : inWindow env.width x (s.wrong client) ≤ env.maxFailures := by
  have hcounted : Counted env s :=
    hrun.invariant (fun hs hrecent hstep => step_counted hs hrecent hstep)
      (counted_start env users setupToken now)
  exact hcounted.limited client x

/-! ## Failures between sign-ins -/

/-- A wrong password, and the right one when that failure is not recent any more. -/
def laterSignIn : List SignInAction := [loginAt "wrong".toList 1, loginAt "right".toList 1000]

/-- The address has no recent failure when a request is done. -/
def nothingRecent (env : SignInEnv) (s : SignInState) (act : SignInAction) : Bool :=
  act.attempt.all fun a => (s.failures.recent env a.client a.finish).isEmpty

lemma nothingRecent_sound {env : SignInEnv} {s : SignInState} {act : SignInAction}
    (h : nothingRecent env s act = true) : NothingRecent env s act := by
  intro a hact _
  rw [nothingRecent, Option.mem_def.mp hact] at h
  exact List.isEmpty_iff.mp h

theorem failures_limited_laterSignIn :
    ∃ s, Run (SignInState.step sampleSignIn) (NothingRecent sampleSignIn)
        (.start sampleUsers none 0) laterSignIn s ∧
      inWindow sampleSignIn.width 0 (s.wrong sampleClient) ≤ sampleSignIn.maxFailures := by
  have hruns : (exec (SignInState.step sampleSignIn) (.start sampleUsers none 0)
      laterSignIn).isSome = true := by decide +kernel
  have hmeets : execMeets (SignInState.step sampleSignIn) (nothingRecent sampleSignIn)
      (.start sampleUsers none 0) laterSignIn = true := by decide +kernel
  obtain ⟨s, hs⟩ := Option.isSome_iff_exists.mp hruns
  have hrun := run_of_execMeets (fun _ _ => nothingRecent_sound) hs hmeets
  exact ⟨s, hrun, failures_limited hrun sampleClient 0⟩

/-- Nine wrong passwords, the right one, and nine wrong ones. -/
def clearedBetween : List SignInAction :=
  [1, 2, 3, 4, 5, 6, 7, 8, 9].map (loginAt "wrong".toList) ++ loginAt "right".toList 10 ::
    [11, 12, 13, 14, 15, 16, 17, 18, 19].map (loginAt "wrong".toList)

/-- All of the failures are found wrong within twenty seconds. -/
theorem failures_not_limited :
    ∃ s, Run (SignInState.step sampleSignIn) anyStep (.start sampleUsers none 0) clearedBetween s ∧
      sampleSignIn.maxFailures < inWindow sampleSignIn.width 0 (s.wrong sampleClient) := by
  have hcount : (exec (SignInState.step sampleSignIn) (.start sampleUsers none 0)
      clearedBetween).map (fun s => inWindow sampleSignIn.width 0 (s.wrong sampleClient)) =
        some 18 := by decide +kernel
  obtain ⟨s, hs, hwrong⟩ := Option.map_eq_some_iff.mp hcount
  refine ⟨s, run_of_exec hs, ?_⟩
  rw [hwrong]
  decide

end Habeny.Auth
