import Habeny.Auth.FactorAnswers

/-!
# Challenges

A challenge is what its token stands for from one start to the next.  In every run of sign-ins,
a challenge is completed once at most, for the user whose password started it, before it expires
and before five wrong codes were counted for it; and the code that completes it is the only
one that creates a session (`challenges_bounded`).  What the store has of a token is what has
happened since it was started (`Stored`).
-/

namespace Habeny.Auth

open Habeny.Lib

/-- What happens to challenges: one is started, by a user and a password; a wrong code is counted;
one is completed. -/
inductive ChallengeEvent where
  | started (token : Text) (user : UserRow) (password : Text) (time : ℤ)
  | wrong (token : Text)
  | completed (token : Text) (userId : ℕ) (time : ℤ)
  deriving DecidableEq

namespace ChallengeEvent

def starts (token : Text) : ChallengeEvent → Bool
  | .started t .. => decide (t = token)
  | _ => false

def completes (token : Text) : ChallengeEvent → Bool
  | .completed t .. => decide (t = token)
  | _ => false

/-- What a request does to challenges, by its answer. -/
def of (env : SignInEnv) (s : SignInState) : SignInAction → Option ChallengeEvent
  | .login a username password mfaToken sessionToken =>
    match (login env s a username password mfaToken sessionToken).1, s.users.byName username with
    | .ok (.mfaRequired token), some user => some (.started token user password a.finish)
    | _, _ => none
  | .secondFactor a mfaToken code wall sessionToken =>
    match (loginSecondFactor env s a mfaToken code wall sessionToken).1 with
    | .ok (.signedIn userId) => some (.completed mfaToken userId a.start)
    | .ok _ => none
    | .error refusal => if refusal = invalidCode then some (.wrong mfaToken) else none
  | _ => none

end ChallengeEvent

/-- What has happened since a token was started, newest first. -/
def sinceStart (token : Text) (events : List ChallengeEvent) : List ChallengeEvent :=
  events.takeWhile fun e => !e.starts token

/-- The number of wrong codes counted since then. -/
def wrongSince (token : Text) (events : List ChallengeEvent) : ℕ :=
  (sinceStart token events).count (.wrong token)

/-- The server and what has happened to challenges, newest first. -/
structure Recorded where
  server : SignInState
  events : List ChallengeEvent

namespace Recorded

def start (users : Users) (setupToken : Option Text) (now : ℤ) : Recorded :=
  { server := .start users setupToken now, events := [] }

def step (env : SignInEnv) (s : Recorded) (act : SignInAction) : Option Recorded :=
  (s.server.step env act).map fun server =>
    { server, events := (ChallengeEvent.of env s.server act).toList ++ s.events }

end Recorded

/-- The challenge of a token, not completed yet: the right password of a user started it, and so
many wrong codes were counted since. -/
structure IsOpen (env : SignInEnv) (events : List ChallengeEvent) (token : Text) (userId : ℕ)
    (expires : ℤ) (wrong : ℕ) : Prop where
  started : ∃ user password time,
    events.find? (·.starts token) = some (.started token user password time) ∧
      env.verifyPassword password user.passwordHash = true ∧ userId = user.id ∧
      expires = time + challengeTtl
  wrong_eq : wrong = wrongSince token events
  not_completed : ∀ e ∈ sinceStart token events, e.completes token = false

/-- Whether a request sends a code. -/
def SignInAction.sendsCode : SignInAction → Bool
  | .secondFactor .. => true
  | _ => false

/-- The code that completes a challenge creates one session, for its user; the password that starts
one and any other code create none. -/
def CreatesOne (env : SignInEnv) (s s' : SignInState) (act : SignInAction) : Prop :=
  match ChallengeEvent.of env s act with
  | some (.completed _ userId _) => ∃ tokenHash, s'.sessions = s.sessions ++ [{ tokenHash, userId }]
  | some _ => s'.sessions = s.sessions
  | none => act.sendsCode = true → s'.sessions = s.sessions

/-! ## Events -/

section Events

variable {env : SignInEnv} {events : List ChallengeEvent} {token other : Text} {userId : ℕ}
  {expires : ℤ} {wrong : ℕ}

lemma sinceStart_cons (token : Text) (e : ChallengeEvent) (events : List ChallengeEvent) :
    sinceStart token (e :: events) =
      if e.starts token then [] else e :: sinceStart token events := by
  rw [sinceStart, List.takeWhile_cons]
  cases e.starts token <;> rfl

/-- Nothing but its own start and its completion ends the state of a challenge, and a wrong code
is counted. -/
lemma IsOpen.cons (h : IsOpen env events token userId expires wrong) {e : ChallengeEvent}
    (hstarts : e.starts token = false) (hcompletes : e.completes token = false) :
    IsOpen env (e :: events) token userId expires
      (wrong + if e = .wrong token then 1 else 0) where
  started := by
    obtain ⟨user, password, time, hfind, hrest⟩ := h.started
    exact ⟨user, password, time, by rw [List.find?_cons_of_neg (by simp [hstarts]), hfind], hrest⟩
  wrong_eq := by
    rw [wrongSince, sinceStart_cons, hstarts, if_neg Bool.false_ne_true, List.count_cons,
      h.wrong_eq, wrongSince]
    simp
  not_completed := by
    rw [sinceStart_cons, hstarts, if_neg Bool.false_ne_true]
    intro e' he'
    rcases List.mem_cons.mp he' with rfl | he'
    · exact hcompletes
    · exact h.not_completed e' he'

lemma isOpen_started {user : UserRow} {password : Text} {time : ℤ} (token : Text)
    (events : List ChallengeEvent)
    (hpassword : env.verifyPassword password user.passwordHash = true) :
    IsOpen env (.started token user password time :: events) token user.id
      (time + challengeTtl) 0 where
  started := ⟨user, password, time, List.find?_cons_of_pos (by simp [ChallengeEvent.starts]),
    hpassword, rfl, rfl⟩
  wrong_eq := by simp [wrongSince, sinceStart_cons, ChallengeEvent.starts]
  not_completed := by simp [sinceStart_cons, ChallengeEvent.starts]

end Events

/-! ## What each request does -/

/-- The ways in which a request changes the challenges. -/
inductive ChallengeChange (env : SignInEnv) (s s' : SignInState) : Option ChallengeEvent → Prop
  | none (hsub : s'.challenges ⊆ s.challenges) : ChallengeChange env s s' none
  | started (token : Text) (user : UserRow) (password : Text) (time : ℤ)
      (hpassword : env.verifyPassword password user.passwordHash = true)
      (hchallenges : s'.challenges = s.challenges.create token user.id password time) :
      ChallengeChange env s s' (some (.started token user password time))
  | wrong (token : Text) (c : Challenge) (hfind : s.challenges.find token = some c)
      (hchallenges : s'.challenges = s.challenges.failed token) :
      ChallengeChange env s s' (some (.wrong token))
  | completed (token : Text) (c : Challenge) (time : ℤ)
      (hfind : s.challenges.find token = some c) (htime : time < c.expires)
      (hchallenges : s'.challenges = s.challenges.pop token) :
      ChallengeChange env s s' (some (.completed token c.userId time))

lemma limitRefusal_ne (env : SignInEnv) (s : SignInState) (a : Attempt) (tooMany : ℤ → Text) :
    s.limitRefusal env a tooMany ≠ invalidCode := by
  rw [SignInState.limitRefusal]
  cases s.failures.retryAfter env a.client a.start with
  | none => simp [internalError, invalidCode]
  | some wait => simp [invalidCode]

lemma setupAdmin_challenges (env : SignInEnv) (s : SignInState) (a : Attempt) (body : SetupRequest)
    (salt sessionToken : Text) (created : ℤ) :
    (setupAdmin env s a body salt sessionToken created).2.challenges = s.challenges := by
  rw [setupAdmin]
  split_ifs
  · rfl
  · rcases policyRefusal env body.password body.username with _ | refusal
    · rcases s.users.createFirstUser body.username (env.hashPassword salt body.password) created
        with ⟨_ | user, users⟩
      · rfl
      · rfl
    · rfl
  · rfl
  · rfl

section Requests

variable {env : SignInEnv} {s : SignInState}

lemma login_change (a : Attempt) (username password mfaToken sessionToken : Text) :
    ChallengeChange env s (login env s a username password mfaToken sessionToken).2
        (ChallengeEvent.of env s (.login a username password mfaToken sessionToken)) ∧
      CreatesOne env s (login env s a username password mfaToken sessionToken).2
        (.login a username password mfaToken sessionToken) := by
  rw [CreatesOne, ChallengeEvent.of, login]
  split_ifs with hthrough
  · cases huser : s.users.byName username with
    | none => exact ⟨.none fun c hc => hc, fun _ => rfl⟩
    | some user =>
      dsimp only
      split_ifs with hcredentials htotp
      · have hpassword : env.verifyPassword password user.passwordHash = true := by
          simpa [checkCredentials] using hcredentials
        exact ⟨.started mfaToken user password a.finish hpassword rfl, rfl⟩
      · exact ⟨.none fun c hc => hc, fun h => absurd h Bool.false_ne_true⟩
      · exact ⟨.none fun c hc => hc, fun _ => rfl⟩
  · exact ⟨.none fun c hc => hc, fun _ => rfl⟩

lemma loginSecondFactor_change (a : Attempt) (mfaToken code : Text) (wall : ℤ)
    (sessionToken : Text) :
    ChallengeChange env s (loginSecondFactor env s a mfaToken code wall sessionToken).2
        (ChallengeEvent.of env s (.secondFactor a mfaToken code wall sessionToken)) ∧
      CreatesOne env s (loginSecondFactor env s a mfaToken code wall sessionToken).2
        (.secondFactor a mfaToken code wall sessionToken) := by
  rw [CreatesOne, ChallengeEvent.of, loginSecondFactor]
  split_ifs with hthrough
  · cases hchallenged : challenged s a mfaToken with
    | none =>
      dsimp only
      rw [if_neg (by simp [signInExpired, invalidCode])]
      refine ⟨.none fun c hc => ?_, fun _ => rfl⟩
      exact Challenges.userFor_subset _ _ _ hc
    | some found =>
      obtain ⟨c, user⟩ := found
      obtain ⟨hfound, hrow⟩ := challenged_eq hchallenged
      obtain ⟨hfind, htime, hremaining⟩ := Challenges.find_of_userFor hfound
      obtain ⟨-, hid⟩ := Users.row_eq_some_iff.mp hrow
      dsimp only
      rw [hremaining]
      rcases hcheck : checkSecondFactor env.toFactorEnv user.factor code wall user.factor with
        ⟨_ | _ | factor, row⟩
      · dsimp only
        rw [if_neg (by simp [internalError, invalidCode])]
        exact ⟨.none fun c hc => hc, fun _ => rfl⟩
      · dsimp only
        rw [if_pos rfl]
        exact ⟨.wrong mfaToken c hfind rfl, rfl⟩
      · dsimp only
        refine ⟨?_, env.sha256 sessionToken, rfl⟩
        rw [hid]
        exact .completed mfaToken c a.start hfind htime rfl
  · dsimp only
    rw [if_neg (limitRefusal_ne env s a _)]
    exact ⟨.none fun c hc => hc, fun _ => rfl⟩

lemma run_change (act : SignInAction) :
    ChallengeChange env s (act.run env s).2 (ChallengeEvent.of env s act) ∧
      CreatesOne env s (act.run env s).2 act := by
  cases act with
  | login a username password mfaToken sessionToken =>
    exact login_change a username password mfaToken sessionToken
  | secondFactor a mfaToken code wall sessionToken =>
    exact loginSecondFactor_change a mfaToken code wall sessionToken
  | setup a body salt sessionToken created =>
    refine ⟨.none ?_, fun h => absurd h Bool.false_ne_true⟩
    rw [SignInAction.run, setupAdmin_challenges]
    exact List.Subset.refl _
  | changePassword time userId sessionToken current new salt =>
    refine ⟨.none ?_, fun h => absurd h Bool.false_ne_true⟩
    rw [SignInAction.run, changeOwnPassword]
    rcases changeRefusal env (s.users.row userId) current new with _ | refusal
    · exact List.Subset.refl _
    · exact List.Subset.refl _
  | resetPassword time adminId targetId new salt =>
    refine ⟨.none ?_, fun h => absurd h Bool.false_ne_true⟩
    rw [SignInAction.run, resetUserPassword]
    rcases resetRefusal env s adminId targetId new with _ | refusal
    · exact List.Subset.refl _
    · exact List.Subset.refl _
  | endSessions time adminId targetId =>
    refine ⟨.none ?_, fun h => absurd h Bool.false_ne_true⟩
    rw [SignInAction.run, endUserSessions]
    rcases otherUserRefusal s adminId targetId with _ | refusal
    · exact List.Subset.refl _
    · exact List.Subset.refl _
  | endOtherSessions time userId sessionToken =>
    exact ⟨.none (List.Subset.refl _), fun h => absurd h Bool.false_ne_true⟩

end Requests

/-! ## Runs -/

/-- What the store has of a token is what has happened since it was started, and every challenge
that was completed was open then. -/
structure Stored (env : SignInEnv) (s : Recorded) : Prop where
  opened : ∀ c ∈ s.server.challenges, c.attempts < challengeMaxAttempts ∧
    IsOpen env s.events c.token c.userId c.expires c.attempts
  completed : ∀ {later earlier : List ChallengeEvent} {token : Text} {userId : ℕ} {time : ℤ},
    s.events = later ++ .completed token userId time :: earlier →
      ∃ expires wrong, IsOpen env earlier token userId expires wrong ∧ time < expires ∧
        wrong < challengeMaxAttempts

lemma stored_start (env : SignInEnv) (users : Users) (setupToken : Option Text) (now : ℤ) :
    Stored env (.start users setupToken now) where
  opened := fun c hc => absurd hc List.not_mem_nil
  completed := fun h => absurd h (by simp [Recorded.start])

section Steps

variable {env : SignInEnv} {s : Recorded}

lemma mem_pop {cs : Challenges} {token : Text} {c : Challenge} :
    c ∈ cs.pop token ↔ c ∈ cs ∧ c.token ≠ token := by
  rw [Challenges.pop, List.mem_filter, decide_eq_true_eq]

/-- An event of another token leaves a challenge as it is. -/
lemma Stored.other (hs : Stored env s) {c : Challenge} (hc : c ∈ s.server.challenges)
    {e : ChallengeEvent} (hstarts : e.starts c.token = false)
    (hcompletes : e.completes c.token = false) (hwrong : e ≠ .wrong c.token) :
    c.attempts < challengeMaxAttempts ∧
      IsOpen env (e :: s.events) c.token c.userId c.expires c.attempts := by
  obtain ⟨hlt, hopen⟩ := hs.opened c hc
  have hcons := hopen.cons hstarts hcompletes
  rw [if_neg hwrong, Nat.add_zero] at hcons
  exact ⟨hlt, hcons⟩

/-- Another event completes no challenge. -/
lemma Stored.completed_cons (hs : Stored env s) {e : ChallengeEvent}
    (hcompletes : ∀ token, e.completes token = false) {later earlier : List ChallengeEvent}
    {token : Text} {userId : ℕ} {time : ℤ}
    (h : e :: s.events = later ++ .completed token userId time :: earlier) :
    ∃ expires wrong, IsOpen env earlier token userId expires wrong ∧ time < expires ∧
      wrong < challengeMaxAttempts := by
  rcases List.cons_eq_append_iff.mp h with ⟨-, hhead⟩ | ⟨later, -, hrest⟩
  · obtain ⟨rfl, -⟩ := List.cons.inj hhead
    exact absurd (hcompletes token) (by simp [ChallengeEvent.completes])
  · exact hs.completed hrest

lemma Stored.change (hs : Stored env s) {server : SignInState} {event : Option ChallengeEvent}
    (h : ChallengeChange env s.server server event) :
    Stored env { server, events := event.toList ++ s.events } := by
  cases h with
  | none hsub => exact ⟨fun c hc => hs.opened c (hsub hc), hs.completed⟩
  | started token user password time hpassword hchallenges =>
    refine ⟨fun c hc => ?_, hs.completed_cons fun _ => rfl⟩
    change c ∈ server.challenges at hc
    rw [hchallenges, Challenges.create, List.mem_append, mem_pop, List.mem_singleton] at hc
    rcases hc with ⟨hc, hne⟩ | rfl
    · exact hs.other (List.mem_filter.mp hc).1 (decide_eq_false (Ne.symm hne)) rfl (by simp)
    · exact ⟨Nat.succ_pos 4, isOpen_started token s.events hpassword⟩
  | wrong token c hfind hchallenges =>
    refine ⟨fun c' hc' => ?_, hs.completed_cons fun _ => rfl⟩
    have hother : ∀ c' ∈ s.server.challenges.pop token, c'.attempts < challengeMaxAttempts ∧
        IsOpen env (.wrong token :: s.events) c'.token c'.userId c'.expires c'.attempts := by
      intro c' hc'
      obtain ⟨hc', hne⟩ := mem_pop.mp hc'
      exact hs.other hc' rfl rfl fun heq => hne (ChallengeEvent.wrong.inj heq).symm
    change c' ∈ server.challenges at hc'
    rw [hchallenges, Challenges.failed, hfind] at hc'
    dsimp only at hc'
    split_ifs at hc' with hmax
    · exact hother c' hc'
    · rcases List.mem_append.mp hc' with hc' | hc'
      · exact hother c' hc'
      · -- the challenge whose wrong code is counted
        rw [List.mem_singleton] at hc'
        subst hc'
        have htoken : c.token = token := by simpa using List.find?_some hfind
        obtain ⟨-, hopen⟩ := hs.opened c (List.mem_of_find?_eq_some hfind)
        have hcons := hopen.cons (e := .wrong token) rfl rfl
        rw [if_pos (congrArg ChallengeEvent.wrong htoken.symm)] at hcons
        exact ⟨not_le.mp hmax, hcons⟩
  | completed token c time hfind htime hchallenges =>
    have htoken : c.token = token := by simpa using List.find?_some hfind
    obtain ⟨hlt, hopen⟩ := hs.opened c (List.mem_of_find?_eq_some hfind)
    refine ⟨fun c' hc' => ?_, fun {later earlier token' userId' time'} h => ?_⟩
    · change c' ∈ server.challenges at hc'
      rw [hchallenges] at hc'
      obtain ⟨hc', hne⟩ := mem_pop.mp hc'
      exact hs.other hc' rfl (decide_eq_false (Ne.symm hne)) (by simp)
    · rcases List.cons_eq_append_iff.mp h with ⟨-, hhead⟩ | ⟨later, -, hrest⟩
      · -- the completion of this step
        obtain ⟨hevent, rfl⟩ := List.cons.inj hhead
        obtain ⟨rfl, rfl, rfl⟩ := ChallengeEvent.completed.inj hevent
        rw [htoken] at hopen
        exact ⟨c.expires, c.attempts, hopen, htime, hlt⟩
      · exact hs.completed hrest

lemma Recorded.step_eq {s' : Recorded} {act : SignInAction} (h : s.step env act = some s') :
    s'.events = (ChallengeEvent.of env s.server act).toList ++ s.events ∧
      s'.server = { (act.run env s.server).2 with now := act.finish } := by
  obtain ⟨server, hserver, rfl⟩ := Option.map_eq_some_iff.mp h
  exact ⟨rfl, (SignInState.step_eq hserver).2⟩

lemma ChallengeChange.setNow {s s' : SignInState} {event : Option ChallengeEvent} (now : ℤ)
    (h : ChallengeChange env s s' event) : ChallengeChange env s { s' with now } event := by
  cases h with
  | none hsub => exact .none hsub
  | started token user password time hpassword hchallenges =>
    exact .started token user password time hpassword hchallenges
  | wrong token c hfind hchallenges => exact .wrong token c hfind hchallenges
  | completed token c time hfind htime hchallenges =>
    exact .completed token c time hfind htime hchallenges

lemma step_stored {s' : Recorded} {act : SignInAction} (hs : Stored env s)
    (h : s.step env act = some s') : Stored env s' := by
  obtain ⟨hevents, hserver⟩ := Recorded.step_eq h
  have hchange := hs.change ((run_change act).1.setNow act.finish)
  rw [← hevents, ← hserver] at hchange
  exact hchange

end Steps

/-- **Challenges are bounded.**  In every run: a challenge is completed only for the user whose
password started it, before it expires, before the greatest number of wrong codes was counted
for it, and when it was not completed before; and from every state of the run, the code that
completes a challenge creates one session, for that user, and no other code creates one. -/
theorem challenges_bounded {env : SignInEnv} {users : Users} {setupToken : Option Text} {now : ℤ}
    {as : List SignInAction} {s : Recorded}
    (hrun : Run (Recorded.step env) anyStep (.start users setupToken now) as s) :
    (∀ later earlier token userId time,
      s.events = later ++ .completed token userId time :: earlier →
        ∃ expires wrong, IsOpen env earlier token userId expires wrong ∧ time < expires ∧
          wrong < challengeMaxAttempts) ∧
    ∀ act s', s.step env act = some s' → CreatesOne env s.server s'.server act := by
  have hs : Stored env s :=
    hrun.invariant (fun hs _ hstep => step_stored hs hstep) (stored_start env users setupToken now)
  refine ⟨fun later earlier token userId time h => hs.completed h, fun act s' h => ?_⟩
  rw [(Recorded.step_eq h).2]
  exact (run_change act).2

/-! ## A challenge that is completed -/

/-- A wrong code and the right one. -/
def sampleChallenge : List SignInAction :=
  [loginAt "right".toList 1,
   .secondFactor (attemptAt 2) "challenge".toList "000 000".toList 59 "session".toList,
   .secondFactor (attemptAt 3) "challenge".toList "287 082".toList 59 "session".toList]

theorem challenges_bounded_sample :
    ∃ s, Run (Recorded.step sampleSignIn) anyStep (.start factorUsers none 0) sampleChallenge s ∧
      s.events.head? = some (.completed "challenge".toList 1 (3 * second)) ∧
      (∀ later earlier token userId time,
        s.events = later ++ .completed token userId time :: earlier →
          ∃ expires wrong, IsOpen sampleSignIn earlier token userId expires wrong ∧
            time < expires ∧ wrong < challengeMaxAttempts) ∧
      ∀ act s', s.step sampleSignIn act = some s' →
        CreatesOne sampleSignIn s.server s'.server act := by
  have hlast : (exec (Recorded.step sampleSignIn) (.start factorUsers none 0)
      sampleChallenge).map (fun s => s.events.head?) =
        some (some (.completed "challenge".toList 1 (3 * second))) := by decide +kernel
  obtain ⟨s, hs, hhead⟩ := Option.map_eq_some_iff.mp hlast
  exact ⟨s, run_of_exec hs, hhead, challenges_bounded (run_of_exec hs)⟩

end Habeny.Auth
