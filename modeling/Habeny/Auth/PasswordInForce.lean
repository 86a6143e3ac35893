import Habeny.Auth.SignIn

/-!
# Sessions and the password in force

A challenge stands for a password that was right when it was created, and it lives on for
minutes in the server's memory.  Changing or resetting a password ends the sessions of the
account and leaves its challenges open, so that a code may still turn an old password into a
session.  Where no password is written while the account has an open challenge of another
password (`ChallengesAgree`), every sign-in creates its session with the password that the
account has at that moment.
-/

namespace Habeny.Auth

open Habeny.Lib

/-- The open challenges of an account were obtained with a password that a new hash accepts. -/
def OpenAgree (env : SignInEnv) (s : SignInState) (time : ℤ) (userId : ℕ) (hash : Text) : Prop :=
  ∀ c ∈ s.challenges, c.userId = userId → time < c.expires →
    env.verifyPassword c.password hash = true

/-- A password is written only when the account's open challenges agree with it.  (A change or a
reset that is refused writes nothing.) -/
def ChallengesAgree (env : SignInEnv) (s : SignInState) : SignInAction → Prop
  | .changePassword time userId _ current new salt =>
    changeRefusal env (s.users.row userId) current new = none →
      OpenAgree env s time userId (env.hashPassword salt new)
  | .resetPassword time adminId targetId new salt =>
    resetRefusal env s adminId targetId new = none →
      OpenAgree env s time targetId (env.hashPassword salt new)
  | _ => True

/-- The password is the one that the account has. -/
def InForce (env : SignInEnv) (u : Users) (x : SignedIn) : Prop :=
  ∃ r, u.row x.userId = some r ∧ env.verifyPassword x.password r.passwordHash = true

/-- The sign-ins of a step: none, or one with the password in force. -/
def SignsIn (env : SignInEnv) (s s' : SignInState) : Prop :=
  s'.signIns = s.signIns ∨ ∃ x, s'.signIns = x :: s.signIns ∧ InForce env s.users x

/-! ## Challenges -/

/-- Every challenge of the one list is a challenge of the other, but for the count of its wrong
codes. -/
def Challenges.From (cs cs₀ : Challenges) : Prop :=
  ∀ c ∈ cs, ∃ c₀ ∈ cs₀, c.userId = c₀.userId ∧ c.expires = c₀.expires ∧ c.password = c₀.password

namespace Challenges

lemma From.refl (cs : Challenges) : From cs cs := fun c hc => ⟨c, hc, rfl, rfl, rfl⟩

lemma From.of_subset {cs cs₀ : Challenges} (h : cs ⊆ cs₀) : From cs cs₀ :=
  fun c hc => ⟨c, h hc, rfl, rfl, rfl⟩

lemma From.trans {cs cs₁ cs₂ : Challenges} (h : From cs cs₁) (h' : From cs₁ cs₂) : From cs cs₂ := by
  intro c hc
  obtain ⟨c₁, hc₁, hid, hexpires, hpassword⟩ := h c hc
  obtain ⟨c₂, hc₂, hid', hexpires', hpassword'⟩ := h' c₁ hc₁
  exact ⟨c₂, hc₂, hid.trans hid', hexpires.trans hexpires', hpassword.trans hpassword'⟩

lemma userFor_some {cs : Challenges} {token : Text} {now : ℤ} {c : Challenge}
    (h : (cs.userFor token now).1 = some c) : c ∈ cs ∧ now < c.expires := by
  unfold userFor at h
  cases hfind : cs.find token with
  | none =>
    rw [hfind] at h
    exact absurd h (by simp)
  | some c₀ =>
    rw [hfind] at h
    simp only at h
    by_cases hexpired : c₀.expires ≤ now
    · rw [if_pos hexpired] at h
      exact absurd h (by simp)
    · rw [if_neg hexpired, Option.some.injEq] at h
      subst h
      exact ⟨List.mem_of_find?_eq_some hfind, not_le.mp hexpired⟩

lemma failed_from (cs : Challenges) (token : Text) : From (cs.failed token) cs := by
  unfold failed
  cases hfind : cs.find token with
  | none => exact From.refl cs
  | some c₀ =>
    simp only
    split_ifs with hmany
    · exact From.of_subset (cs.pop_subset token)
    · intro c hc
      rcases List.mem_append.mp hc with hc | hc
      · exact ⟨c, cs.pop_subset token hc, rfl, rfl, rfl⟩
      · rw [List.mem_singleton] at hc
        subst hc
        exact ⟨c₀, List.mem_of_find?_eq_some hfind, rfl, rfl, rfl⟩

lemma mem_create {cs : Challenges} {token : Text} {userId : ℕ} {password : Text} {now : ℤ}
    {c : Challenge} (h : c ∈ cs.create token userId password now) :
    c ∈ cs ∨ c.userId = userId ∧ c.password = password := by
  rcases List.mem_append.mp h with h | h
  · exact .inl (List.mem_of_mem_filter (pop_subset _ token h))
  · rw [List.mem_singleton] at h
    subst h
    exact .inr ⟨rfl, rfl⟩

end Challenges

/-! ## The invariant -/

/-- An open challenge stands for the password in force, and for an account that there is or has
been. -/
structure Trusted (env : SignInEnv) (s : SignInState) : Prop where
  inForce : ∀ c ∈ s.challenges, s.now < c.expires → ∀ r ∈ s.users.rows, r.id = c.userId →
    env.verifyPassword c.password r.passwordHash = true
  known : ∀ c ∈ s.challenges, c.userId ≤ s.users.lastId

lemma trusted_start (env : SignInEnv) (users : Users) (setupToken : Option Text) (now : ℤ) :
    Trusted env (.start users setupToken now) :=
  ⟨fun _ hc => absurd hc List.not_mem_nil, fun _ hc => absurd hc List.not_mem_nil⟩

/-- The passwords of the accounts are as they were. -/
structure SamePasswords (u u' : Users) : Prop where
  rows : ∀ r' ∈ u'.rows, ∃ r ∈ u.rows, r.id = r'.id ∧ r.passwordHash = r'.passwordHash
  lastId : u'.lastId = u.lastId

lemma SamePasswords.refl (u : Users) : SamePasswords u u := ⟨fun r hr => ⟨r, hr, rfl, rfl⟩, rfl⟩

lemma samePasswords_withFactor (u : Users) (id : ℕ) (factor : FactorRow) :
    SamePasswords u (u.modify id (withFactor factor) (keepsKeys_withFactor factor)) := by
  refine ⟨fun r' hr' => ?_, rfl⟩
  obtain ⟨r, hr, rfl⟩ := List.mem_map.mp hr'
  refine ⟨r, hr, (Users.writeAt_eq id (keepsKeys_withFactor factor).id r).symm, ?_⟩
  unfold Users.writeAt
  split_ifs <;> rfl

section Steps

variable {env : SignInEnv} {s s' : SignInState}

/-- Challenges may go and time may pass while the passwords stay. -/
lemma Trusted.keep (hs : Trusted env s) (hchallenges : Challenges.From s'.challenges s.challenges)
    (husers : SamePasswords s.users s'.users) (hnow : s.now ≤ s'.now) : Trusted env s' := by
  refine ⟨fun c hc hopen r' hr' hid' => ?_, fun c hc => ?_⟩
  · obtain ⟨c₀, hc₀, hid, hexpires, hpassword⟩ := hchallenges c hc
    obtain ⟨r, hr, hrid, hhash⟩ := husers.rows r' hr'
    rw [hpassword, ← hhash]
    refine hs.inForce c₀ hc₀ ?_ r hr (hrid.trans (hid'.trans hid))
    rw [← hexpires]
    -- what is open now was open before
    exact hnow.trans_lt hopen
  · obtain ⟨c₀, hc₀, hid, -, -⟩ := hchallenges c hc
    rw [hid, husers.lastId]
    exact hs.known c₀ hc₀

/-- A new account has no challenge yet. -/
lemma Trusted.insertFirst (hs : Trusted env s) {n : NewUser} (hrows : s.users.rows = [])
    (hinserted : s'.users = (s.users.insert n).2) (hchallenges : s'.challenges = s.challenges) :
    Trusted env s' := by
  have hcases : s'.users = s.users ∨
      s'.users.rows = [s.users.newRow n] ∧ s'.users.lastId = s.users.lastId + 1 := by
    rw [hinserted]
    unfold Users.insert
    split_ifs with hfree
    · exact .inr ⟨by simp [hrows], rfl⟩
    · exact .inl rfl
  refine ⟨fun c hc _ r hr hid => ?_, fun c hc => ?_⟩
  · rw [hchallenges] at hc
    have hknown := hs.known c hc
    rcases hcases with hsame | ⟨hnew, -⟩
    · rw [hsame, hrows] at hr
      exact absurd hr List.not_mem_nil
    · rw [hnew, List.mem_singleton] at hr
      subst hr
      have hnewId : s.users.lastId + 1 = c.userId := hid
      omega
  · rw [hchallenges] at hc
    have hknown := hs.known c hc
    rcases hcases with hsame | ⟨-, hlast⟩
    · rwa [hsame]
    · omega

/-- A challenge is created with the password that was checked. -/
lemma Trusted.create (hs : Trusted env s) {user : UserRow} (huser : user ∈ s.users.rows)
    {password token : Text} {time : ℤ}
    (hpassword : env.verifyPassword password user.passwordHash = true)
    (hchallenges : s'.challenges = s.challenges.create token user.id password time)
    (husers : s'.users = s.users) (hnow : s.now ≤ s'.now) : Trusted env s' := by
  refine ⟨fun c hc hopen r hr hid => ?_, fun c hc => ?_⟩
  · rw [husers] at hr
    rw [hchallenges] at hc
    rcases Challenges.mem_create hc with hc | ⟨hcid, hcpassword⟩
    · exact hs.inForce c hc (hnow.trans_lt hopen) r hr hid
    · rw [hcpassword, s.users.eq_of_id_eq hr huser (hid.trans hcid)]
      exact hpassword
  · rw [husers]
    rw [hchallenges] at hc
    rcases Challenges.mem_create hc with hc | ⟨hcid, -⟩
    · exact hs.known c hc
    · rw [hcid]
      exact s.users.ids_le user huser

/-- A password is written that the open challenges agree with. -/
lemma Trusted.write (hs : Trusted env s) {userId : ℕ} {hash : Text} {time : ℤ}
    (hagree : OpenAgree env s time userId hash)
    (husers : s'.users = updateUserPassword s.users userId hash)
    (hchallenges : s'.challenges = s.challenges) (hnow : s.now ≤ time) (hnow' : s'.now = time) :
    Trusted env s' := by
  refine ⟨fun c hc hopen r hr hid => ?_, fun c hc => ?_⟩
  · rw [hchallenges] at hc
    rw [hnow'] at hopen
    rw [husers] at hr
    obtain ⟨r₀, hr₀, rfl⟩ := List.mem_map.mp hr
    rw [Users.writeAt_eq userId (keepsKeys_withPassword hash).id] at hid
    unfold Users.writeAt
    -- the account of the challenge: its own password changed, or another one's did
    split_ifs with hwritten
    · exact hagree c hc (hid.symm.trans hwritten) hopen
    · exact hs.inForce c hc (hnow.trans_lt hopen) r₀ hr₀ hid
  · rw [husers]
    rw [hchallenges] at hc
    exact hs.known c hc

end Steps

/-! ## What each endpoint does -/

/-- The state after a request, and the sign-ins of the request. -/
structure Served (env : SignInEnv) (s s' : SignInState) (finish : ℤ) : Prop where
  trusted : Trusted env { s' with now := finish }
  signsIn : SignsIn env s s'

section Endpoints

variable {env : SignInEnv} {s : SignInState}

/-- A request that changes neither passwords nor challenges, and signs nobody in. -/
lemma Served.quiet {s' : SignInState} {finish : ℤ} (hs : Trusted env s) (hnow : s.now ≤ finish)
    (husers : s'.users = s.users) (hchallenges : Challenges.From s'.challenges s.challenges)
    (hsignIns : s'.signIns = s.signIns) : Served env s s' finish where
  trusted := hs.keep hchallenges (husers ▸ SamePasswords.refl s.users) hnow
  signsIn := .inl hsignIns

lemma Users.byName_mem {u : Users} {username : Text} {r : UserRow}
    (h : u.byName username = some r) : r ∈ u.rows :=
  List.mem_of_find?_eq_some h

lemma setupAdmin_served (hs : Trusted env s) {a : Attempt} (hnow : s.now ≤ a.finish)
    (body : SetupRequest) (salt sessionToken : Text) (created : ℤ) :
    Served env s (setupAdmin env s a body salt sessionToken created).2 a.finish := by
  unfold setupAdmin
  by_cases hrows : s.users.rows ≠ []
  · rw [if_pos hrows]
    exact .quiet hs hnow rfl (.refl _) rfl
  · rw [if_neg hrows]
    have hempty : s.users.rows = [] := not_not.mp hrows
    split_ifs with hthrough htoken
    · rcases policyRefusal env body.password body.username with _ | refusal
      · rcases hcreate : s.users.createFirstUser body.username
          (env.hashPassword salt body.password) created with ⟨_ | user, users⟩
        · exact .quiet hs hnow rfl (.refl _) rfl
        · have hinsert := hcreate
          rw [Users.createFirstUser, if_neg (by simp [hempty])] at hinsert
          exact ⟨hs.insertFirst hempty (congrArg Prod.snd hinsert).symm rfl, .inl rfl⟩
      · exact .quiet hs hnow rfl (.refl _) rfl
    · exact .quiet hs hnow rfl (.refl _) rfl
    · exact .quiet hs hnow rfl (.refl _) rfl

lemma login_served (hs : Trusted env s) {a : Attempt} (hnow : s.now ≤ a.finish)
    (username password mfaToken sessionToken : Text) :
    Served env s (login env s a username password mfaToken sessionToken).2 a.finish := by
  unfold login
  split_ifs with hthrough
  · cases huser : s.users.byName username with
    | none => exact .quiet hs hnow rfl (.refl _) rfl
    | some user =>
      have hmem := Users.byName_mem huser
      simp only
      split_ifs with hcredentials htotp
      · exact ⟨hs.create hmem hcredentials rfl rfl hnow, .inl rfl⟩
      · refine ⟨hs.keep (.refl _) (.refl _) hnow, .inr ⟨_, rfl, user, ?_, hcredentials⟩⟩
        exact Users.row_eq_some_iff.mpr ⟨hmem, rfl⟩
      · exact .quiet hs hnow rfl (.refl _) rfl
  · exact .quiet hs hnow rfl (.refl _) rfl

/-- A code is for an open challenge of an account. -/
lemma challenged_some {a : Attempt} {mfaToken : Text} {c : Challenge} {user : UserRow}
    (h : challenged s a mfaToken = some (c, user)) :
    c ∈ s.challenges ∧ a.start < c.expires ∧ user ∈ s.users.rows ∧ user.id = c.userId := by
  obtain ⟨c₀, hfor, hrow⟩ := Option.bind_eq_some_iff.mp h
  obtain ⟨user₀, hfound, heq⟩ := Option.map_eq_some_iff.mp hrow
  rw [Prod.mk.injEq] at heq
  obtain ⟨rfl, rfl⟩ := heq
  obtain ⟨hmem, hopen⟩ := Challenges.userFor_some hfor
  obtain ⟨huser, hid⟩ := Users.row_eq_some_iff.mp hfound
  exact ⟨hmem, hopen, huser, hid⟩

lemma loginSecondFactor_served (hs : Trusted env s) {a : Attempt} (hstart : s.now ≤ a.start)
    (mfaToken code : Text) (wall : ℤ) (sessionToken : Text) :
    Served env s (loginSecondFactor env s a mfaToken code wall sessionToken).2 a.finish := by
  have hnow : s.now ≤ a.finish := hstart.trans a.start_le
  have hleft : Challenges.From (s.challenges.userFor mfaToken a.start).2 s.challenges :=
    .of_subset (s.challenges.userFor_subset mfaToken a.start)
  unfold loginSecondFactor
  split_ifs with hthrough
  · cases hchallenged : challenged s a mfaToken with
    | none => exact .quiet hs hnow rfl hleft rfl
    | some found =>
      obtain ⟨c, user⟩ := found
      obtain ⟨hmem, hopen, huser, hid⟩ := challenged_some hchallenged
      simp only
      rcases checkSecondFactor env.toFactorEnv user.factor code wall user.factor with
        ⟨_ | _ | factor, row⟩
      · exact .quiet hs hnow rfl hleft rfl
      · exact .quiet hs hnow rfl ((Challenges.failed_from _ mfaToken).trans hleft) rfl
      · -- the challenge was open, so its password is the account's
        have hpassword := hs.inForce c hmem (hstart.trans_lt hopen) user huser hid
        have hpopped := Challenges.From.of_subset
          (Challenges.pop_subset (s.challenges.userFor mfaToken a.start).2 mfaToken)
        refine ⟨hs.keep (hpopped.trans hleft) (samePasswords_withFactor _ _ _) hnow, .inr ?_⟩
        exact ⟨_, rfl, user, Users.row_eq_some_iff.mpr ⟨huser, rfl⟩, hpassword⟩
  · exact .quiet hs hnow rfl (.refl _) rfl

lemma changeOwnPassword_served (hs : Trusted env s) {time : ℤ} (hnow : s.now ≤ time) {userId : ℕ}
    {sessionToken current new salt : Text}
    (hagree : changeRefusal env (s.users.row userId) current new = none →
      OpenAgree env s time userId (env.hashPassword salt new)) :
    Served env s (changeOwnPassword env s userId sessionToken current new salt).2 time := by
  unfold changeOwnPassword
  rcases hrefusal : changeRefusal env (s.users.row userId) current new with _ | refusal
  · exact ⟨hs.write (hagree hrefusal) rfl rfl hnow rfl, .inl rfl⟩
  · exact .quiet hs hnow rfl (.refl _) rfl

lemma resetUserPassword_served (hs : Trusted env s) {time : ℤ} (hnow : s.now ≤ time)
    {adminId targetId : ℕ} {new salt : Text}
    (hagree : resetRefusal env s adminId targetId new = none →
      OpenAgree env s time targetId (env.hashPassword salt new)) :
    Served env s (resetUserPassword env s adminId targetId new salt).2 time := by
  unfold resetUserPassword
  rcases hrefusal : resetRefusal env s adminId targetId new with _ | refusal
  · exact ⟨hs.write (hagree hrefusal) rfl rfl hnow rfl, .inl rfl⟩
  · exact .quiet hs hnow rfl (.refl _) rfl

lemma endUserSessions_served (hs : Trusted env s) {time : ℤ} (hnow : s.now ≤ time)
    (adminId targetId : ℕ) : Served env s (endUserSessions s adminId targetId).2 time := by
  unfold endUserSessions
  rcases otherUserRefusal s adminId targetId with _ | refusal
  · exact .quiet hs hnow rfl (.refl _) rfl
  · exact .quiet hs hnow rfl (.refl _) rfl

lemma run_served (hs : Trusted env s) {act : SignInAction} (hagree : ChallengesAgree env s act)
    (hstart : s.now ≤ act.start) : Served env s (act.run env s).2 act.finish := by
  have hnow : s.now ≤ act.finish := hstart.trans act.start_le_finish
  cases act with
  | setup a body salt sessionToken created =>
    exact setupAdmin_served hs hnow body salt sessionToken created
  | login a username password mfaToken sessionToken =>
    exact login_served hs hnow username password mfaToken sessionToken
  | secondFactor a mfaToken code wall sessionToken =>
    exact loginSecondFactor_served hs hstart mfaToken code wall sessionToken
  | changePassword time userId sessionToken current new salt =>
    exact changeOwnPassword_served hs hnow hagree
  | resetPassword time adminId targetId new salt => exact resetUserPassword_served hs hnow hagree
  | endSessions time adminId targetId => exact endUserSessions_served hs hnow adminId targetId
  | endOtherSessions time userId sessionToken => exact .quiet hs hnow rfl (.refl _) rfl

end Endpoints

/-! ## Runs -/

lemma step_served {env : SignInEnv} {s s' : SignInState} {act : SignInAction}
    (hs : Trusted env s) (hagree : ChallengesAgree env s act) (h : s.step env act = some s') :
    Trusted env s' ∧ SignsIn env s s' := by
  obtain ⟨hstart, rfl⟩ := SignInState.step_eq h
  have hserved := run_served hs hagree hstart
  exact ⟨hserved.trusted, hserved.signsIn⟩

/-- **A session needs the password in force**, in every run in which no password is written while
its account has an open challenge of another password: a request that signs somebody in creates
the session with the password that the account has at that moment. -/
theorem session_needs_password {env : SignInEnv} {users : Users} {setupToken : Option Text}
    {now : ℤ} {as : List SignInAction} {s s' : SignInState} {act : SignInAction}
    (hrun : Run (SignInState.step env) (ChallengesAgree env) (.start users setupToken now) as s)
    (hagree : ChallengesAgree env s act) (hstep : s.step env act = some s') :
    s'.signIns = s.signIns ∨ ∃ x r, s'.signIns = x :: s.signIns ∧
      s.users.row x.userId = some r ∧ env.verifyPassword x.password r.passwordHash = true := by
  have htrusted : Trusted env s :=
    hrun.invariant (fun hs hagree hstep => (step_served hs hagree hstep).1)
      (trusted_start env users setupToken now)
  rcases (step_served htrusted hagree hstep).2 with hsame | ⟨x, hnew, r, hrow, hverify⟩
  · exact .inl hsame
  · exact .inr ⟨x, r, hnew, hrow, hverify⟩

/-! ## A reset between the password and the code -/

/-- The account of the small server, with a second factor. -/
def twoFactorUsers : Users :=
  sampleUsers.modify 1 (withFactor sampleRow) (keepsKeys_withFactor sampleRow)

def resetAt (new : Text) (time : ℤ) : SignInAction :=
  .resetPassword (time * second) 2 1 new "salt".toList

def codeFor (mfaToken : Text) (time : ℤ) : SignInAction :=
  .secondFactor (attemptAt time) mfaToken "287082".toList 59 "session".toList

theorem session_needs_password_code :
    ∃ s s', Run (SignInState.step sampleSignIn) (ChallengesAgree sampleSignIn)
        (.start twoFactorUsers none 0) [loginAt "right".toList 1] s ∧
      s.step sampleSignIn (codeFor "challenge".toList 2) = some s' ∧
      (s'.signIns = s.signIns ∨ ∃ x r, s'.signIns = x :: s.signIns ∧
        s.users.row x.userId = some r ∧
        sampleSignIn.verifyPassword x.password r.passwordHash = true) := by
  have hlogin : ((SignInState.start twoFactorUsers none 0).step sampleSignIn
      (loginAt "right".toList 1)).isSome = true := by decide +kernel
  obtain ⟨s, hs⟩ := Option.isSome_iff_exists.mp hlogin
  have hcode : (s.step sampleSignIn (codeFor "challenge".toList 2)).isSome = true := by
    have htime : ¬(codeFor "challenge".toList 2).start < s.now := by
      obtain ⟨-, rfl⟩ := SignInState.step_eq hs
      decide
    rw [SignInState.step, if_neg htime]
    rfl
  obtain ⟨s', hs'⟩ := Option.isSome_iff_exists.mp hcode
  have hrun : Run (SignInState.step sampleSignIn) (ChallengesAgree sampleSignIn)
      (.start twoFactorUsers none 0) [loginAt "right".toList 1] s := .cons trivial hs (.nil s)
  have hagree : ChallengesAgree sampleSignIn s (codeFor "challenge".toList 2) := trivial
  exact ⟨s, s', hrun, hs', session_needs_password hrun hagree hs'⟩

/-- The password is reset while a challenge of the old one is open, and the code then signs in
with the old password. -/
theorem session_with_old_password :
    ∃ s s', Run (SignInState.step sampleSignIn) anyStep (.start twoFactorUsers none 0)
        [loginAt "right".toList 1, resetAt "fresh".toList 2] s ∧
      s.step sampleSignIn (codeFor "challenge".toList 3) = some s' ∧
      ∃ x r, s'.signIns = x :: s.signIns ∧ s.users.row x.userId = some r ∧
        sampleSignIn.verifyPassword x.password r.passwordHash = false := by
  have hrun : (exec (SignInState.step sampleSignIn) (.start twoFactorUsers none 0)
      [loginAt "right".toList 1, resetAt "fresh".toList 2]).map
        (fun s => (s.signIns, (s.users.row 1).map UserRow.passwordHash,
          (s.step sampleSignIn (codeFor "challenge".toList 3)).map SignInState.signIns)) =
      some ([], some "scrypt$fresh".toList, some [{ userId := 1, password := "right".toList }]) := by
    decide +kernel
  obtain ⟨s, hs, hafter⟩ := Option.map_eq_some_iff.mp hrun
  rw [Prod.mk.injEq, Prod.mk.injEq] at hafter
  obtain ⟨hbefore, hhash, hstep⟩ := hafter
  obtain ⟨s', hs', hnew⟩ := Option.map_eq_some_iff.mp hstep
  obtain ⟨r, hr, hstored⟩ := Option.map_eq_some_iff.mp hhash
  refine ⟨s, s', run_of_exec hs, hs', _, r, by rw [hnew, hbefore], hr, ?_⟩
  rw [hstored]
  decide +kernel

end Habeny.Auth
