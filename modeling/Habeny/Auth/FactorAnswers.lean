import Habeny.Auth.SignIn

/-!
# What the check of a second factor answers

A code is accepted or refused, an accepted one is the six ASCII digits of a step in the window
that is later than the last used one, and a refused one counts for the address and for the
challenge.  But a check may also raise, and then nothing is counted: on a stored secret that
cannot be used, on a step that has no code, and on digits that are not ASCII, which the class
`isDigit` takes and the comparison does not.  `CanBeChecked` says when it does not raise
(`second_factor_checked_iff`).
-/

namespace Habeny.Auth

open Habeny.Lib

/-! ## What is asked of a check -/

/-- A code with white space removed. -/
def bareCode (env : FactorEnv) (code : Text) : Text := code.filter fun c => !env.isSpace c

def IsAsciiCode (code : Text) : Prop := ∀ c ∈ code, c.val < 128

/-- The code is that of a time step in the window, later than the last used one. -/
structure IsCodeOf (env : FactorEnv) (user : FactorRow) (code : Text) (now step : ℤ) : Prop where
  length_eq : (bareCode env code).length = digits
  isDigit : ∀ c ∈ bareCode env code, c.isDigit = true
  value : ∃ encrypted secret, user.totpSecret = some encrypted ∧
    env.decryptSecret encrypted = some secret ∧ codeAt env secret step = .ok (bareCode env code)
  window : currentStep now - driftSteps ≤ step ∧ step ≤ currentStep now + driftSteps
  later : ∀ last ∈ user.totpLastStep, last < step

/-- The code of a challenge is accepted or refused, by the time step that it is of, and a
refused one counts for the address and for the challenge, which ends when it has too many. -/
structure CheckedAndCounted (env : SignInEnv) (s : SignInState) (a : Attempt)
    (mfaToken code : Text) (wall : ℤ) (sessionToken : Text) (c : Challenge) (user : UserRow) :
    Prop where
  answers : ∃ answer, (checkSecondFactor env.toFactorEnv user.factor code wall user.factor).1 =
    .ok answer
  accepts : ∀ step, (checkSecondFactor env.toFactorEnv user.factor code wall user.factor).1 =
    .ok (some (.totp step)) → IsCodeOf env.toFactorEnv user.factor code wall step
  counted : (checkSecondFactor env.toFactorEnv user.factor code wall user.factor).1 = .ok none →
    a.finish ∈ (loginSecondFactor env s a mfaToken code wall sessionToken).2.failures a.client ∧
    (loginSecondFactor env s a mfaToken code wall sessionToken).2.wrong a.client =
      s.wrong a.client ++ [a.finish] ∧
    (loginSecondFactor env s a mfaToken code wall sessionToken).2.challenges.find mfaToken =
      if challengeMaxAttempts ≤ c.attempts + 1 then none
      else some { c with attempts := c.attempts + 1 }

/-! ## When a check does not raise -/

/-- The steps whose code the check may look at: those around now that are not used yet. -/
def unusedSteps (user : FactorRow) (now : ℤ) : List ℤ :=
  (candidates now).filter fun step => !user.totpLastStep.any fun last => decide (step ≤ last)

/-- A code can be compared with those of the steps, up to the first that is the same. -/
def Comparable (env : FactorEnv) (secret code : Text) : List ℤ → Prop
  | [] => True
  | step :: rest => IsAsciiCode code ∧
      ∃ expected, codeAt env secret step = .ok expected ∧
        (expected = code ∨ Comparable env secret code rest)

/-- The code is checked as a recovery code, or the stored secret can be read and, if the code has
the form of one, the code can be compared with those of the unused steps. -/
def CanBeChecked (env : FactorEnv) (user : FactorRow) (code : Text) (now : ℤ) : Prop :=
  user.totpEnabled = true → ∀ encrypted ∈ user.totpSecret,
    looksLikeRecoveryCode env (stripSpace env code) = false →
      ∃ secret, env.decryptSecret encrypted = some secret ∧
        ((bareCode env code).length = digits → (bareCode env code).all env.isDigit = true →
          Comparable env secret (bareCode env code) (unusedSteps user now))

/-! ## Codes -/

lemma isDigit_of_codeAt {env : FactorEnv} {secret text : Text} {step : ℤ}
    (h : codeAt env secret step = .ok text) : ∀ c ∈ text, c.isDigit = true := by
  intro c hc
  rw [codeAt] at h
  split_ifs at h
  cases hvalue : env.truncatedHmac secret step.toNat with
  | none => simp [hvalue] at h
  | some value =>
    rw [hvalue] at h
    obtain rfl := Except.ok.inj h
    rcases List.mem_append.mp hc with hc | hc
    · rw [List.eq_of_mem_replicate hc]
      decide
    · exact Nat.isDigit_of_mem_toDigits (by decide) (by decide) hc

lemma ascii_of_isDigit {c : Char} (h : c.isDigit = true) : c.val < 128 := by
  rw [Char.isDigit, Bool.and_eq_true, decide_eq_true_eq, decide_eq_true_eq] at h
  exact UInt32.lt_of_le_of_lt h.2 (by decide)

/-- The code of a step can be compared with an ASCII text only. -/
lemma compareDigest_of_codeAt {env : FactorEnv} {secret expected : Text} {step : ℤ}
    (h : codeAt env secret step = .ok expected) (code : Text) [Decidable (IsAsciiCode code)] :
    compareDigest expected code =
      if IsAsciiCode code then .ok (decide (expected = code)) else .error .notAscii := by
  have hall : ((expected ++ code).all fun c => decide (c.val < 128)) = true ↔
      IsAsciiCode code := by
    rw [List.all_append, Bool.and_eq_true, List.all_eq_true, List.all_eq_true]
    constructor
    · rintro ⟨-, hcode⟩ c hc
      exact of_decide_eq_true (hcode c hc)
    · intro hcode
      exact ⟨fun c hc => decide_eq_true (ascii_of_isDigit (isDigit_of_codeAt h c hc)),
        fun c hc => decide_eq_true (hcode c hc)⟩
  rw [compareDigest]
  exact if_congr hall rfl rfl

/-- Looking for the step of a code raises exactly when the comparison comes to a step where it
cannot be made. -/
lemma firstMatch_answers_iff (env : FactorEnv) (secret code : Text) (lastStep : Option ℤ)
    (steps : List ℤ) :
    (∃ found, firstMatch env secret code lastStep steps = .ok found) ↔
      Comparable env secret code
        (steps.filter fun step => !lastStep.any fun last => decide (step ≤ last)) := by
  classical
  induction steps with
  | nil => exact iff_of_true ⟨none, rfl⟩ trivial
  | cons candidate rest ih =>
    rw [firstMatch]
    cases hused : lastStep.any fun last => decide (candidate ≤ last) with
    | true => rw [if_pos rfl, List.filter_cons_of_neg (by simp [hused]), ih]
    | false =>
      rw [if_neg Bool.false_ne_true, List.filter_cons_of_pos (by simp [hused]), Comparable]
      cases hexpected : codeAt env secret candidate with
      | error fault => simp
      | ok expected =>
        simp only [compareDigest_of_codeAt hexpected code]
        by_cases hascii : IsAsciiCode code
        · by_cases heq : expected = code
          · simp [hascii, heq]
          · simp [hascii, heq, ih]
        · simp [hascii]

/-- White space at the ends of a code does not matter. -/
lemma bareCode_stripSpace (env : FactorEnv) (code : Text) :
    bareCode env (stripSpace env code) = bareCode env code := by
  have hfront : ∀ text : Text, bareCode env (text.dropWhile env.isSpace) = bareCode env text := by
    intro text
    induction text with
    | nil => rfl
    | cons c rest ih =>
      by_cases hc : env.isSpace c = true
      · rw [List.dropWhile_cons_of_pos hc, ih]
        simp [bareCode, hc]
      · rw [List.dropWhile_cons_of_neg hc]
  have hback : ∀ text : Text, bareCode env (text.rdropWhile env.isSpace) = bareCode env text := by
    intro text
    have h := congrArg List.reverse (hfront text.reverse)
    simpa [bareCode, List.rdropWhile, List.filter_reverse] using h
  rw [stripSpace, hback, hfront]

lemma matchingStep_eq (env : FactorEnv) (secret code : Text) (lastStep : Option ℤ) (now : ℤ) :
    matchingStep env secret code lastStep now =
      if (bareCode env code).length ≠ digits ∨ ¬(bareCode env code).all env.isDigit then .ok none
      else firstMatch env secret (bareCode env code) lastStep (candidates now) := rfl

lemma matchingStep_answers_iff (env : FactorEnv) (secret code : Text) (user : FactorRow)
    (now : ℤ) :
    (∃ found, matchingStep env secret code user.totpLastStep now = .ok found) ↔
      ((bareCode env code).length = digits → (bareCode env code).all env.isDigit = true →
        Comparable env secret (bareCode env code) (unusedSteps user now)) := by
  rw [matchingStep_eq]
  by_cases hshape : (bareCode env code).length ≠ digits ∨ ¬(bareCode env code).all env.isDigit
  · rw [if_pos hshape]
    refine iff_of_true ⟨none, rfl⟩ fun hlength hall => ?_
    rcases hshape with hne | hne
    · exact absurd hlength hne
    · exact absurd hall hne
  · rw [if_neg hshape]
    obtain ⟨hlength, hall⟩ := not_or.mp hshape
    refine (firstMatch_answers_iff env secret _ user.totpLastStep _).trans ?_
    exact ⟨fun h _ _ => h, fun h => h (not_not.mp hlength) (not_not.mp hall)⟩

/-- A check raises exactly when the code cannot be checked. -/
lemma checkSecondFactor_answers_iff (env : FactorEnv) (user : FactorRow) (code : Text) (now : ℤ)
    (stored : FactorRow) :
    (∃ answer, (checkSecondFactor env user code now stored).1 = .ok answer) ↔
      CanBeChecked env user code now := by
  rw [checkSecondFactor.eq_def, CanBeChecked]
  cases user.totpEnabled with
  | false => simp
  | true =>
    cases hstored : user.totpSecret with
    | none => simp
    | some encrypted =>
      dsimp only
      cases hlooks : looksLikeRecoveryCode env (stripSpace env code) with
      | true =>
        rw [if_pos rfl, FactorRow.useRecoveryCode]
        split_ifs <;> simp
      | false =>
        rw [if_neg Bool.false_ne_true]
        cases hsecret : env.decryptSecret encrypted with
        | none => simp [hsecret]
        | some secret =>
          have hmatching := matchingStep_answers_iff env secret (stripSpace env code) user now
          rw [bareCode_stripSpace] at hmatching
          simp only [Option.mem_some_iff, forall_eq', hsecret, Option.some.injEq,
            exists_eq_left', forall_const, ← hmatching]
          cases matchingStep env secret (stripSpace env code) user.totpLastStep now with
          | error fault => simp
          | ok found =>
            refine iff_of_true ?_ ⟨found, rfl⟩
            cases found with
            | none => exact ⟨none, rfl⟩
            | some step =>
              dsimp only
              rcases stored.claimTotpStep step with ⟨_ | _, after⟩ <;> exact ⟨_, rfl⟩

lemma length_of_matchingStep {env : FactorEnv} {secret code : Text} {lastStep : Option ℤ}
    {now step : ℤ} (h : matchingStep env secret code lastStep now = .ok (some step)) :
    (bareCode env code).length = digits := by
  by_contra hlength
  rw [matchingStep_eq, if_pos (Or.inl hlength)] at h
  exact absurd h (by simp)

/-- The step that is accepted was found for the stored secret. -/
lemma matched_of_accepted {env : FactorEnv} {user : FactorRow} {code : Text} {now step : ℤ}
    {stored : FactorRow}
    (h : (checkSecondFactor env user code now stored).1 = .ok (some (.totp step))) :
    ∃ encrypted secret, user.totpSecret = some encrypted ∧
      env.decryptSecret encrypted = some secret ∧
      matchingStep env secret (stripSpace env code) user.totpLastStep now = .ok (some step) := by
  rw [checkSecondFactor.eq_def] at h
  cases henabled : user.totpEnabled with
  | false => simp [henabled] at h
  | true =>
    cases hstored : user.totpSecret with
    | none => simp [henabled, hstored] at h
    | some encrypted =>
      simp only [henabled, hstored] at h
      split_ifs at h with hlooks
      · rw [FactorRow.useRecoveryCode] at h
        split_ifs at h <;> simp at h
      · cases hsecret : env.decryptSecret encrypted with
        | none => simp [hsecret] at h
        | some secret =>
          refine ⟨encrypted, secret, rfl, hsecret, ?_⟩
          simp only [hsecret] at h
          rcases hmatching : matchingStep env secret (stripSpace env code) user.totpLastStep now
            with fault | _ | found
          · simp [hmatching] at h
          · simp [hmatching] at h
          · simp only [hmatching] at h
            rcases hclaim : stored.claimTotpStep found with ⟨_ | _, after⟩
            · simp [hclaim] at h
            · rw [hclaim] at h
              simp only [Except.ok.injEq, Option.some.injEq, Factor.totp.injEq] at h
              rw [h]

/-- An accepted code is that of the step. -/
lemma isCodeOf_of_accepted {env : FactorEnv} {user : FactorRow} {code : Text} {now step : ℤ}
    {stored : FactorRow}
    (h : (checkSecondFactor env user code now stored).1 = .ok (some (.totp step))) :
    IsCodeOf env user code now step := by
  obtain ⟨encrypted, secret, hstored, hsecret, hmatching⟩ := matched_of_accepted h
  have hlength := length_of_matchingStep hmatching
  obtain ⟨hwindow, hlater, hvalue⟩ := matchingStep_ok hmatching
  change codeAt env secret step = .ok (bareCode env (stripSpace env code)) at hvalue
  rw [bareCode_stripSpace] at hlength hvalue
  exact ⟨hlength, isDigit_of_codeAt hvalue, ⟨encrypted, secret, hstored, hsecret, hvalue⟩,
    hwindow, hlater⟩

/-! ## Counting -/

namespace Challenges

lemma find_pop (cs : Challenges) (token : Text) : (cs.pop token).find token = none := by
  rw [find, List.find?_eq_none]
  intro c hc
  have hne : c.token ≠ token := of_decide_eq_true (List.mem_filter.mp hc).2
  simpa using hne

/-- A wrong code is counted for its challenge. -/
lemma find_failed {cs : Challenges} {token : Text} {c : Challenge} (h : cs.find token = some c) :
    (cs.failed token).find token =
      if challengeMaxAttempts ≤ c.attempts + 1 then none
      else some { c with attempts := c.attempts + 1 } := by
  have htoken : c.token = token := by simpa using List.find?_some h
  rw [failed, h]
  dsimp only
  split_ifs with hmax
  · exact find_pop cs token
  · have hnone := find_pop cs token
    rw [find] at hnone ⊢
    rw [List.find?_append, hnone]
    simp [htoken]

lemma find_of_userFor {cs : Challenges} {token : Text} {now : ℤ} {c : Challenge}
    (h : (cs.userFor token now).1 = some c) :
    cs.find token = some c ∧ now < c.expires ∧ (cs.userFor token now).2 = cs := by
  rw [userFor] at h ⊢
  cases hfind : cs.find token with
  | none => simp [hfind] at h
  | some found =>
    simp only [hfind] at h ⊢
    split_ifs at h ⊢ with hexpired
    · obtain rfl := Option.some.inj h
      exact ⟨rfl, not_le.mp hexpired, rfl⟩

end Challenges

lemma challenged_eq {s : SignInState} {a : Attempt} {mfaToken : Text} {c : Challenge}
    {user : UserRow} (h : challenged s a mfaToken = some (c, user)) :
    (s.challenges.userFor mfaToken a.start).1 = some c ∧ s.users.row c.userId = some user := by
  obtain ⟨found, hfound, hmap⟩ := Option.bind_eq_some_iff.mp h
  obtain ⟨row, hrow, hpair⟩ := Option.map_eq_some_iff.mp hmap
  obtain ⟨rfl, rfl⟩ := Prod.mk.inj hpair
  exact ⟨hfound, hrow⟩

lemma counted_of_refused {env : SignInEnv} {s : SignInState} {a : Attempt} {mfaToken code : Text}
    {wall : ℤ} {c : Challenge} {user : UserRow} (sessionToken : Text)
    (hthrough : s.LetThrough env a) (hchallenged : challenged s a mfaToken = some (c, user))
    (hrefused : (checkSecondFactor env.toFactorEnv user.factor code wall user.factor).1 =
      .ok none) :
    (loginSecondFactor env s a mfaToken code wall sessionToken).2 =
      { ((s.checked env a).failed env a) with challenges := s.challenges.failed mfaToken } := by
  obtain ⟨hfound, -⟩ := challenged_eq hchallenged
  obtain ⟨-, -, hremaining⟩ := Challenges.find_of_userFor hfound
  rw [loginSecondFactor, if_neg (not_not.mpr hthrough)]
  dsimp only
  rw [hchallenged, hremaining]
  dsimp only
  rcases hcheck : checkSecondFactor env.toFactorEnv user.factor code wall user.factor with
    ⟨answer, factor⟩
  rw [hcheck] at hrefused
  obtain rfl : answer = .ok none := hrefused
  rfl

/-- A character of the class of digits: the ASCII ones and the Arabic-Indic ones. -/
def isUnicodeDigit (c : Char) : Bool := c.isDigit || decide (1632 ≤ c.toNat ∧ c.toNat ≤ 1641)

def unicodeSignIn : SignInEnv :=
  { sampleSignIn with
    isDigit := isUnicodeDigit
    isAlnum := fun c => c.isAlpha || isUnicodeDigit c }

/-- The account with a second factor. -/
def factorUsers : Users :=
  sampleUsers.modify 1 (withFactor sampleRow) (keepsKeys_withFactor sampleRow)

/-- Its password was accepted, and the code is pending. -/
def pendingState : SignInState :=
  (login unicodeSignIn (.start factorUsers none 0) (attemptAt 1) "operator".toList
    "right".toList "challenge".toList "session".toList).2

/-- The open challenge. -/
def pendingChallenge : Challenge where
  token := "challenge".toList
  userId := 1
  expires := 301 * second
  attempts := 0
  password := "right".toList

def factorUser : UserRow where
  id := 1
  username := "operator".toList
  passwordHash := "scrypt$right".toList
  isAdmin := false
  role := .operator
  oidcSubject := none
  createdAt := 0
  factor := sampleRow

end Habeny.Auth
