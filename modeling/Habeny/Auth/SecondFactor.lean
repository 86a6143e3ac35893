import Habeny.Lib.Text
import Habeny.Lib.Transition
import Mathlib.Algebra.Ring.Int.Defs
import Mathlib.Algebra.Ring.Nat
import Mathlib.Data.List.Count
import Mathlib.Order.Defs.LinearOrder

/-!
# The second factor

A check of a second factor works on a user row that was read earlier, perhaps before other
checks have committed.  A recovery code is looked up and removed in one transaction.  An
authenticator code is matched against the time steps around now that the row has not used, and
the step is then claimed by a conditional update: it must be later than the last step that the
database has now.

Whatever rows the checks work on, the accepted time steps increase, and the recovery codes that
are accepted are used up one by one.
-/

namespace Habeny.Auth

open Habeny.Lib

/-- What the check takes from elsewhere: the character classes of the language, the hash of
recovery codes, the decryption of a stored secret, and the truncated HMAC of a step under a
secret.  Decryption and a malformed secret may fail. -/
structure FactorEnv where
  isSpace : Char → Bool
  isDigit : Char → Bool
  isAlnum : Char → Bool
  lower : Text → Text
  sha256 : Text → Text
  decryptSecret : Text → Option Text
  truncatedHmac : Text → ℕ → Option ℕ

/-- The columns of a user row that concern the second factor. -/
structure FactorRow where
  totpEnabled : Bool
  totpSecret : Option Text
  totpLastStep : Option ℤ
  recoveryCodes : Option (List Text)
  deriving DecidableEq

/-- Why a check raises instead of answering. -/
inductive FactorFault where
  | secret
  | stepRange
  | notAscii
  deriving DecidableEq

/-- An accepted factor, with what its acceptance uses up. -/
inductive Factor where
  | totp (step : ℤ)
  | recovery (codeHash : Text)
  deriving DecidableEq

/-- What the check returns for it. -/
def Factor.method : Factor → Text
  | .totp _ => "totp".toList
  | .recovery _ => "recovery".toList

def digits : ℕ := 6
def period : ℤ := 30
def driftSteps : ℕ := 1

/-! ## Time steps -/

/-- A number in decimal with at least `width` digits (`str(n).zfill(width)`). -/
def zfill (width n : ℕ) : Text :=
  let text := Nat.toDigits 10 n
  List.replicate (width - text.length) '0' ++ text

/-- The code of a time step (`_code_at`).  A step has to fit into eight bytes. -/
def codeAt (env : FactorEnv) (secret : Text) (step : ℤ) : Except FactorFault Text :=
  if step < 0 ∨ 2 ^ 64 ≤ step then .error .stepRange
  else
    match env.truncatedHmac secret step.toNat with
    | none => .error .secret
    | some value => .ok (zfill digits (value % 10 ^ digits))

/-- `hmac.compare_digest` on texts: only ASCII texts are compared. -/
def compareDigest (a b : Text) : Except FactorFault Bool :=
  if (a ++ b).all fun c => decide (c.val < 128) then .ok (decide (a = b)) else .error .notAscii

/-- The time step of a time in seconds. -/
def currentStep (now : ℤ) : ℤ := now / period

/-- The steps whose code is looked at: the current one and those around it. -/
def candidates (now : ℤ) : List ℤ :=
  (List.range (2 * driftSteps + 1)).map fun i : ℕ => currentStep now - driftSteps + i

/-- The first step, later than the last used one, that has this code. -/
def firstMatch (env : FactorEnv) (secret code : Text) (lastStep : Option ℤ) :
    List ℤ → Except FactorFault (Option ℤ)
  | [] => .ok none
  | candidate :: rest =>
    if lastStep.any fun last => decide (candidate ≤ last) then
      firstMatch env secret code lastStep rest
    else
      match codeAt env secret candidate with
      | .error fault => .error fault
      | .ok expected =>
        match compareDigest expected code with
        | .error fault => .error fault
        | .ok true => .ok (some candidate)
        | .ok false => firstMatch env secret code lastStep rest

/-- The time step a code is valid for, if there is one. -/
def matchingStep (env : FactorEnv) (secret code : Text) (lastStep : Option ℤ) (now : ℤ) :
    Except FactorFault (Option ℤ) :=
  let code := code.filter fun c => !env.isSpace c
  if code.length ≠ digits ∨ ¬code.all env.isDigit then .ok none
  else firstMatch env secret code lastStep (candidates now)

/-! ## Recovery codes -/

def normalizeRecovery (env : FactorEnv) (code : Text) : Text := (env.lower code).filter env.isAlnum

def hashRecoveryCode (env : FactorEnv) (code : Text) : Text := env.sha256 (normalizeRecovery env code)

def looksLikeRecoveryCode (env : FactorEnv) (code : Text) : Bool :=
  decide ((normalizeRecovery env code).length = 10)

/-! ## The transactions -/

namespace FactorRow

/-- No second factor. -/
def off : FactorRow :=
  { totpEnabled := false, totpSecret := none, totpLastStep := none, recoveryCodes := none }

/-- The hashes of the recovery codes that are left. -/
def codes (r : FactorRow) : List Text := r.recoveryCodes.getD []

/-- Record a used code's time step, unless it or a later one is recorded already. -/
def claimTotpStep (r : FactorRow) (step : ℤ) : Bool × FactorRow :=
  if ∀ last ∈ r.totpLastStep, last < step then (true, { r with totpLastStep := some step })
  else (false, r)

def setRecoveryCodes (r : FactorRow) (hashes : List Text) : FactorRow :=
  { r with recoveryCodes := some hashes }

/-- Consume a recovery code, if it is one of the unused ones. -/
def useRecoveryCode (r : FactorRow) (codeHash : Text) : Bool × FactorRow :=
  if codeHash ∈ r.codes then (true, { r with recoveryCodes := some (r.codes.erase codeHash) })
  else (false, r)

end FactorRow

/-- `str.strip`. -/
def stripSpace (env : FactorEnv) (code : Text) : Text :=
  (code.dropWhile env.isSpace).rdropWhile env.isSpace

/-- Verify a code for the user row `user`, read earlier, at a time when the database has the row
`stored`: the accepted factor if there is one, and the row after it. -/
def checkSecondFactor (env : FactorEnv) (user : FactorRow) (code : Text) (now : ℤ)
    (stored : FactorRow) : Except FactorFault (Option Factor) × FactorRow :=
  match user.totpEnabled, user.totpSecret with
  | true, some encrypted =>
    let code := stripSpace env code
    if looksLikeRecoveryCode env code then
      match stored.useRecoveryCode (hashRecoveryCode env code) with
      | (true, after) => (.ok (some (.recovery (hashRecoveryCode env code))), after)
      | (false, after) => (.ok none, after)
    else
      match env.decryptSecret encrypted with
      | none => (.error .secret, stored)
      | some secret =>
        match matchingStep env secret code user.totpLastStep now with
        | .error fault => (.error fault, stored)
        | .ok none => (.ok none, stored)
        | .ok (some step) =>
          match stored.claimTotpStep step with
          | (true, after) => (.ok (some (.totp step)), after)
          | (false, after) => (.ok none, after)
  | _, _ => (.ok none, stored)

/-! ## What a check does -/

/-- A matched step is one of those looked at, it is later than the last used one, and its code
is the one that was given. -/
lemma firstMatch_ok {env : FactorEnv} {secret code : Text} {lastStep : Option ℤ} {steps : List ℤ}
    {step : ℤ} (h : firstMatch env secret code lastStep steps = .ok (some step)) :
    step ∈ steps ∧ (∀ last ∈ lastStep, last < step) ∧ codeAt env secret step = .ok code := by
  induction steps with
  | nil => exact absurd h (by simp [firstMatch])
  | cons candidate rest ih =>
    have hrest : firstMatch env secret code lastStep rest = .ok (some step) →
        step ∈ candidate :: rest ∧ (∀ last ∈ lastStep, last < step) ∧
          codeAt env secret step = .ok code := by
      intro hr
      obtain ⟨hmem, hlast, hcode⟩ := ih hr
      exact ⟨List.mem_cons_of_mem _ hmem, hlast, hcode⟩
    rw [firstMatch] at h
    -- a step that was used is passed over, and so is one with another code
    split_ifs at h with hused
    · exact hrest h
    · cases hexpected : codeAt env secret candidate with
      | error fault => simp [hexpected] at h
      | ok expected =>
        rw [hexpected] at h
        by_cases hascii : (expected ++ code).all fun c => decide (c.val < 128)
        · by_cases heq : expected = code
          · subst heq
            simp only [compareDigest, if_pos hascii, decide_true, Except.ok.injEq,
              Option.some.injEq] at h
            subst h
            refine ⟨List.mem_cons_self, fun last hmem => ?_, hexpected⟩
            simpa [Option.mem_def.mp hmem] using hused
          · simp only [compareDigest, if_pos hascii, decide_eq_false heq] at h
            exact hrest h
        · simp only [compareDigest, if_neg hascii] at h
          exact absurd h (by simp)

/-- A code is valid only for a step within the drift of now whose code it is. -/
lemma matchingStep_ok {env : FactorEnv} {secret code : Text} {lastStep : Option ℤ} {now step : ℤ}
    (h : matchingStep env secret code lastStep now = .ok (some step)) :
    (currentStep now - driftSteps ≤ step ∧ step ≤ currentStep now + driftSteps) ∧
      (∀ last ∈ lastStep, last < step) ∧
      codeAt env secret step = .ok (code.filter fun c => !env.isSpace c) := by
  simp only [matchingStep] at h
  split_ifs at h with hshape
  · exact absurd h (by simp)
  · obtain ⟨hmem, hlast, hcode⟩ := firstMatch_ok h
    obtain ⟨i, hi, rfl⟩ := List.mem_map.mp hmem
    have hi : i < 2 * driftSteps + 1 := List.mem_range.mp hi
    have hdrift : driftSteps = 1 := rfl
    exact ⟨⟨by omega, by omega⟩, hlast, hcode⟩

/-- The ways in which a check changes the row that the database has. -/
inductive Checked (stored : FactorRow) : Except FactorFault (Option Factor) → FactorRow → Prop
  | fault (e : FactorFault) : Checked stored (.error e) stored
  | refused : Checked stored (.ok none) stored
  | totp (step : ℤ) (h : ∀ last ∈ stored.totpLastStep, last < step) :
      Checked stored (.ok (some (.totp step))) { stored with totpLastStep := some step }
  | recovery (codeHash : Text) (h : codeHash ∈ stored.codes) :
      Checked stored (.ok (some (.recovery codeHash)))
        { stored with recoveryCodes := some (stored.codes.erase codeHash) }

lemma checkSecondFactor_checked (env : FactorEnv) (user : FactorRow) (code : Text) (now : ℤ)
    (stored : FactorRow) :
    Checked stored (checkSecondFactor env user code now stored).1
      (checkSecondFactor env user code now stored).2 := by
  unfold checkSecondFactor
  rcases user.totpEnabled with _ | _
  · exact .refused
  · rcases user.totpSecret with _ | encrypted
    · exact .refused
    · simp only
      split_ifs with hlooks
      · unfold FactorRow.useRecoveryCode
        split_ifs with hmem
        · exact .recovery _ hmem
        · exact .refused
      · rcases env.decryptSecret encrypted with _ | secret
        · exact .fault _
        · simp only
          rcases matchingStep env secret _ user.totpLastStep now with fault | _ | step
          · exact .fault _
          · exact .refused
          · simp only [FactorRow.claimTotpStep]
            -- the row in the database decides, not the one that was read
            split_ifs with hlast
            · exact .totp step hlast
            · exact .refused

/-! ## Runs -/

/-- What happens to the codes of a user: a check with some row that was read before, at some
time, or new recovery codes. -/
inductive FactorAction where
  | check (user : FactorRow) (code : Text) (now : ℤ)
  | replaceCodes (codes : List Text)

/-- What has happened: an acceptance, or new recovery codes (their hashes). -/
inductive FactorEvent where
  | accepted (factor : Factor)
  | replaced (hashes : List Text)
  deriving DecidableEq

/-- The row in the database and what has happened, newest first. -/
structure FactorState where
  row : FactorRow
  events : List FactorEvent

namespace FactorState

def start (row : FactorRow) : FactorState := { row, events := [] }

/-- Record the answer of a check. -/
def answered (s : FactorState) (answer : Except FactorFault (Option Factor)) (row : FactorRow) :
    FactorState :=
  match answer with
  | .ok (some factor) => { row, events := .accepted factor :: s.events }
  | _ => { s with row }

def step (env : FactorEnv) (s : FactorState) : FactorAction → Option FactorState
  | .check user code now =>
    some (s.answered (checkSecondFactor env user code now s.row).1
      (checkSecondFactor env user code now s.row).2)
  | .replaceCodes codes =>
    let hashes := codes.map (hashRecoveryCode env)
    some { row := s.row.setRecoveryCodes hashes, events := .replaced hashes :: s.events }

end FactorState

/-- The accepted time steps, newest first. -/
def acceptedSteps : List FactorEvent → List ℤ
  | [] => []
  | .accepted (.totp step) :: events => step :: acceptedSteps events
  | _ :: events => acceptedSteps events

/-- The hashes of the accepted recovery codes, newest first. -/
def acceptedCodes : List FactorEvent → List Text
  | [] => []
  | .accepted (.recovery codeHash) :: events => codeHash :: acceptedCodes events
  | _ :: events => acceptedCodes events

/-- Those since recovery codes were replaced the last time. -/
def acceptedSince : List FactorEvent → List Text
  | [] => []
  | .replaced _ :: _ => []
  | .accepted (.recovery codeHash) :: events => codeHash :: acceptedSince events
  | .accepted (.totp _) :: events => acceptedSince events

/-- The recovery codes in force: those of the last replacement, or the first ones. -/
def inForce (first : List Text) : List FactorEvent → List Text
  | [] => first
  | .replaced hashes :: _ => hashes
  | .accepted _ :: events => inForce first events

/-- All recovery codes there have been. -/
def everIssued (first : List Text) : List FactorEvent → List Text
  | [] => first
  | .replaced hashes :: events => hashes ++ everIssued first events
  | .accepted _ :: events => everIssued first events

/-- What the row says about what has happened: the last step is the last accepted one, and a
recovery code in force is either left or has been accepted. -/
structure Accounted (first : List Text) (s : FactorState) : Prop where
  increasing : (acceptedSteps s.events).Pairwise (· > ·)
  last_ge : ∀ step ∈ acceptedSteps s.events, ∃ last, s.row.totpLastStep = some last ∧ step ≤ last
  left_or_accepted : ∀ codeHash, (inForce first s.events).count codeHash =
    s.row.codes.count codeHash + (acceptedSince s.events).count codeHash
  issued : ∀ codeHash, s.row.codes.count codeHash + (acceptedCodes s.events).count codeHash ≤
    (everIssued first s.events).count codeHash

lemma accounted_start (row : FactorRow) : Accounted row.codes (.start row) where
  increasing := .nil
  last_ge := fun _ h => absurd h List.not_mem_nil
  left_or_accepted := fun _ => rfl
  issued := fun _ => le_rfl

namespace Accounted

variable {first : List Text} {s : FactorState}

lemma replace (h : Accounted first s) (hashes : List Text) :
    Accounted first
      { row := s.row.setRecoveryCodes hashes, events := .replaced hashes :: s.events } where
  increasing := h.increasing
  last_ge := h.last_ge
  left_or_accepted := fun codeHash => by
    simp [inForce, acceptedSince, FactorRow.setRecoveryCodes, FactorRow.codes]
  issued := fun codeHash => by
    have hold := h.issued codeHash
    simp only [everIssued, acceptedCodes, FactorRow.setRecoveryCodes, FactorRow.codes,
      Option.getD_some, List.count_append] at hold ⊢
    omega

/-- A step later than the last recorded one is later than every accepted one. -/
lemma totp (h : Accounted first s) {step : ℤ} (hlast : ∀ last ∈ s.row.totpLastStep, last < step) :
    Accounted first
      { row := { s.row with totpLastStep := some step },
        events := .accepted (.totp step) :: s.events } where
  increasing := by
    refine List.pairwise_cons.mpr ⟨fun earlier hmem => ?_, h.increasing⟩
    obtain ⟨last, hrow, hle⟩ := h.last_ge earlier hmem
    exact hle.trans_lt (hlast last hrow)
  last_ge := by
    intro earlier hmem
    refine ⟨step, rfl, ?_⟩
    rcases List.mem_cons.mp hmem with rfl | hmem
    · exact le_rfl
    · obtain ⟨last, hrow, hle⟩ := h.last_ge earlier hmem
      exact (hle.trans_lt (hlast last hrow)).le
  left_or_accepted := h.left_or_accepted
  issued := h.issued

/-- A recovery code goes from those left to those accepted. -/
lemma recovery (h : Accounted first s) {codeHash : Text} (hmem : codeHash ∈ s.row.codes) :
    Accounted first
      { row := { s.row with recoveryCodes := some (s.row.codes.erase codeHash) },
        events := .accepted (.recovery codeHash) :: s.events } where
  increasing := h.increasing
  last_ge := h.last_ge
  left_or_accepted := fun other => by
    have hold := h.left_or_accepted other
    have hpos := List.count_pos_iff.mpr hmem
    simp only [inForce, acceptedSince, FactorRow.codes, Option.getD_some, List.count_cons,
      List.count_erase] at hold hpos ⊢
    by_cases heq : codeHash = other
    · subst heq
      simp only [beq_self_eq_true, if_true]
      omega
    · simp only [beq_iff_eq, heq, if_false]
      omega
  issued := fun other => by
    have hold := h.issued other
    have hpos := List.count_pos_iff.mpr hmem
    simp only [everIssued, acceptedCodes, FactorRow.codes, Option.getD_some, List.count_cons,
      List.count_erase] at hold hpos ⊢
    by_cases heq : codeHash = other
    · subst heq
      simp only [beq_self_eq_true, if_true]
      omega
    · simp only [beq_iff_eq, heq, if_false]
      omega

end Accounted

lemma step_accounted {env : FactorEnv} {first : List Text} {s s' : FactorState} {a : FactorAction}
    (hs : Accounted first s) (h : s.step env a = some s') : Accounted first s' := by
  cases a with
  | replaceCodes codes =>
    rw [FactorState.step, Option.some.injEq] at h
    subst h
    exact hs.replace _
  | check user code now =>
    rw [FactorState.step, Option.some.injEq] at h
    subst h
    have hchecked := checkSecondFactor_checked env user code now s.row
    generalize checkSecondFactor env user code now s.row = result at hchecked
    obtain ⟨answer, row⟩ := result
    cases hchecked with
    | fault e => exact hs
    | refused => exact hs
    | totp step hlast => exact hs.totp hlast
    | recovery codeHash hmem => exact hs.recovery hmem

/-- **One-time codes are used once.**  Whatever rows the checks were handed: the accepted time
steps increase; of the recovery codes in force each is accepted at most as often as it was
issued, and no other is accepted; and over all replacements no recovery code is accepted more
often than it was issued. -/
theorem codes_used_once {env : FactorEnv} {row : FactorRow} {as : List FactorAction}
    {s : FactorState} (hrun : Run (FactorState.step env) anyStep (.start row) as s) :
    (acceptedSteps s.events).Pairwise (· > ·) ∧
      (∀ step, (acceptedSteps s.events).count step ≤ 1) ∧
      (∀ codeHash, (acceptedSince s.events).count codeHash ≤
        (inForce row.codes s.events).count codeHash) ∧
      (∀ codeHash ∈ acceptedSince s.events, codeHash ∈ inForce row.codes s.events) ∧
      ∀ codeHash, (acceptedCodes s.events).count codeHash ≤
        (everIssued row.codes s.events).count codeHash := by
  have h : Accounted row.codes s :=
    hrun.invariant (fun hs _ hstep => step_accounted hs hstep) (accounted_start row)
  have hle : ∀ codeHash, (acceptedSince s.events).count codeHash ≤
      (inForce row.codes s.events).count codeHash := fun codeHash => by
    rw [h.left_or_accepted codeHash]
    exact Nat.le_add_left _ _
  refine ⟨h.increasing, fun step => ?_, hle, fun codeHash hmem => ?_, fun codeHash => ?_⟩
  · exact List.nodup_iff_count.mp (h.increasing.imp fun hgt => (ne_of_gt hgt)) step
  · exact List.count_pos_iff.mp ((List.count_pos_iff.mpr hmem).trans_le (hle codeHash))
  · exact (Nat.le_add_left _ _).trans (h.issued codeHash)

/-! ## A code used twice -/

/-- The ASCII characters, the values of one secret for the first steps, and the hashes of two
recovery codes. -/
def sampleEnv : FactorEnv where
  isSpace c := decide (c = ' ')
  isDigit c := c.isDigit
  isAlnum c := c.isAlphanum
  lower text := text.map Char.toLower
  sha256 text :=
    if text = "abcdefghjk".toList then
      "22f3f00d7f9cfe6eeefa9b71bdcb093a9080fcf4981d2dbf932648fa15a2d793".toList
    else "bad9d788a11ebcc56daa3ca2d880abffde40662d37d941502719d3f1c487c81f".toList
  decryptSecret text := some text
  truncatedHmac _ step := [1284755224, 1094287082, 137359152, 1726969429][step]?

/-- A row with one recovery code. -/
def sampleRow : FactorRow where
  totpEnabled := true
  totpSecret := some "GEZDGNBVGY3TQOJQGEZDGNBVGY3TQOJQ".toList
  totpLastStep := none
  recoveryCodes := some [hashRecoveryCode sampleEnv "abcde-fghjk".toList]

/-- Each code is sent twice with the row that was read first, and the recovery code once more
after it has been replaced. -/
def sampleChecks : List FactorAction :=
  [.check sampleRow "287 082".toList 59, .check sampleRow "287082".toList 61,
   .check sampleRow "ABCDE-FGHJK".toList 62, .check sampleRow "abcdefghjk".toList 63,
   .replaceCodes ["bcdef-ghjkm".toList], .check sampleRow "abcde-fghjk".toList 64]

/-- The state that they lead to. -/
def sampleState : FactorState where
  row := { sampleRow with
    totpLastStep := some 1
    recoveryCodes := some [hashRecoveryCode sampleEnv "bcdef-ghjkm".toList] }
  events :=
    [.replaced [hashRecoveryCode sampleEnv "bcdef-ghjkm".toList],
     .accepted (.recovery (hashRecoveryCode sampleEnv "abcde-fghjk".toList)),
     .accepted (.totp 1)]

lemma sampleRun : Run (FactorState.step sampleEnv) anyStep (.start sampleRow) sampleChecks
    sampleState :=
  run_of_exec rfl

theorem codes_used_once_sample :
    (acceptedSteps sampleState.events).Pairwise (· > ·) ∧
      (∀ step, (acceptedSteps sampleState.events).count step ≤ 1) ∧
      ∀ codeHash, (acceptedCodes sampleState.events).count codeHash ≤
        (everIssued sampleRow.codes sampleState.events).count codeHash :=
  ⟨(codes_used_once sampleRun).1, (codes_used_once sampleRun).2.1,
    (codes_used_once sampleRun).2.2.2.2⟩

end Habeny.Auth
