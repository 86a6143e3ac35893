import Habeny.Auth.Accounts
import Habeny.Licensing.Status

/-!
# The trial and the users table

The start of the trial is not stored: it is the day on which the oldest row of the users table
was created.  New rows are created no earlier than the rows that are there, and a change of a
role keeps the time of creation; a deletion may take the oldest row away, and then the trial
starts anew with the next one.  Where an account is deleted only while another one is as old
(`KeepsOldest`), the trial ends on the day that the first account set.
-/

namespace Habeny.Licensing

open Habeny.Lib Habeny.Auth

/-- The day of a time in microseconds. -/
def dayOf (time : ℤ) : ℤ := time / 86400000000

lemma dayOf_le {t t' : ℤ} (h : t ≤ t') : dayOf t ≤ dayOf t' :=
  Int.ediv_le_ediv (by decide) h

/-- The day of the first account (`_trial_start`): of the least time of creation. -/
def trialStart (u : Users) : Option ℤ := (u.rows.map UserRow.createdAt).min?.map dayOf

/-- What the licensing state depends on at a time, on a server without an installed licence. -/
def unlicensed (enforced : Bool) (serverId : Text) (u : Users) (time : ℤ) : Server :=
  { enforced, serverId, licenseFile := none, trialStart := trialStart u, today := dayOf time }

/-- The day on which the trial ends (`trial_ends`). -/
def trialEnds (s : Server) : ℤ := s.trialStart.getD s.today + trialDays

/-- An account is deleted only while there is another one that was created on the same day or
earlier.  (A deletion that is refused deletes nothing.) -/
def KeepsOldest (s : Accounts) (a : AccountAction) : Prop :=
  ∀ id, a.operation = some (.deleteUser id) → s.users.isLastAdmin id = false →
    ∀ r ∈ s.users.rows, r.id = id →
      ∃ r' ∈ s.users.rows, r'.id ≠ id ∧ dayOf r'.createdAt ≤ dayOf r.createdAt

/-- Times do not go back. -/
def InOrder (s : Accounts) (a : AccountAction) : Prop := s.now ≤ a.time

instance (s : Accounts) (a : AccountAction) : Decidable (InOrder s a) :=
  inferInstanceAs (Decidable (s.now ≤ a.time))

/-- No row is from the future. -/
def Dated (s : Accounts) : Prop := ∀ r ∈ s.users.rows, r.createdAt ≤ s.now

/-! ## The first day -/

/-- The trial starts on the earliest day on which a row was created. -/
lemma trialStart_eq_some_iff {u : Users} {d : ℤ} :
    trialStart u = some d ↔
      (∃ r ∈ u.rows, dayOf r.createdAt = d) ∧ ∀ r ∈ u.rows, d ≤ dayOf r.createdAt := by
  have hmin : ∀ {t : ℤ}, (u.rows.map UserRow.createdAt).min? = some t ↔
      t ∈ u.rows.map UserRow.createdAt ∧ ∀ b ∈ u.rows.map UserRow.createdAt, t ≤ b :=
    List.min?_eq_some_iff
  unfold trialStart
  constructor
  · intro h
    obtain ⟨t, ht, rfl⟩ := Option.map_eq_some_iff.mp h
    obtain ⟨hmem, hle⟩ := hmin.mp ht
    obtain ⟨r, hr, rfl⟩ := List.mem_map.mp hmem
    exact ⟨⟨r, hr, rfl⟩, fun r' hr' => dayOf_le (hle _ (List.mem_map_of_mem hr'))⟩
  · rintro ⟨⟨r, hr, rfl⟩, hle⟩
    cases ht : (u.rows.map UserRow.createdAt).min? with
    | none =>
      rw [List.min?_eq_none_iff, List.map_eq_nil_iff] at ht
      rw [ht] at hr
      exact absurd hr List.not_mem_nil
    | some t =>
      obtain ⟨hmem, hlet⟩ := hmin.mp ht
      obtain ⟨r', hr', rfl⟩ := List.mem_map.mp hmem
      have h₁ := hle r' hr'
      have h₂ := dayOf_le (hlet _ (List.mem_map_of_mem hr))
      exact congrArg some (le_antisymm h₂ h₁)

lemma exists_trialStart {u : Users} (h : u.rows ≠ []) : ∃ d, trialStart u = some d := by
  cases ht : trialStart u with
  | some d => exact ⟨d, rfl⟩
  | none =>
    rw [trialStart, Option.map_eq_none_iff, List.min?_eq_none_iff, List.map_eq_nil_iff] at ht
    exact absurd ht h

/-! ## Steps -/

lemma step_dated {s s' : Accounts} {a : AccountAction} (hs : Dated s) (horder : InOrder s a)
    (h : s.step a = some s') : Dated s' := by
  have hle : s.now ≤ a.time := horder
  rcases Accounts.step_cases h with ⟨-, rfl⟩ | ⟨op, -, rfl⟩
  · exact fun r hr => (hs r hr).trans hle
  · intro r hr
    change r ∈ (op.run a.time s.users).2.rows at hr
    change r.createdAt ≤ a.time
    cases Accounts.run_change op a.time s.users with
    | none hsame => exact (hs r (hsame ▸ hr)).trans hle
    | insert n hrole htime hrows =>
      rw [hrows, List.mem_append, List.mem_singleton] at hr
      rcases hr with hr | rfl
      · exact (hs r hr).trans hle
      · exact htime.le
    | setRole id role hlast hupdate =>
      rw [hupdate] at hr
      obtain ⟨r₀, hr₀, rfl⟩ := List.mem_map.mp hr
      rw [Users.writeAt_withRole_createdAt]
      exact (hs r₀ hr₀).trans hle
    | remove id hop hlast hremove =>
      rw [hremove] at hr
      exact (hs r (Users.mem_others.mp hr).1).trans hle

/-- A step that keeps the oldest account, or one as old, keeps the first day. -/
lemma step_trialStart {s s' : Accounts} {a : AccountAction} {d : ℤ} (hs : Dated s)
    (horder : InOrder s a) (hkeeps : KeepsOldest s a) (hd : trialStart s.users = some d)
    (h : s.step a = some s') : trialStart s'.users = some d := by
  have hle : s.now ≤ a.time := horder
  rcases Accounts.step_cases h with ⟨-, rfl⟩ | ⟨op, hop, rfl⟩
  · exact hd
  · change trialStart (op.run a.time s.users).2 = some d
    obtain ⟨⟨r, hr, hrd⟩, hleast⟩ := trialStart_eq_some_iff.mp hd
    rw [trialStart_eq_some_iff]
    cases Accounts.run_change op a.time s.users with
    | none hsame =>
      rw [hsame]
      exact ⟨⟨r, hr, hrd⟩, hleast⟩
    | insert n hrole htime hrows =>
      rw [hrows]
      refine ⟨⟨r, List.mem_append_left _ hr, hrd⟩, fun r' hr' => ?_⟩
      rcases List.mem_append.mp hr' with hr' | hr'
      · exact hleast r' hr'
      · -- the new row is from now, and the old ones are no later
        have hnew : r'.createdAt = a.time := by
          rw [List.mem_singleton.mp hr']
          exact htime
        have hday := dayOf_le ((hs r hr).trans (hle.trans hnew.ge))
        rwa [hrd] at hday
    | setRole id role hlast hupdate =>
      rw [hupdate]
      refine ⟨⟨_, List.mem_map_of_mem hr, ?_⟩, fun r' hr' => ?_⟩
      · rw [Users.writeAt_withRole_createdAt]
        exact hrd
      · obtain ⟨r₀, hr₀, rfl⟩ := List.mem_map.mp hr'
        rw [Users.writeAt_withRole_createdAt]
        exact hleast r₀ hr₀
    | remove id hdelete hlast hremove =>
      rw [hremove]
      refine ⟨?_, fun r' hr' => hleast r' (Users.mem_others.mp hr').1⟩
      by_cases hid : r.id = id
      · -- the row that set the first day goes, and one as old remains
        obtain ⟨r', hr', hid', hday⟩ := hkeeps id (hdelete ▸ hop) hlast r hr hid
        refine ⟨r', Users.mem_others.mpr ⟨hr', hid'⟩, le_antisymm ?_ (hleast r' hr')⟩
        exact hday.trans_eq hrd
      · exact ⟨r, Users.mem_others.mpr ⟨hr, hid⟩, hrd⟩

/-- A deletion that does not keep it moves the first day later, or leaves no account. -/
lemma trialStart_moves {s s' : Accounts} {a : AccountAction} (hmoves : ¬KeepsOldest s a)
    (h : s.step a = some s') {d d' : ℤ} (hd : trialStart s.users = some d)
    (hd' : trialStart s'.users = some d') : d < d' := by
  simp only [KeepsOldest, not_forall, not_exists, not_and, not_le] at hmoves
  obtain ⟨id, hop, hlast, r, hr, hid, hlater⟩ := hmoves
  have hgone : s'.users = s.users.remove id := by
    rcases Accounts.step_cases h with ⟨hnone, -⟩ | ⟨op, hop', rfl⟩
    · exact absurd (hnone.symm.trans hop) (by simp)
    · rw [hop', Option.some.injEq] at hop
      subst hop
      simp [Accounts.operate, UserOp.run, Users.deleteUser, hlast]
  rw [hgone] at hd'
  obtain ⟨⟨r', hr', rfl⟩, -⟩ := trialStart_eq_some_iff.mp hd'
  obtain ⟨hr', hid'⟩ := Users.mem_others.mp hr'
  exact ((trialStart_eq_some_iff.mp hd).2 r hr).trans_lt (hlater r' hr' hid')

/-! ## Runs -/

/-- The steps of the runs below. -/
def KeepsTrial (s : Accounts) (a : AccountAction) : Prop := InOrder s a ∧ KeepsOldest s a

variable {s s' : Accounts} {as bs : List AccountAction}

lemma run_dated (hrun : Run Accounts.step InOrder s as s') (hs : Dated s) : Dated s' :=
  hrun.invariant (fun hs horder hstep => step_dated hs horder hstep) hs

lemma run_trialStart {d : ℤ} (hrun : Run Accounts.step KeepsTrial s as s') (hs : Dated s)
    (hd : trialStart s.users = some d) : trialStart s'.users = some d := by
  have hkept : Dated s' ∧ trialStart s'.users = some d :=
    hrun.invariant (P := fun s => Dated s ∧ trialStart s.users = some d)
      (fun hs hk hstep => ⟨step_dated hs.1 hk.1 hstep, step_trialStart hs.1 hk.1 hk.2 hs.2 hstep⟩)
      ⟨hs, hd⟩
  exact hkept.2

lemma dated_start (now : ℤ) : Dated (Accounts.start now) :=
  fun _ hr => absurd hr List.not_mem_nil

/-- Without a licence, new work is refused exactly while the trial is over. -/
lemma unlicensed_allows_iff {enforced : Bool} {serverId : Text} {u : Users} {time : ℤ} :
    (statusInfo (unlicensed enforced serverId u time)).allowsNewWork = true ↔
      enforced = false ∨ dayOf time ≤ trialEnds (unlicensed enforced serverId u time) :=
  statusInfo_allowsNewWork_iff _

/-- **The trial is not extended**, in every run in which no account is deleted that was created
before all the others: once there is an account the day on which the trial ends does not move
later, and where new work is refused because the trial is over, every later request for new
work is refused. -/
theorem trial_not_extended (enforced : Bool) (serverId : Text) {now : ℤ}
    (hbefore : Run Accounts.step KeepsTrial (Accounts.start now) as s)
    (hrun : Run Accounts.step KeepsTrial s bs s') {t t' : ℤ} (htime : t ≤ t') :
    (s.users.rows ≠ [] →
      trialEnds (unlicensed enforced serverId s'.users t') ≤
        trialEnds (unlicensed enforced serverId s.users t)) ∧
      ((statusInfo (unlicensed enforced serverId s.users t)).allowsNewWork = false →
        ∀ adding existing, require (unlicensed enforced serverId s'.users t') adding existing =
          .error (.http 402 (statusInfo (unlicensed enforced serverId s'.users t')).message)) := by
  have hdated : Dated s := run_dated (hbefore.mono fun _ _ h => h.1) (dated_start now)
  constructor
  · intro hrows
    obtain ⟨d, hd⟩ := exists_trialStart hrows
    simp only [trialEnds, unlicensed, hd, run_trialStart hrun hdated hd]
    exact le_rfl
  · intro hrefused adding existing
    apply require_of_not_allowed
    rw [← Bool.not_eq_true, unlicensed_allows_iff] at hrefused ⊢
    rintro (hoff | hdays)
    · exact hrefused (.inl hoff)
    · refine hrefused (.inr ?_)
      cases hd : trialStart s.users with
      | none =>
        -- before the first account the trial has not begun
        simp only [trialEnds, unlicensed, hd, Option.getD_none, trialDays]
        omega
      | some d =>
        simp only [trialEnds, unlicensed, run_trialStart hrun hdated hd, hd] at hdays ⊢
        exact (dayOf_le htime).trans hdays

/-! ## Deleting the oldest account -/

/-- Midnight of a day. -/
def midnight (day : ℤ) : ℤ := day * 86400000000

/-- The first account, and another administrator's some days later. -/
def twoAdmins (later : ℤ) : List AccountAction :=
  [.operate (midnight 0) (.createFirstUser "root".toList "h".toList),
   .operate (midnight later) (.createUser "ops".toList "h".toList .admin)]

def withTwoAdmins (later : ℤ) : Accounts :=
  ((Accounts.start 0).operate (midnight 0) (.createFirstUser "root".toList "h".toList)).operate
    (midnight later) (.createUser "ops".toList "h".toList .admin)

/-- The first account is deleted. -/
def deleteFirst : AccountAction := .operate (midnight 31) (.deleteUser 1)

def withoutFirst (later : ℤ) : Accounts := (withTwoAdmins later).operate (midnight 31) (.deleteUser 1)

/-- The licensing state of the day on which the first account is deleted. -/
def onDeletion (s : Accounts) : Server := unlicensed true [] s.users (midnight 31)

/-- With both accounts from one day the first one may go. -/
theorem trial_not_extended_sameDay :
    trialEnds (onDeletion (withoutFirst 0)) ≤ trialEnds (onDeletion (withTwoAdmins 0)) ∧
      require (onDeletion (withoutFirst 0)) 1 0 =
        .error (.http 402 (statusInfo (onDeletion (withoutFirst 0))).message) := by
  have hcreate : ∀ {s : Accounts} {a : AccountAction}, InOrder s a →
      (∀ id, a.operation ≠ some (.deleteUser id)) → KeepsTrial s a :=
    fun horder hop => ⟨horder, fun id h => absurd h (hop id)⟩
  have hbefore : Run Accounts.step KeepsTrial (Accounts.start 0) (twoAdmins 0) (withTwoAdmins 0) :=
    .cons (hcreate (by decide) (by simp [AccountAction.operation])) rfl
      (.cons (hcreate (by decide) (by simp [AccountAction.operation])) rfl (.nil _))
  have hdelete : Run Accounts.step KeepsTrial (withTwoAdmins 0) [deleteFirst] (withoutFirst 0) := by
    refine .cons ⟨by decide, fun id hop _ => ?_⟩ rfl (.nil _)
    rw [deleteFirst, AccountAction.operation, Option.some.injEq, UserOp.deleteUser.injEq] at hop
    subst hop
    decide
  have hkept := trial_not_extended true [] hbefore hdelete (le_refl (midnight 31))
  exact ⟨hkept.1 (by decide), hkept.2 (by decide) 1 0⟩

/-- The trial has ended when the first account is deleted, and goes on until the trial of the
later account has. -/
theorem trial_extended :
    Run Accounts.step InOrder (Accounts.start 0) (twoAdmins 20) (withTwoAdmins 20) ∧
      Run Accounts.step InOrder (withTwoAdmins 20) [deleteFirst] (withoutFirst 20) ∧
      (withTwoAdmins 20).users.rows ≠ [] ∧
      (statusInfo (onDeletion (withTwoAdmins 20))).allowsNewWork = false ∧
      trialEnds (onDeletion (withTwoAdmins 20)) = 30 ∧
      trialEnds (onDeletion (withoutFirst 20)) = 50 ∧
      require (unlicensed true [] (withoutFirst 20).users (midnight 50)) 1 0 = .ok () := by
  refine ⟨?_, ?_, by decide, by decide, by decide, by decide, rfl⟩
  · exact .cons (by decide) rfl (.cons (by decide) rfl (.nil _))
  · exact .cons (by decide) rfl (.nil _)

end Habeny.Licensing
