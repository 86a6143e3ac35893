import Habeny.Auth.Users
import Habeny.Lib.Transition

/-!
# The accounts of a server over time

Every operation on the users table is one transaction, so that whatever runs at the same time
is a sequence of operations, each with the time at which it runs.  A single sign-on looks for
the account of its identity first, in a transaction of its own, and then creates it or brings
its role in line with the groups of the identity provider; by then the row that it found may be
out of date.

An administrator always remains, the flag and the role agree in every row, and the first
administrator is set up once.
-/

namespace Habeny.Auth

open Habeny.Lib

/-- An operation on the users table. -/
inductive UserOp where
  | createFirstUser (username passwordHash : Text)
  | createUser (username passwordHash : Text) (role : Role)
  | createSsoUser (username subject : Text) (role : Role)
  | setUserRole (id : ℕ) (role : Role)
  | deleteUser (id : ℕ)
  deriving DecidableEq

/-- Run an operation: whether it is accepted, and the table after it. -/
def UserOp.run (now : ℤ) (u : Users) : UserOp → Bool × Users
  | .createFirstUser username hash =>
    ((u.createFirstUser username hash now).1.isSome, (u.createFirstUser username hash now).2)
  | .createUser username hash role =>
    ((u.createUser username hash role now).1.isSome, (u.createUser username hash role now).2)
  | .createSsoUser username subject role =>
    ((u.createSsoUser username subject role now).1.isSome,
      (u.createSsoUser username subject role now).2)
  | .setUserRole id role => u.setUserRole id role
  | .deleteUser id => u.deleteUser id

/-- The operation that sets up the first administrator. -/
def UserOp.setsUp : UserOp → Bool
  | .createFirstUser _ _ => true
  | _ => false

/-- What a verified identity's sign-in does, given the row that was found for it: a new account
has the role of its groups or the default one, an old one is brought in line with its groups
(`_sso_account`). -/
def ssoOperation (found : Option UserRow) (username subject : Text) (groupRole : Option Role)
    (defaultRole : Role) : Option UserOp :=
  match found, groupRole with
  | none, _ => some (.createSsoUser username subject (groupRole.getD defaultRole))
  | some user, some role => if role ≠ user.role then some (.setUserRole user.id role) else none
  | some _, none => none

/-- What happens to the table: an operation, or a single sign-on with the row that it found
earlier on. -/
inductive AccountAction where
  | operate (now : ℤ) (op : UserOp)
  | ssoSignIn (now : ℤ) (found : Option UserRow) (username subject : Text)
      (groupRole : Option Role) (defaultRole : Role)
  deriving DecidableEq

namespace AccountAction

def time : AccountAction → ℤ
  | .operate now _ => now
  | .ssoSignIn now .. => now

def operation : AccountAction → Option UserOp
  | .operate _ op => some op
  | .ssoSignIn _ found username subject groupRole defaultRole =>
    ssoOperation found username subject groupRole defaultRole

end AccountAction

/-- The table, the time of the last action, and the answers so far, newest first. -/
structure Accounts where
  users : Users
  now : ℤ
  answers : List (UserOp × Bool)

namespace Accounts

/-- No account yet. -/
def start (now : ℤ) : Accounts := { users := .empty, now, answers := [] }

/-- An operation with its answer. -/
def operate (s : Accounts) (now : ℤ) (op : UserOp) : Accounts :=
  { users := (op.run now s.users).2, now, answers := (op, (op.run now s.users).1) :: s.answers }

def step (s : Accounts) (a : AccountAction) : Option Accounts :=
  match a.operation with
  | none => some { s with now := a.time }
  | some op => some (s.operate a.time op)

/-- How often a first administrator was set up. -/
def setups (s : Accounts) : ℕ := s.answers.countP fun answer => answer.1.setsUp && answer.2

/-- There is an administrator. -/
def HasAdmin (u : Users) : Prop := ∃ r ∈ u.rows, r.isAdmin = true

/-- In every row the flag and the role agree. -/
def Agree (u : Users) : Prop := ∀ r ∈ u.rows, r.isAdmin = true ↔ r.role = .admin

lemma step_cases {s s' : Accounts} {a : AccountAction} (h : step s a = some s') :
    (a.operation = none ∧ s' = { s with now := a.time }) ∨
      ∃ op, a.operation = some op ∧ s' = s.operate a.time op := by
  unfold step at h
  cases hop : a.operation with
  | none =>
    rw [hop] at h
    exact .inl ⟨rfl, (Option.some.inj h).symm⟩
  | some op =>
    rw [hop] at h
    exact .inr ⟨op, rfl, (Option.some.inj h).symm⟩

/-! ## What an operation does to the rows -/

/-- The ways in which an operation changes the rows: not at all, by a row at the end, by
another role in the row of one id, or by the removal of that row.  The last two leave the only
administrator alone. -/
inductive Change (op : UserOp) (now : ℤ) (u u' : Users) : Prop
  | none (h : u' = u)
  | insert (n : NewUser) (hrole : n.isAdmin = true ↔ n.role = .admin) (htime : n.createdAt = now)
      (h : u'.rows = u.rows ++ [u.newRow n])
  | setRole (id : ℕ) (role : Role) (hlast : role = .admin ∨ u.isLastAdmin id = false)
      (h : u' = u.updateRole id role)
  | remove (id : ℕ) (hop : op = .deleteUser id) (hlast : u.isLastAdmin id = false)
      (h : u' = u.remove id)

lemma change_of_insert (op : UserOp) {now : ℤ} (u : Users) (n : NewUser)
    (hrole : n.isAdmin = true ↔ n.role = .admin) (htime : n.createdAt = now) :
    Change op now u (u.insert n).2 := by
  rcases u.insert_cases n with h | ⟨-, h⟩
  · exact .none (by rw [h])
  · exact .insert n hrole htime h

lemma run_change (op : UserOp) (now : ℤ) (u : Users) : Change op now u (op.run now u).2 := by
  cases op with
  | createFirstUser username hash =>
    simp only [UserOp.run, Users.createFirstUser]
    split_ifs with hrows
    · exact .none rfl
    · exact change_of_insert _ u _ (by simp) rfl
  | createUser username hash role => exact change_of_insert _ u _ decide_eq_true_iff rfl
  | createSsoUser username subject role => exact change_of_insert _ u _ decide_eq_true_iff rfl
  | setUserRole id role =>
    simp only [UserOp.run, Users.setUserRole]
    split_ifs with hlast
    · exact .none rfl
    · refine .setRole id role ?_ rfl
      by_cases hrole : role = .admin
      · exact .inl hrole
      · exact .inr (by simpa [hrole] using hlast)
  | deleteUser id =>
    simp only [UserOp.run, Users.deleteUser]
    split_ifs with hlast
    · exact .none rfl
    · exact .remove id rfl (by simpa using hlast) rfl

/-- An operation that is refused leaves the table as it is. -/
lemma run_refused (op : UserOp) (now : ℤ) (u : Users) (h : (op.run now u).1 = false) :
    (op.run now u).2 = u := by
  cases op with
  | createFirstUser username hash =>
    simp only [UserOp.run, Users.createFirstUser] at h ⊢
    split_ifs at h ⊢ with hrows
    · rfl
    · exact Users.insert_refused h
  | createUser username hash role => exact Users.insert_refused h
  | createSsoUser username subject role =>
    exact Users.insert_refused h
  | setUserRole id role =>
    simp only [UserOp.run, Users.setUserRole] at h ⊢
    split_ifs at h ⊢ with hlast
    rfl
  | deleteUser id =>
    simp only [UserOp.run, Users.deleteUser] at h ⊢
    split_ifs at h ⊢ with hlast
    rfl

/-- The setup of a first administrator is accepted in an empty table only, and leaves one. -/
lemma run_setsUp {op : UserOp} {now : ℤ} {u : Users} (hop : op.setsUp = true)
    (h : (op.run now u).1 = true) : u.rows = [] ∧ HasAdmin (op.run now u).2 := by
  cases op with
  | createFirstUser username hash =>
    simp only [UserOp.run, Users.createFirstUser] at h ⊢
    split_ifs at h ⊢ with hrows
    · exact absurd h (by simp)
    · have hempty : u.rows = [] := List.eq_nil_of_length_eq_zero (by simpa using hrows)
      refine ⟨hempty, ?_⟩
      rcases u.insert_cases _ with hi | ⟨-, hi⟩
      · rw [hi] at h
        exact absurd h (by simp)
      · refine ⟨_, hi ▸ List.mem_append_right _ (List.mem_singleton_self _), rfl⟩
  | _ => exact absurd hop (by simp [UserOp.setsUp])

/-! ## What every change keeps -/

lemma withRole_agrees (role : Role) (r : UserRow) :
    (Users.withRole role r).isAdmin = true ↔ (Users.withRole role r).role = .admin := by
  simp [Users.withRole]

variable {op : UserOp} {now : ℤ} {u u' : Users}

lemma Change.agree (hchange : Change op now u u') (h : Agree u) : Agree u' := by
  cases hchange with
  | none hsame => rwa [hsame]
  | insert n hrole htime hrows =>
    intro r hr
    rw [hrows, List.mem_append, List.mem_singleton] at hr
    rcases hr with hr | rfl
    · exact h r hr
    · exact hrole
  | setRole id role hlast hupdate =>
    subst hupdate
    intro r hr
    obtain ⟨r₀, hr₀, rfl⟩ := List.mem_map.mp hr
    unfold Users.writeAt
    split_ifs with hid
    · exact withRole_agrees role r₀
    · exact h r₀ hr₀
  | remove id hop hlast hremove =>
    subst hremove
    intro r hr
    exact h r (Users.mem_others.mp hr).1

/-- An administrator remains. -/
lemma Change.hasAdmin (hchange : Change op now u u') (h : HasAdmin u) : HasAdmin u' := by
  obtain ⟨r, hr, hadmin⟩ := h
  cases hchange with
  | none hsame => exact ⟨r, hsame ▸ hr, hadmin⟩
  | insert n hrole htime hrows => exact ⟨r, hrows ▸ List.mem_append_left _ hr, hadmin⟩
  | setRole id role hlast hupdate =>
    subst hupdate
    by_cases hid : r.id = id
    · subst hid
      rcases hlast with rfl | hlast
      · -- the row itself becomes, or stays, an administrator's
        exact ⟨_, List.mem_map_of_mem hr, by simp [Users.writeAt, Users.withRole]⟩
      · obtain ⟨r', hr', hadmin', hid'⟩ := Users.exists_other_admin hr hadmin hlast
        exact ⟨r', Users.mem_modify_of_ne _ hr' hid', hadmin'⟩
    · exact ⟨r, Users.mem_modify_of_ne _ hr hid, hadmin⟩
  | remove id hop hlast hremove =>
    subst hremove
    by_cases hid : r.id = id
    · subst hid
      obtain ⟨r', hr', hadmin', hid'⟩ := Users.exists_other_admin hr hadmin hlast
      exact ⟨r', Users.mem_others.mpr ⟨hr', hid'⟩, hadmin'⟩
    · exact ⟨r, Users.mem_others.mpr ⟨hr, hid⟩, hadmin⟩

/-! ## Runs -/

/-- What holds in every state: the flag and the role agree, and once a first administrator has
been set up there is an administrator, so that no second one is set up. -/
structure Sound (s : Accounts) : Prop where
  agree : Agree s.users
  setups_le : s.setups ≤ 1
  hasAdmin : 1 ≤ s.setups → HasAdmin s.users

lemma sound_start (now : ℤ) : Sound (start now) where
  agree := fun r hr => absurd hr List.not_mem_nil
  setups_le := by simp [start, setups]
  hasAdmin := fun h => absurd h (by simp [start, setups])

lemma step_hasAdmin {s s' : Accounts} {a : AccountAction} (hs : HasAdmin s.users)
    (h : step s a = some s') : HasAdmin s'.users := by
  rcases step_cases h with ⟨-, rfl⟩ | ⟨op, -, rfl⟩
  · exact hs
  · exact (run_change op a.time s.users).hasAdmin hs

lemma step_sound {s s' : Accounts} {a : AccountAction} (hs : Sound s) (h : step s a = some s') :
    Sound s' := by
  rcases step_cases h with ⟨-, rfl⟩ | ⟨op, -, rfl⟩
  · exact ⟨hs.agree, hs.setups_le, hs.hasAdmin⟩
  · have hchange := run_change op a.time s.users
    by_cases hset : op.setsUp = true ∧ (op.run a.time s.users).1 = true
    · obtain ⟨hempty, hadmin⟩ := run_setsUp hset.1 hset.2
      have hnone : s.setups = 0 := by
        by_contra hne
        obtain ⟨r, hr, -⟩ := hs.hasAdmin (by omega)
        rw [hempty] at hr
        exact absurd hr List.not_mem_nil
      refine ⟨hchange.agree hs.agree, ?_, fun _ => hadmin⟩
      simp only [setups, operate, List.countP_cons] at hnone ⊢
      rw [hnone]
      split_ifs <;> omega
    · have hsame : (s.operate a.time op).setups = s.setups := by
        rw [setups, operate, List.countP_cons_of_neg (by simpa using hset), setups]
      refine ⟨hchange.agree hs.agree, ?_, ?_⟩
      · rw [hsame]
        exact hs.setups_le
      · rw [hsame]
        exact fun hone => hchange.hasAdmin (hs.hasAdmin hone)

variable {guard : Accounts → AccountAction → Prop} {s s' : Accounts} {as : List AccountAction}

lemma run_hasAdmin (hrun : Run step guard s as s') (h : HasAdmin s.users) : HasAdmin s'.users :=
  hrun.invariant (P := fun s => HasAdmin s.users)
    (fun hs _ hstep => step_hasAdmin hs hstep) h

/-- **An administrator always remains.**  From an empty table, in every sequence of operations:
a first administrator is set up at most once, the flag and the role agree in every row, an
administrator remains once there is one, and an operation that is refused leaves the table as
it is. -/
theorem admin_remains {now : ℤ} (hrun : Run step anyStep (start now) as s) :
    s.setups ≤ 1 ∧
      (∀ r ∈ s.users.rows, r.isAdmin = true ↔ r.role = .admin) ∧
      (∀ bs s', Run step anyStep s bs s' → HasAdmin s.users → HasAdmin s'.users) ∧
      ∀ (time : ℤ) (op : UserOp), (op.run time s.users).1 = false →
        (op.run time s.users).2 = s.users := by
  have hsound : Sound s :=
    hrun.invariant (P := Sound) (fun hs _ hstep => step_sound hs hstep) (sound_start now)
  exact ⟨hsound.setups_le, hsound.agree, fun _ _ hrest hadmin => run_hasAdmin hrest hadmin,
    fun time op hrefused => run_refused op time s.users hrefused⟩

/-- A setup, a second setup, the administrator's demotion by a single sign-on and its deletion. -/
def setupTwice : List AccountAction :=
  [.operate 0 (.createFirstUser "root".toList "h".toList),
   .operate 1 (.createFirstUser "intruder".toList "h".toList),
   .ssoSignIn 2
    (some { id := 1, username := "root".toList, passwordHash := "h".toList, isAdmin := true,
            role := .admin, oidcSubject := none, createdAt := 0, factor := .off })
    "root".toList "idp|1".toList (some .viewer) .viewer,
   .operate 3 (.deleteUser 1)]

/-- Only the first of them is accepted. -/
example : (exec step (start 0) setupTwice).map (fun s => s.answers.map Prod.snd) =
    some [false, false, false, true] := by decide

theorem admin_remains_setupTwice :
    ∃ s, Run step anyStep (start 0) setupTwice s ∧ s.setups ≤ 1 ∧
      ∀ r ∈ s.users.rows, r.isAdmin = true ↔ r.role = .admin := by
  have hrun : Run step anyStep (start 0) setupTwice _ := run_of_exec rfl
  have hsound := admin_remains hrun
  exact ⟨_, hrun, hsound.1, hsound.2.1⟩

end Accounts

end Habeny.Auth
